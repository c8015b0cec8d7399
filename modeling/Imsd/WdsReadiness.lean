import Imsd.WdsSlot

/-!
# Is a notification justified?

`notify_pdp_ipaddress_change` should be called only when, in the session of the latest activation,
a start-network request succeeded and its handle was stored, and a get-current-settings request
succeeded and its address was stored (`NotifiesAfterSuccess`).  The step that leads there is a
counter which several callbacks increment without looking at it; the callback of start-network
does so even for an error, unless the error is `CALL_FAILED`.

`KeepsCourse` excludes what goes wrong: an answer that increments the counter at the two steps
that wait for a success, without that success, and a start-network request without output at
step `0`, where the counter wraps.  `notifies_after_success` is the property of all runs that keep
the course.  The invariant is `Course`: how far the counter has come says what has succeeded.
-/

namespace Imsd

open EventSystem

/-! ### What has happened -/

/-- A start-network request succeeds with the handle. -/
def Started (handle : UInt32) (l : Label) : Prop :=
  l.event.answer?.bind Answer.startedHandle? = some handle

/-- A get-current-settings request succeeds with an address. -/
def Settles (l : Label) : Prop := (l.event.answer?.bind Answer.settledAddress?).isSome = true

/-- The slot is activated. -/
def Activates (l : Label) : Prop := l.event.activates = true

instance (handle : UInt32) : DecidablePred (Started handle) := fun _ =>
  inferInstanceAs (Decidable (_ = _))

instance : DecidablePred Settles := fun _ => inferInstanceAs (Decidable (_ = _))

instance : DecidablePred Activates := fun _ => inferInstanceAs (Decidable (_ = _))

/-- The event `l`, which leads from `s` to `s'` after the events `tr`, notifies only after both
successes; a start-network answer that reports an error does not get the counter past step `10`;
and what a success brings is stored. -/
structure NotifiesAfterSuccess (tr : List Label) (s : Slot) (l : Label) (s' : Slot) : Prop where
  started : l.notified.isSome → Since (Started s.client.packetDataHandle) Activates tr
  settled : l.notified.isSome → Since Settles Activates tr
  waits : ∀ a ∈ l.event.answer?, a.startFails → s.client.connectionReadinessStep ≤ 10 →
    s'.client.connectionReadinessStep ≤ 10
  handle_stored : ∀ handle, Started handle l → s'.client.packetDataHandle = handle
  address_stored : ∀ a ∈ l.event.answer?, ∀ addr, a.settledAddress? = some addr →
    qmiInet4Ntop addr <+: s'.client.ipAddress

/-- No answer increments the counter past a step that waits for a success without it, or
decrements it at step `0`. -/
def KeepsCourse (tr : List Label) (s : Slot) (l : Label) : Prop :=
  ∀ a ∈ l.event.answer?,
    (s.client.connectionReadinessStep = 10 → a.increments = true →
      a.startedHandle?.isSome = true ∨
        a.startFails = false ∧ Since (Started s.client.packetDataHandle) Activates tr) ∧
    (s.client.connectionReadinessStep = 12 → a.increments = true →
      a.settledAddress?.isSome = true ∨ Since Settles Activates tr) ∧
    (s.client.connectionReadinessStep = 0 → a.decrements = false)

instance (tr : List Label) (s : Slot) (l : Label) : Decidable (KeepsCourse tr s l) :=
  inferInstanceAs (Decidable (∀ a ∈ l.event.answer?, _ ∧ _ ∧ _))

/-! ### The invariant -/

/-- How far the counter has come says what has succeeded. -/
structure Course (tr : List Label) (s : Slot) : Prop where
  started : 10 < s.client.connectionReadinessStep →
    Since (Started s.client.packetDataHandle) Activates tr
  settled : 12 < s.client.connectionReadinessStep → Since Settles Activates tr

/-- Activation starts over. -/
theorem Course.activate (tr : List Label) (s : Slot) (simSlot : UInt32) :
    Course tr (s.activate simSlot) :=
  ⟨fun h => absurd h (Nat.not_lt_zero 10), fun h => absurd h (Nat.not_lt_zero 12)⟩

/-- A tick gets past no step that waits. -/
theorem Course.tick {tr : List Label} {s : Slot} {l : Label} (h : Course tr s)
    (hl : ¬ Activates l) : Course (tr ++ [l]) s.tick := by
  have hstep := tick_step s.client
  obtain ⟨step, done, endpointType, endpointIfnum, hclient⟩ := tick_client s.client
  have hhandle : s.tick.client.packetDataHandle = s.client.packetDataHandle := by
    show (getWdsReadyToConnect s.client).client.packetDataHandle = _
    rw [hclient]
  have hle : s.tick.client.connectionReadinessStep = s.client.connectionReadinessStep ∨
      s.tick.client.connectionReadinessStep ≤ 10 ∨ 11 = s.client.connectionReadinessStep ∧
        s.tick.client.connectionReadinessStep ≤ 12 ∨ 12 < s.client.connectionReadinessStep := by
    show (getWdsReadyToConnect s.client).client.connectionReadinessStep = _ ∨
      (getWdsReadyToConnect s.client).client.connectionReadinessStep ≤ 10 ∨ _ ∧
      (getWdsReadyToConnect s.client).client.connectionReadinessStep ≤ 12 ∨ _
    rw [hstep]
    simp only [List.mem_cons, List.not_mem_nil, or_false]
    split_ifs <;> omega
  constructor
  · intro h10
    rw [hhandle]
    exact since_snoc.2 (Or.inr ⟨h.started (by omega), hl⟩)
  · intro h12
    exact since_snoc.2 (Or.inr ⟨h.settled (by omega), hl⟩)

/-- A completion that keeps the course. -/
theorem Course.complete {tr : List Label} {s : Slot} {p : Pending} {a : Answer} {l : Label}
    (h : Course tr s) (hl : l.event = .complete p a) (hg : KeepsCourse tr s l) :
    Course (tr ++ [l]) (s.complete p a) := by
  have hmove : CallbackStep a s.client.connectionReadinessStep
      (s.complete p a).client.connectionReadinessStep := ready_step s.client a
  have hhandle : (s.complete p a).client.packetDataHandle =
      a.startedHandle?.getD s.client.packetDataHandle := ready_handle s.client a
  have hanswer : l.event.answer? = some a := by rw [hl]; rfl
  have hact : ¬ Activates l := by rw [Activates, hl]; exact Bool.false_ne_true
  obtain ⟨hstart, hsettle, hzero⟩ := hg a hanswer
  have hdown : s.client.connectionReadinessStep = 0 → a.decrements ≠ true :=
    fun h0 => by rw [hzero h0]; exact Bool.false_ne_true
  constructor
  · intro h10
    rw [hhandle]
    by_cases hs : a.startedHandle?.isSome = true
    · obtain ⟨handle, hs⟩ := Option.isSome_iff_exists.1 hs
      refine since_snoc.2 (Or.inl ?_)
      rw [Started, hanswer, Option.bind_some, hs, Option.getD_some]
    · rw [Option.not_isSome_iff_eq_none] at hs
      rw [hs]
      refine since_snoc.2 (Or.inr ⟨?_, hact⟩)
      by_contra hno
      -- without a start the counter was at `10` at most, and this answer got it past that
      have hle : s.client.connectionReadinessStep ≤ 10 := not_lt.1 (mt h.started hno)
      refine absurd (hmove.le (by decide) hle (fun he hinc => ?_) hdown) (not_le.2 h10)
      rcases hstart he hinc with hsome | ⟨-, hsince⟩
      · rw [hs] at hsome
        exact Bool.false_ne_true hsome
      · exact hno hsince
  · intro h12
    by_cases hs : a.settledAddress?.isSome = true
    · exact since_snoc.2 (Or.inl (by rw [Settles, hanswer]; exact hs))
    · refine since_snoc.2 (Or.inr ⟨?_, hact⟩)
      by_contra hno
      have hle : s.client.connectionReadinessStep ≤ 12 := not_lt.1 (mt h.settled hno)
      refine absurd (hmove.le (by decide) hle (fun he hinc => ?_) hdown) (not_le.2 h12)
      exact (hsettle he hinc).elim hs hno

/-- **What one event preserves.** -/
theorem Course.step {tr : List Label} {s s' : Slot} {l : Label} (h : Course tr s)
    (hg : KeepsCourse tr s l) (hs : s.Step l s') : Course (tr ++ [l]) s' := by
  obtain ⟨event, session, notified⟩ := l
  cases event with
  | activate simSlot =>
    obtain ⟨-, rfl, -, -⟩ := Slot.step_activate_iff.1 hs
    exact Course.activate _ s simSlot
  | tick =>
    obtain ⟨-, -, rfl, -, -⟩ := Slot.step_tick_iff.1 hs
    exact h.tick Bool.false_ne_true
  | complete p a =>
    obtain ⟨-, -, rfl, -, -⟩ := Slot.step_complete_iff.1 hs
    exact h.complete rfl hg

/-- **What a whole run preserves.**  Before the first activation there is nothing to preserve. -/
theorem course_of_run {tr : List Label} {s : Slot}
    (h : Run Slot.Idle Slot.Step KeepsCourse tr s) : s.Idle ∨ Course tr s := by
  induction h with
  | start hi => exact Or.inl hi
  | @snoc tr s s' l _ hg hs ih =>
    rcases ih with hi | hc
    · obtain ⟨simSlot, rfl, rfl⟩ := hi.step hs
      exact Or.inr (Course.activate _ s simSlot)
    · exact Or.inr (hc.step hg hs)

/-- An event that delivers no answer and does not notify. -/
theorem notifiesAfterSuccess_of_silent {tr : List Label} {s s' : Slot} {l : Label}
    (hn : l.notified = none) (ha : l.event.answer? = none) : NotifiesAfterSuccess tr s l s' where
  started h := by rw [hn] at h; exact absurd h Bool.false_ne_true
  settled h := by rw [hn] at h; exact absurd h Bool.false_ne_true
  waits a h := by rw [ha] at h; cases h
  handle_stored handle h := by rw [Started, ha] at h; cases h
  address_stored a h := by rw [ha] at h; cases h

/-- A tick notifies at step `99`, and by then both requests have succeeded. -/
theorem Course.notifies_tick {tr : List Label} {s : Slot} (h : Course tr s) :
    NotifiesAfterSuccess tr s
      ⟨.tick, s.sessions, (getWdsReadyToConnect s.client).notified⟩ s.tick := by
  have h99 : (getWdsReadyToConnect s.client).notified.isSome →
      s.client.connectionReadinessStep = 99 := by
    rw [tick_notified]
    split_ifs with h
    · exact fun _ => h
    · exact fun h => absurd h Bool.false_ne_true
  exact
    { started := fun hn => h.started (by rw [h99 hn]; decide)
      settled := fun hn => h.settled (by rw [h99 hn]; decide)
      waits := fun a ha => by cases ha
      handle_stored := fun handle ha => by cases ha
      address_stored := fun a ha => by cases ha }

/-- A completion that keeps the course stores what it brings, and waits for a start that
fails. -/
theorem notifies_complete {tr : List Label} {s : Slot} {p : Pending} {a : Answer}
    (hg : KeepsCourse tr s ⟨.complete p a, s.sessions, none⟩) :
    NotifiesAfterSuccess tr s ⟨.complete p a, s.sessions, none⟩ (s.complete p a) where
  started h := absurd h Bool.false_ne_true
  settled h := absurd h Bool.false_ne_true
  waits a' ha hfail hle := by
    obtain rfl : a = a' := Option.some.inj ha
    obtain ⟨hstart, -, hzero⟩ := hg a rfl
    refine (ready_step s.client a).le (by decide) hle (fun he hinc => ?_) fun h0 => ?_
    · rcases hstart he hinc with hsome | ⟨hno, -⟩
      · rcases a with _ | _ | _ | _ | _ | _ | (_ | _ | _) | _ <;>
          first | exact Bool.false_ne_true hfail | exact Bool.false_ne_true hsome
      · rw [hno] at hfail
        exact Bool.false_ne_true hfail
    · rw [hzero h0]
      exact Bool.false_ne_true
  handle_stored handle ha := by
    have hs : a.startedHandle? = some handle := ha
    show (ready s.client a).client.packetDataHandle = handle
    rw [ready_handle, hs, Option.getD_some]
  address_stored a' ha addr haddr := by
    obtain rfl : a = a' := Option.some.inj ha
    exact ready_ipAddress s.client a haddr

/-- **In a run that keeps the course, notifications come after both successes.** -/
theorem notifies_after_success {tr : List Label} {s s' : Slot} {l : Label}
    (hr : Run Slot.Idle Slot.Step KeepsCourse tr s) (hg : KeepsCourse tr s l)
    (hs : s.Step l s') : NotifiesAfterSuccess tr s l s' := by
  rcases course_of_run hr with hi | hc
  · obtain ⟨simSlot, rfl, rfl⟩ := hi.step hs
    exact notifiesAfterSuccess_of_silent rfl rfl
  · obtain ⟨event, session, notified⟩ := l
    cases event with
    | activate simSlot =>
      obtain ⟨-, rfl, rfl, rfl⟩ := Slot.step_activate_iff.1 hs
      exact notifiesAfterSuccess_of_silent rfl rfl
    | tick =>
      obtain ⟨-, -, rfl, rfl, rfl⟩ := Slot.step_tick_iff.1 hs
      exact hc.notifies_tick
    | complete p a =>
      obtain ⟨-, -, rfl, rfl, rfl⟩ := Slot.step_complete_iff.1 hs
      exact notifies_complete hg

/-- A bring-up with its notification. -/
theorem notifies_after_success_bringUp :
    ∃ tr s l s', l.notified.isSome ∧ NotifiesAfterSuccess tr s l s' := by
  have h : (simulate Slot.step (fun tr s l => decide (KeepsCourse tr s l)) [] freshSlot
      (bringUp (.ok (some 7)))).any fun r => (r.2.step .tick).any fun q =>
        q.2.notified.isSome && decide (KeepsCourse r.1 r.2 q.2) := by
    decide +kernel
  obtain ⟨r, hr, h⟩ := (Option.any_eq_true _ _).1 h
  obtain ⟨q, hs, hn⟩ := (Option.any_eq_true _ _).1 h
  obtain ⟨hn, hg⟩ := Bool.and_eq_true_iff.1 hn
  have hrun : Run Slot.Idle Slot.Step KeepsCourse r.1 r.2 :=
    run_of_simulate (fun _ _ _ => of_decide_eq_true) hr
  exact ⟨r.1, r.2, q.2, q.1, hn,
    notifies_after_success hrun (of_decide_eq_true hg) (Slot.step_of_step_eq hs)⟩

/-- With an error that is not `CALL_FAILED`, the bring-up goes on to its notification. -/
theorem not_notifies_after_success :
    ¬ ∀ tr s l s', Run Slot.Idle Slot.Step unguarded tr s → s.Step l s' →
      NotifiesAfterSuccess tr s l s' := by
  intro hall
  have h : (simulate Slot.step (fun _ _ _ => true) [] freshSlot
      (bringUp (.error false))).any fun r => (r.2.step .tick).any fun q =>
        q.2.notified.isSome &&
          !decide (Since (Started r.2.client.packetDataHandle) Activates r.1) := by
    decide +kernel
  obtain ⟨r, hr, h⟩ := (Option.any_eq_true _ _).1 h
  obtain ⟨q, hs, hn⟩ := (Option.any_eq_true _ _).1 h
  obtain ⟨hn, hno⟩ := Bool.and_eq_true_iff.1 hn
  have hrun : Run Slot.Idle Slot.Step unguarded r.1 r.2 :=
    run_of_simulate (fun _ _ _ _ => trivial) hr
  have hsince := (hall _ _ _ _ hrun (Slot.step_of_step_eq hs)).started hn
  rw [decide_eq_true hsince] at hno
  exact Bool.false_ne_true hno

end Imsd
