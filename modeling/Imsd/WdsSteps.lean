import Imsd.WdsSlot

/-!
# Does the step stay among the declared ones?

The callbacks increment and decrement `connection_readiness_step` as they find it.  Nothing stops
them at an end of the declared steps (`0` to `17`, and `99`), and at any other step the default
branch of `get_wds_ready_to_connect` drops the timer without a notification.

`KeepsRange` excludes the increments at `17` and `99` and the decrements at `0` and `99`.
`step_declared_iff`: as long as no event has broken it, the next event leads to a declared step
exactly when it does not break it, either.
-/

namespace Imsd

open EventSystem

/-- A step with a name. -/
def Declared (step : ℕ) : Prop := step ≤ 17 ∨ step = 99

instance : DecidablePred Declared := fun _ => inferInstanceAs (Decidable (_ ∨ _))

/-- The event leads to a declared step, and if it drops a timer, it notifies. -/
structure StepDeclared (s : Slot) (l : Label) (s' : Slot) : Prop where
  declared : Declared s'.client.connectionReadinessStep
  notifies : s'.timers < s.timers → l.notified.isSome

/-- No answer increments the step at the end of its range, or decrements it at the start. -/
def KeepsRange (_ : List Label) (s : Slot) (l : Label) : Prop :=
  ∀ a ∈ l.event.answer?,
    (a.increments = true → s.client.connectionReadinessStep ≠ 17 ∧
      s.client.connectionReadinessStep ≠ 99) ∧
    (a.decrements = true → s.client.connectionReadinessStep ≠ 0 ∧
      s.client.connectionReadinessStep ≠ 99)

instance (tr : List Label) (s : Slot) (l : Label) : Decidable (KeepsRange tr s l) :=
  inferInstanceAs (Decidable (∀ a ∈ l.event.answer?, _ ∧ _))

/-! ### What the events do to the step -/

section Ready

variable (client : WDSClient) {a : Answer}

theorem ready_increments (h : a.increments = true) :
    (ready client a).client.connectionReadinessStep =
      (client.connectionReadinessStep + 1) % 256 := by
  cases a with
  | addLink link =>
    cases link with
    | none => exact absurd h Bool.false_ne_true
    | some link => rfl
  | bindMuxDataPort reply =>
    cases reply with
    | ok => rfl
    | _ => exact absurd h Bool.false_ne_true
  | startNetwork reply =>
    rcases reply with _ | (_ | _) | (_ | _)
    · exact absurd h Bool.false_ne_true
    · rfl
    · exact absurd h Bool.false_ne_true
    · rfl
    · rfl
  | getCurrentSettings output =>
    obtain ⟨addr, haddr⟩ := Option.isSome_iff_exists.1 h
    rw [ready_getCurrentSettings, haddr]
    rfl
  | _ => exact absurd h Bool.false_ne_true

theorem ready_decrements (h : a.decrements = true) :
    (ready client a).client.connectionReadinessStep =
      (client.connectionReadinessStep + 255) % 256 := by
  cases a with
  | startNetwork reply =>
    cases reply with
    | noOutput => rfl
    | _ => exact absurd h Bool.false_ne_true
  | _ => exact absurd h Bool.false_ne_true

/-- A callback goes to a declared step unless it steps over an end of the range. -/
theorem declared_ready_iff (h : Declared client.connectionReadinessStep) :
    Declared (ready client a).client.connectionReadinessStep ↔
      (a.increments = true → client.connectionReadinessStep ≠ 17 ∧
        client.connectionReadinessStep ≠ 99) ∧
      (a.decrements = true → client.connectionReadinessStep ≠ 0 ∧
        client.connectionReadinessStep ≠ 99) := by
  have hmove := ready_step client a
  have hinc := @ready_increments client a
  have hdec := @ready_decrements client a
  unfold Declared at h ⊢
  generalize (ready client a).client.connectionReadinessStep = step' at hmove hinc hdec ⊢
  constructor
  · intro h'
    refine ⟨fun hi => ?_, fun hd => ?_⟩
    · have := hinc hi
      omega
    · have := hdec hd
      omega
  · rintro ⟨hup, hdown⟩
    cases hmove with
    | stays => exact h
    | addModify => exact Or.inl (by decide)
    | profileReady => exact Or.inl (by decide)
    | again => exact Or.inl (by decide)
    | up hi =>
      have := hup hi
      omega
    | down hd =>
      have := hdown hd
      omega

end Ready

/-- A tick goes from a declared step to a declared one, and drops its timer at the last one
only. -/
theorem stepDeclared_tick {s : Slot} (h : Declared s.client.connectionReadinessStep) :
    StepDeclared s ⟨.tick, s.sessions, (getWdsReadyToConnect s.client).notified⟩ s.tick := by
  have hstep := tick_step s.client
  have htimers := s.tick_timers
  unfold Declared at h
  constructor
  · show Declared (getWdsReadyToConnect s.client).client.connectionReadinessStep
    simp only [List.mem_cons, List.not_mem_nil, or_false] at hstep
    unfold Declared
    split_ifs at hstep <;> omega
  · intro hlt
    have h99 : s.client.connectionReadinessStep = 99 := by
      split_ifs at htimers with h17
      · omega
      · omega
    show (getWdsReadyToConnect s.client).notified.isSome
    rw [tick_notified, if_pos h99]
    rfl

/-- **The next event and the declared steps**, from a declared one. -/
theorem stepDeclared_iff_of_declared {tr : List Label} {s s' : Slot} {l : Label}
    (h : Declared s.client.connectionReadinessStep) (hs : s.Step l s') :
    StepDeclared s l s' ↔ KeepsRange tr s l := by
  obtain ⟨event, session, notified⟩ := l
  cases event with
  | activate simSlot =>
    obtain ⟨-, rfl, rfl, rfl⟩ := Slot.step_activate_iff.1 hs
    refine iff_of_true ⟨Or.inl (Nat.zero_le 17), fun hlt => ?_⟩ fun a ha => by cases ha
    exact absurd hlt (Nat.not_lt.2 (Nat.le_succ s.timers))
  | tick =>
    obtain ⟨-, -, rfl, rfl, rfl⟩ := Slot.step_tick_iff.1 hs
    exact iff_of_true (stepDeclared_tick h) fun a ha => by cases ha
  | complete p a =>
    obtain ⟨-, -, rfl, rfl, rfl⟩ := Slot.step_complete_iff.1 hs
    constructor
    · intro h' a' ha
      obtain rfl : a = a' := Option.some.inj ha
      exact (declared_ready_iff s.client h).1 h'.declared
    · intro hg
      exact ⟨(declared_ready_iff s.client h).2 (hg a rfl), fun hlt => absurd hlt (lt_irrefl _)⟩

/-- The activation that comes first. -/
theorem stepDeclared_of_idle (tr : List Label) {s s' : Slot} {l : Label} (h : s.Idle)
    (hs : s.Step l s') : StepDeclared s l s' ∧ KeepsRange tr s l := by
  obtain ⟨simSlot, rfl, rfl⟩ := h.step hs
  refine ⟨⟨Or.inl (Nat.zero_le 17), fun hlt => ?_⟩, fun a ha => by cases ha⟩
  exact absurd hlt (Nat.not_lt.2 (Nat.le_succ s.timers))

/-- **In a run that keeps the range, every step is declared.**  The memory of a slot that has not
been activated yet is not initialized. -/
theorem declared_of_run {tr : List Label} {s : Slot}
    (h : Run Slot.Idle Slot.Step KeepsRange tr s) :
    s.Idle ∨ Declared s.client.connectionReadinessStep := by
  induction h with
  | start hi => exact Or.inl hi
  | @snoc tr s s' l _ hg hs ih =>
    refine Or.inr (StepDeclared.declared (s := s) (l := l) ?_)
    rcases ih with hi | hd
    · exact (stepDeclared_of_idle tr hi hs).1
    · exact (stepDeclared_iff_of_declared hd hs).2 hg

/-- **The steps stay among the declared ones exactly as long as no answer takes the counter over
an end of its range.** -/
theorem step_declared_iff {tr : List Label} {s s' : Slot} {l : Label}
    (hr : Run Slot.Idle Slot.Step KeepsRange tr s) (hs : s.Step l s') :
    StepDeclared s l s' ↔ KeepsRange tr s l := by
  rcases declared_of_run hr with hi | hd
  · exact iff_of_true (stepDeclared_of_idle tr hi hs).1 (stepDeclared_of_idle tr hi hs).2
  · exact stepDeclared_iff_of_declared hd hs

/-- A bring-up, up to its notification. -/
theorem step_declared_bringUp : ∃ s l s', l.notified.isSome ∧ StepDeclared s l s' := by
  have h : (simulate Slot.step (fun tr s l => decide (KeepsRange tr s l)) [] freshSlot
      (bringUp (.ok (some 7)))).any fun r => (r.2.step .tick).any fun q =>
        q.2.notified.isSome && decide (KeepsRange r.1 r.2 q.2) := by
    decide +kernel
  obtain ⟨r, hr, h⟩ := (Option.any_eq_true _ _).1 h
  obtain ⟨q, hs, hn⟩ := (Option.any_eq_true _ _).1 h
  obtain ⟨hn, hg⟩ := Bool.and_eq_true_iff.1 hn
  have hrun : Run Slot.Idle Slot.Step KeepsRange r.1 r.2 :=
    run_of_simulate (fun _ _ _ => of_decide_eq_true) hr
  exact ⟨r.2, q.2, q.1, hn,
    (step_declared_iff hrun (Slot.step_of_step_eq hs)).2 (of_decide_eq_true hg)⟩

/-- Two ticks ask for the current settings; the first answer ends the bring-up, and the second one
takes the step from `99` to `100`. -/
theorem not_step_declared :
    ¬ ∀ tr s l s', Run Slot.Idle Slot.Step unguarded tr s → s.Step l s' →
      StepDeclared s l s' := by
  intro hall
  have h : (simulate Slot.step (fun _ _ _ => true) [] freshSlot
      ((bringUp (.ok (some 7))).dropLast.dropLast ++
        [.tick, .complete ⟨1, .getCurrentSettings⟩ (currentSettings 0x0A000001), .tick])).any
      fun r => (r.2.step
        (.complete ⟨1, .getCurrentSettings⟩ (currentSettings 0x0A000001))).any fun q =>
          !decide (Declared q.1.client.connectionReadinessStep) := by
    decide +kernel
  obtain ⟨r, hr, h⟩ := (Option.any_eq_true _ _).1 h
  obtain ⟨q, hs, hno⟩ := (Option.any_eq_true _ _).1 h
  have hrun : Run Slot.Idle Slot.Step unguarded r.1 r.2 :=
    run_of_simulate (fun _ _ _ _ => trivial) hr
  have hdeclared := (hall _ _ _ _ hrun (Slot.step_of_step_eq hs)).declared
  rw [decide_eq_true hdeclared] at hno
  exact Bool.false_ne_true hno

end Imsd
