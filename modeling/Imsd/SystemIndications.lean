import Imsd.SystemIsolation

/-!
# One timer, one indication

A slot should have at most one timer, and when its bring-up has come to the last step, the server
should emit one indication for the current activation (`OneIndication`).  Nothing in
`initiate_wds_session` looks for a timer that is still there: a request that is repeated adds
another one, and each of them notifies.

`OneAtATime i` is the condition on the events of slot `i` under which it works: the slot is
activated only when it has no timer, no answer takes the counter away from the last step before
the timer has seen it there, and none takes it to the last step when there is no timer to see it.
The events of other slots are arbitrary.  `one_indication` is the property of all runs under this
condition.  Its invariant is `Steady`: timers and indications add up to one at most.
-/

namespace Imsd

open EventSystem

/-! ### What has happened -/

namespace SystemLabel

/-- The event activates slot `i`. -/
def activates (i : ℕ) (l : SystemLabel) : Bool :=
  match l.event with
  | .request r => r.simSlot.toNat = i
  | _ => false

/-- The event is a call of a timer of slot `i`. -/
def ticks (i : ℕ) (l : SystemLabel) : Bool :=
  match l.event with
  | .tick j => j = i
  | _ => false

end SystemLabel

/-- The indications for slot `i` since its latest activation. -/
def indications (i : ℕ) (tr : List SystemLabel) : ℕ :=
  sumSince (fun l => if l.ticks i && l.indication.isSome then 1 else 0) (·.activates i) tr

/-- The list of profiles has no next element, and none was taken. -/
def WDSClient.lacksProfile (client : WDSClient) : Bool :=
  (client.profileList.profileList[(client.profileList.i + 1) % 2 ^ 32]?).isNone &&
    client.profileId = 0

/-- The answers whose callbacks move the counter when it is at the last step. -/
def Answer.movesStep (client : WDSClient) : Answer → Bool
  | .getProfileList (.ok none) => true
  | .getProfileList (.ok (some profiles)) => profiles.isEmpty
  | .getProfileSettings reply => client.profileList.live && (reply.ims || client.lacksProfile)
  | .createProfile (.ok (some _)) => true
  | .startNetwork _ => true
  | answer => answer.increments

/-- The answer does not come between the last step and the timer. -/
def Slot.Undisturbed (s : Slot) (answer : Answer) : Prop :=
  if s.timers = 0 then
    (answer.increments = true → (s.client.connectionReadinessStep + 1) % 256 ≠ 99) ∧
      (answer.decrements = true → (s.client.connectionReadinessStep + 255) % 256 ≠ 99)
  else s.client.connectionReadinessStep = 99 → answer.movesStep s.client = false

instance (s : Slot) (answer : Answer) : Decidable (s.Undisturbed answer) :=
  inferInstanceAs (Decidable (if s.timers = 0 then
    (answer.increments = true → (s.client.connectionReadinessStep + 1) % 256 ≠ 99) ∧
      (answer.decrements = true → (s.client.connectionReadinessStep + 255) % 256 ≠ 99)
  else s.client.connectionReadinessStep = 99 → answer.movesStep s.client = false))

/-- The condition on an event, as far as slot `i` is concerned. -/
def OneAtATime (i : ℕ) (s : System) (l : SystemLabel) : Prop :=
  match l.event with
  | .request r => r.simSlot.toNat = i → (s.slot i).timers = 0
  | .tick _ => True
  | .complete j _ answer => j = i → (s.slot i).Undisturbed answer

instance (i : ℕ) (s : System) (l : SystemLabel) : Decidable (OneAtATime i s l) :=
  match l with
  | ⟨.request r, _⟩ => inferInstanceAs (Decidable (r.simSlot.toNat = i → (s.slot i).timers = 0))
  | ⟨.tick _, _⟩ => inferInstanceAs (Decidable True)
  | ⟨.complete j _ answer, _⟩ =>
    inferInstanceAs (Decidable (j = i → (s.slot i).Undisturbed answer))

/-- A step that meets the condition. -/
def SoloStep (i : ℕ) (s : System) (l : SystemLabel) (s' : System) : Prop :=
  OneAtATime i s l ∧ s.Step l s'

/-! ### What the callbacks leave alone -/

theorem keepOn_step_of_not_lacksProfile {client : WDSClient} (h : client.lacksProfile = false) :
    (wdsGetProfileSettingsReady.keepOn client).client.connectionReadinessStep =
      client.connectionReadinessStep := by
  refine (keepOn_step client).trans (if_neg ?_)
  rintro ⟨hnone, hzero⟩
  rw [WDSClient.lacksProfile, hnone, hzero] at h
  exact absurd h (by decide)

/-- The answers that do not move the counter. -/
theorem ready_step_of_movesStep {client : WDSClient} {answer : Answer}
    (h : answer.movesStep client = false) :
    (ready client answer).client.connectionReadinessStep = client.connectionReadinessStep := by
  cases answer with
  | getProfileList reply =>
    rcases reply with _ | _ | (_ | _ | ⟨profile, profiles⟩)
    · rfl
    · rfl
    · cases h
    · cases h
    · rw [ready_profiles]
      exact (nextProfileSettings_step _).trans (if_neg fun hnone => by cases hnone.1)
  | getProfileSettings reply =>
    cases hprofile : client.profileList.profileList[client.profileList.i]? with
    | none => rw [ready_released client hprofile]
    | some profile =>
      have hlive := (ProfileList.live_iff client.profileList).2 ⟨profile, hprofile⟩
      rw [Answer.movesStep, hlive, Bool.true_and, Bool.or_eq_false_iff] at h
      rw [ready_settings client hprofile, takeProfile_of_not_ims client h.1]
      exact keepOn_step_of_not_lacksProfile h.2
  | createProfile reply =>
    rcases reply with _ | _ | (_ | _)
    · rfl
    · rfl
    · rfl
    · cases h
  | modifyProfile reply => rfl
  | addLink link =>
    cases link with
    | none => rfl
    | some => cases h
  | bindMuxDataPort reply =>
    cases reply with
    | ok => cases h
    | _ => rfl
  | startNetwork reply => cases h
  | getCurrentSettings output =>
    rw [ready_getCurrentSettings]
    cases haddr : output.bind CurrentSettings.address? with
    | none => rfl
    | some addr =>
      have hnone : (output.bind CurrentSettings.address?).isSome = false := h
      rw [haddr] at hnone
      cases hnone

/-- A callback that comes at the last step, or to it, under the condition. -/
theorem Slot.Undisturbed.step_eq {s : Slot} {answer : Answer} (h : s.Undisturbed answer)
    (h99 : (ready s.client answer).client.connectionReadinessStep = 99) :
    s.client.connectionReadinessStep = 99 ∨ s.timers ≠ 0 := by
  by_cases h0 : s.timers = 0
  · rw [Slot.Undisturbed, if_pos h0] at h
    have hmove := ready_step s.client answer
    generalize (ready s.client answer).client.connectionReadinessStep = n at h99 hmove
    cases hmove with
    | stays => exact Or.inl h99
    | up hinc => exact absurd h99 (h.1 hinc)
    | down hdec => exact absurd h99 (h.2 hdec)
    | _ => omega
  · exact Or.inr h0

/-! ### The invariant -/

section Steady

variable {i : ℕ} {s s' : System} {tr : List SystemLabel} {l : SystemLabel}

/-- One more event. -/
theorem indications_snoc :
    indications i (tr ++ [l]) = if l.activates i then 0 else
      indications i tr + if l.ticks i && l.indication.isSome then 1 else 0 :=
  sumSince_snoc _ _ _ _

/-- The slot has been activated: its session can be found by the slot id of its client. -/
structure Findable (i : ℕ) (s : System) : Prop where
  lt : i < maxSimSlots
  slotId : (s.server.pdpSession i).slotId = (s.slot i).client.slotId

/-- What a slot has been through under the condition. -/
structure Steady (i : ℕ) (tr : List SystemLabel) (s : System) : Prop where
  total : (s.slot i).timers + indications i tr ≤ 1
  findable : 0 < (s.slot i).timers → Findable i s
  finished : (∃ l ∈ tr, l.activates i) → (s.slot i).client.connectionReadinessStep = 99 →
    (s.slot i).timers + indications i tr = 1

/-- The lookup for a findable slot ends up somewhere. -/
theorem Findable.isSome (h : Findable i s) :
    (activeSimSlot s.server (s.slot i).client.slotId).isSome := by
  have hlt : i < 2 := h.lt
  have hid := h.slotId
  rw [activeSimSlot_eq]
  split_ifs with h1 h0
  · rfl
  · rfl
  · obtain rfl | rfl : i = 0 ∨ i = 1 := by omega
    · exact absurd hid.symm h0
    · exact absurd hid.symm h1

/-- Events of other slots do nothing to a slot, its session or its count. -/
theorem Steady.other (h : Steady i tr s) (hslot : s'.slot i = s.slot i)
    (hsession : s'.server.pdpSession i = s.server.pdpSession i)
    (hact : l.activates i = false) (htick : l.ticks i = false) : Steady i (tr ++ [l]) s' := by
  have hcount : indications i (tr ++ [l]) = indications i tr := by
    rw [indications_snoc, hact, htick]
    rfl
  refine ⟨by rw [hslot, hcount]; exact h.total, fun hpos => ?_, fun hactive h99 => ?_⟩
  · rw [hslot] at hpos
    obtain ⟨hlt, hid⟩ := h.findable hpos
    exact ⟨hlt, by rw [hslot, hsession, hid]⟩
  · rw [hslot] at h99 ⊢
    rw [hcount]
    obtain ⟨l', hl', hl⟩ := hactive
    rcases List.mem_append.1 hl' with hl' | hl'
    · exact h.finished ⟨l', hl', hl⟩ h99
    · rw [List.mem_singleton.1 hl', hact] at hl
      exact absurd hl Bool.false_ne_true

/-- A call of a timer emits an indication at the last step, and there only. -/
theorem Findable.tick {indication : Option (List UInt8)} (h : Findable i s)
    (hs : s.Step ⟨.tick i, indication⟩ s') :
    ((s.slot i).crashed = false ∧ 0 < (s.slot i).timers) ∧ s'.slot i = (s.slot i).tick ∧
      Findable i s' ∧
      indication.isSome = decide ((s.slot i).client.connectionReadinessStep = 99) := by
  obtain ⟨-, hpos, hnotify⟩ := System.step_tick_iff.1 hs
  obtain ⟨rfl, rfl⟩ := Prod.ext_iff.1 hnotify
  have hslot : ∀ n, ((s.setSlot i (s.slot i).tick).notify n).1.slot i = (s.slot i).tick := by
    intro n
    rw [System.notify_slot, System.setSlot_slot_self]
  obtain ⟨step, done, endpointType, endpointIfnum, hclient⟩ := tick_client (s.slot i).client
  have hid : (s.slot i).tick.client.slotId = (s.slot i).client.slotId := by
    show (getWdsReadyToConnect (s.slot i).client).client.slotId = _
    rw [hclient]
  refine ⟨hpos, hslot _, ⟨h.lt, ?_⟩, ?_⟩
  · rw [hslot, hid, System.notify_pdpSession, System.setSlot_server, h.slotId]
  · rw [tick_notified]
    split_ifs with h99
    · rw [decide_eq_true h99]
      exact System.notify_isSome _ h.isSome _
    · rw [decide_eq_false h99]
      rfl

/-- A tick gives its timer for an indication, or keeps it, or gives up before the last step. -/
theorem Steady.tick {indication : Option (List UInt8)} (h : Steady i tr s)
    (hs : s.Step ⟨.tick i, indication⟩ s') : Steady i (tr ++ [⟨.tick i, indication⟩]) s' := by
  have hpos := (System.step_tick_iff.1 hs).2.1.2
  obtain ⟨-, hslot, hfind, hind⟩ := (h.findable hpos).tick hs
  have htotal := h.total
  have htimers := (s.slot i).tick_timers
  have hcount : indications i (tr ++ [⟨.tick i, indication⟩]) =
      indications i tr + if (s.slot i).client.connectionReadinessStep = 99 then 1 else 0 := by
    rw [indications_snoc]
    simp [SystemLabel.activates, SystemLabel.ticks, hind]
  rw [← hslot] at htimers
  refine ⟨?_, fun _ => hfind, fun _ h99 => ?_⟩
  · rw [hcount, htimers]
    split_ifs <;> omega
  · -- a tick gets to the last step from `13` only, and there the timer stays
    have hstep : (s'.slot i).client.connectionReadinessStep = _ :=
      (congrArg (fun t : Slot => t.client.connectionReadinessStep) hslot).trans
        (tick_step (s.slot i).client)
    rw [h99] at hstep
    simp only [List.mem_cons, List.not_mem_nil, or_false] at hstep
    rw [hcount, htimers]
    split_ifs at hstep ⊢ <;> omega

/-- A completion leaves the timers and the count alone. -/
theorem Steady.complete {p : Pending} {answer : Answer} {indication : Option (List UInt8)}
    (h : Steady i tr s) (hg : (s.slot i).Undisturbed answer)
    (hs : s.Step ⟨.complete i p answer, indication⟩ s') :
    Steady i (tr ++ [⟨.complete i p answer, indication⟩]) s' := by
  obtain ⟨-, -, rfl, rfl⟩ := System.step_complete_iff.1 hs
  have hslot := s.complete_slot_self i p answer
  have htimers : ((s.slot i).complete p answer).timers = (s.slot i).timers := rfl
  have hid : ((s.slot i).complete p answer).client.slotId = (s.slot i).client.slotId :=
    ready_slotId _ _
  have hcount : indications i (tr ++ [⟨.complete i p answer, none⟩]) = indications i tr := by
    rw [indications_snoc]
    rfl
  have htotal := h.total
  refine ⟨by rw [hslot, hcount, htimers]; exact htotal, fun hpos => ?_, fun hactive h99 => ?_⟩
  · rw [hslot, htimers] at hpos
    obtain ⟨hlt, hid'⟩ := h.findable hpos
    exact ⟨hlt, by rw [hslot, hid, System.complete_server, hid']⟩
  · rw [hslot] at h99 ⊢
    rw [hcount, htimers]
    have hactive : ∃ l ∈ tr, l.activates i := by
      obtain ⟨l', hl', hl⟩ := hactive
      rcases List.mem_append.1 hl' with hl' | hl'
      · exact ⟨l', hl', hl⟩
      · rw [List.mem_singleton.1 hl'] at hl
        exact absurd hl Bool.false_ne_true
    -- it was there before, or there is the timer that will see it
    rcases hg.step_eq h99 with hbefore | hpos
    · exact h.finished hactive hbefore
    · omega

/-- **What one event preserves.** -/
theorem Steady.step (h : Steady i tr s) (hs : SoloStep i s l s') : Steady i (tr ++ [l]) s' := by
  obtain ⟨hg, hs⟩ := hs
  obtain ⟨event, indication⟩ := l
  by_cases howner : event.owner = i
  · cases event with
    | request r =>
      obtain rfl : r.simSlot.toNat = i := howner
      obtain ⟨-, rfl, rfl⟩ := System.step_request_iff.1 hs
      have hcount : indications r.simSlot.toNat (tr ++ [⟨.request r, none⟩]) = 0 := by
        rw [indications_snoc]
        exact if_pos (decide_eq_true rfl)
      have hslot := System.activated_slot_self s r
      have hsession := System.activated_session_self s r
      have hzero : (s.slot r.simSlot.toNat).timers = 0 := hg rfl
      refine ⟨?_, fun _ => ⟨r.simSlot_lt, ?_⟩, fun _ h99 => ?_⟩
      · rw [hslot, hcount]
        show (s.slot r.simSlot.toNat).timers + 1 + 0 ≤ 1
        rw [hzero]
      · rw [hslot]
        exact congrArg DcmPdpSession.slotId hsession
      · rw [hslot] at h99
        exact absurd h99 (by decide : (0 : ℕ) ≠ 99)
    | tick j =>
      obtain rfl : j = i := howner
      exact h.tick hs
    | complete j p answer =>
      obtain rfl : j = i := howner
      exact h.complete (hg rfl) hs
  · obtain ⟨hslot, hsession⟩ := System.frame_of_eventStep ⟨_, hs⟩ howner
    refine h.other hslot hsession ?_ ?_
    · cases event with
      | request r => exact decide_eq_false howner
      | _ => rfl
    · cases event with
      | tick j => exact decide_eq_false howner
      | _ => rfl

/-- The timer is gone, and the activation has had its indication. -/
def Notified (i : ℕ) (tr : List SystemLabel) (s : System) : Prop :=
  (s.slot i).timers = 0 ∧ indications i tr = 1

/-- The slot is at the last step, or it was there and has been notified. -/
structure Arrived (i : ℕ) (tr : List SystemLabel) (s : System) : Prop where
  steady : Steady i tr s
  active : ∃ l ∈ tr, l.activates i
  last : (s.slot i).client.connectionReadinessStep = 99 ∨ Notified i tr s

/-- Without a timer, the slot has been notified. -/
theorem Arrived.notified (h : Arrived i tr s) (h0 : (s.slot i).timers = 0) : Notified i tr s := by
  rcases h.last with h99 | hn
  · have htotal := h.steady.finished h.active h99
    exact ⟨h0, by omega⟩
  · exact hn

/-- Only another activation undoes a notification. -/
theorem Notified.step (h : Notified i tr s) (hst : Steady i (tr ++ [l]) s')
    (hact : l.activates i = false) : Notified i (tr ++ [l]) s' := by
  have htotal := hst.total
  have hcount : indications i tr ≤ indications i (tr ++ [l]) := by
    rw [indications_snoc, hact]
    exact Nat.le_add_right _ _
  rw [h.2] at hcount
  exact ⟨by omega, by omega⟩

/-- The slot waits at the last step for its timer, which notifies. -/
theorem Arrived.step (h : Arrived i tr s) (hs : SoloStep i s l s') (hact : l.activates i = false) :
    Arrived i (tr ++ [l]) s' ∧ (l.ticks i = true → Notified i (tr ++ [l]) s') := by
  have hst := h.steady.step hs
  have hactive : ∃ l' ∈ tr ++ [l], l'.activates i := by
    obtain ⟨l', hl', hl⟩ := h.active
    exact ⟨l', List.mem_append_left _ hl', hl⟩
  by_cases h0 : (s.slot i).timers = 0
  · have hn := (h.notified h0).step hst hact
    exact ⟨⟨hst, hactive, Or.inr hn⟩, fun _ => hn⟩
  -- the timer is there, so the slot is still at the last step
  have h99 : (s.slot i).client.connectionReadinessStep = 99 :=
    h.last.resolve_right fun hn => h0 hn.1
  obtain ⟨hg, hs⟩ := hs
  obtain ⟨event, indication⟩ := l
  by_cases howner : event.owner = i
  · cases event with
    | request r =>
      have hne : r.simSlot.toNat ≠ i := of_decide_eq_false hact
      exact absurd howner hne
    | tick j =>
      obtain rfl : j = i := howner
      have htotal := h.steady.total
      have htimers := (s.slot j).tick_timers
      rw [h99, if_neg (by decide)] at htimers
      obtain ⟨-, hslot, -⟩ := (h.steady.findable (Nat.pos_of_ne_zero h0)).tick hs
      have hafter : (s'.slot j).client.connectionReadinessStep = 99 := by
        rw [hslot]
        show (getWdsReadyToConnect (s.slot j).client).client.connectionReadinessStep = 99
        rw [tick_step, h99]
        rfl
      have harrived : Arrived j (tr ++ [⟨.tick j, indication⟩]) s' :=
        ⟨hst, hactive, Or.inl hafter⟩
      refine ⟨harrived, fun _ => harrived.notified ?_⟩
      rw [hslot, htimers]
      omega
    | complete j p answer =>
      obtain rfl : j = i := howner
      have hundisturbed : (s.slot j).Undisturbed answer := hg rfl
      rw [Slot.Undisturbed, if_neg h0] at hundisturbed
      obtain ⟨-, -, rfl, rfl⟩ := System.step_complete_iff.1 hs
      refine ⟨⟨hst, hactive, Or.inl ?_⟩, fun h => absurd h Bool.false_ne_true⟩
      rw [System.complete_slot_self]
      exact (ready_step_of_movesStep (hundisturbed h99)).trans h99
  · obtain ⟨hslot, -⟩ := System.frame_of_eventStep ⟨_, hs⟩ howner
    refine ⟨⟨hst, hactive, Or.inl (by rw [hslot, h99])⟩, fun htick => ?_⟩
    cases event with
    | tick j =>
      have hself : j = i := of_decide_eq_true htick
      exact absurd hself howner
    | _ => exact absurd htick Bool.false_ne_true

/-- From the last step on, up to the next activation. -/
theorem Arrived.path {tr' : List SystemLabel} (h : Arrived i tr s)
    (hp : Path (SoloStep i) s tr' s') (hact : ∀ l ∈ tr', l.activates i = false)
    (htick : (s.slot i).timers = 0 ∨ ∃ l ∈ tr', l.ticks i) : Notified i (tr ++ tr') s' := by
  induction hp generalizing tr with
  | nil s =>
    rw [List.append_nil]
    refine h.notified (htick.resolve_right ?_)
    rintro ⟨l, hl, -⟩
    exact absurd hl List.not_mem_nil
  | @cons s s₁ s₂ l tr' hs _ ih =>
    obtain ⟨hl, hact⟩ := List.forall_mem_cons.1 hact
    obtain ⟨h₁, hnotified⟩ := h.step hs hl
    rw [← List.singleton_append, ← List.append_assoc]
    refine ih h₁ hact ?_
    rcases htick with h0 | ⟨l', hl', htick⟩
    · exact Or.inl ((h.notified h0).step (h.steady.step hs) hl).1
    · rcases List.mem_cons.1 hl' with rfl | hl'
      · exact Or.inl (hnotified htick).1
      · exact Or.inr ⟨l', hl', htick⟩

end Steady

end Imsd
