import Imsd.SystemIndications
import Imsd.WdsComesUp

/-!
# From the request to the indication

A peer asks for a slot to be activated and waits for the indication of its address.  `comes_up` is
about the slot alone, and about the call of `notify_pdp_ipaddress_change`; here it is the process.

On the slot the modem cooperates and the ticks wait for what is in flight (`ServesWell`), and nobody
activates it again.  The other slot goes on as it likes: requests, ticks and completions of any
outcome that the process survives, at any time.  Then the slot has events left until the server has
built its indication, it builds one only, and the slot has had 14 ticks at most
(`indication_comes`).

A run is looked at through its slot: `Served` keeps the cooperative run of the slot that it is
(`Served.run`), and that the server can find the session (`Served.findable`).
-/

namespace Imsd

open EventSystem

/-! ### Cooperation within the system -/

/-- The condition on an event, as far as slot `i` is concerned. -/
def ServesWell (i : ℕ) (s : System) : SystemEvent → Prop
  | .request r => r.simSlot.toNat ≠ i
  | .tick j => j = i → (s.slot i).pending = []
  | .complete j _ answer =>
    if j = i then answer.granted = true else answer.survived (s.slot j).client = true

instance (i : ℕ) (s : System) (e : SystemEvent) : Decidable (ServesWell i s e) :=
  match e with
  | .request r => inferInstanceAs (Decidable (r.simSlot.toNat ≠ i))
  | .tick j => inferInstanceAs (Decidable (j = i → (s.slot i).pending = []))
  | .complete j _ answer => inferInstanceAs (Decidable
    (if j = i then answer.granted = true else answer.survived (s.slot j).client = true))

/-- A step that meets the condition. -/
def ServingStep (i : ℕ) (s : System) (l : SystemLabel) (s' : System) : Prop :=
  ServesWell i s l.event ∧ s.Step l s'

/-- The first request for slot `i` has just come; the rest of the process, which is alive, is in
any state. -/
def FirstRequest (i : ℕ) (s : System) : Prop :=
  ∃ s₀ r, (s₀.slot i).Idle ∧ s₀.crashed = false ∧ r.simSlot.toNat = i ∧ s = System.activated s₀ r

/-- The event has made the server build an indication for slot `i`. -/
def SystemLabel.indicates (i : ℕ) (l : SystemLabel) : Bool := l.ticks i && l.indication.isSome

/-- The number of the profiles that were listed for slot `i`. -/
def listedOn (i : ℕ) (tr : List SystemLabel) : ℕ :=
  ((tr.filterMap fun l => System.slotEvent i l.event).map fun e =>
    (e.answer?.map fun a => a.listed.length).getD 0).sum

/-! ### The run of the slot -/

section ServingStep

variable {i : ℕ} {s s' : System} {l : SystemLabel}

/-- **A serving event of the slot is a cooperative step of it**, which notifies if the server builds
its indication. -/
theorem exists_cooperativeStep (h : Findable i s) (hs : ServingStep i s l s')
    (howner : l.event.owner = i) :
    Findable i s' ∧ ∃ l', CooperativeStep (s.slot i) l' (s'.slot i) ∧
      System.slotEvent i l.event = some l'.event ∧ l'.notified.isSome = l.indicates i := by
  obtain ⟨hg, hs⟩ := hs
  obtain ⟨event, indication⟩ := l
  cases event with
  | request r => exact absurd howner hg
  | tick j =>
    obtain rfl : j = i := howner
    obtain ⟨hpos, hslot, hfind, hind⟩ := h.tick hs
    refine ⟨hfind, ⟨.tick, _, _⟩, ⟨fun a ha => ?_, hg rfl,
      Slot.step_tick_iff.2 ⟨hpos.1, hpos.2, hslot, rfl, rfl⟩⟩, if_pos rfl, ?_⟩
    · cases ha
    · simp only [SystemLabel.indicates, SystemLabel.ticks, decide_true, Bool.true_and, hind]
      rw [tick_notified]
      split_ifs with h99
      · exact (decide_eq_true h99).symm
      · exact (decide_eq_false h99).symm
  | complete j p a =>
    obtain rfl : j = i := howner
    obtain ⟨-, ⟨halive, hp⟩, rfl, rfl⟩ := System.step_complete_iff.1 hs
    have hgranted : a.granted = true := (if_pos rfl).mp hg
    have hslot := s.complete_slot_self j p a
    have hid : ((s.slot j).complete p a).client.slotId = (s.slot j).client.slotId :=
      ready_slotId _ _
    refine ⟨⟨h.lt, ?_⟩, ⟨.complete p a, _, none⟩, ⟨fun a' ha' => ?_,
      foreseen_of_granted hgranted, Slot.step_complete_iff.2 ⟨halive, hp, hslot, rfl, rfl⟩⟩,
      if_pos rfl, rfl⟩
    · rw [hslot, hid, System.complete_server, h.slotId]
    · obtain rfl : a = a' := Option.some.inj ha'
      exact hgranted

/-- An event of another slot is survived. -/
theorem ServingStep.survivedStep (h : ServingStep i s l s') (howner : l.event.owner ≠ i) :
    s.SurvivedStep l.event s' := by
  refine ⟨?_, l.indication, h.2⟩
  have hg := h.1
  cases hevent : l.event with
  | complete j p a =>
    rw [hevent] at hg howner
    exact (if_neg howner).mp hg
  | _ => trivial

/-- An event of the slot ends the process if it ends the slot. -/
theorem crashed_eq (hs : s.Step l s') (howner : l.event.owner = i) (halive : s.crashed = false)
    (hslot : (s.slot i).crashed = false) : s'.crashed = (s'.slot i).crashed := by
  obtain ⟨event, indication⟩ := l
  cases event with
  | request r =>
    obtain rfl : r.simSlot.toNat = i := howner
    obtain ⟨-, rfl, -⟩ := System.step_request_iff.1 hs
    rw [System.activated_slot_self]
    exact halive.trans hslot.symm
  | tick j =>
    obtain rfl : j = i := howner
    obtain ⟨-, -, hnotify⟩ := System.step_tick_iff.1 hs
    obtain ⟨rfl, -⟩ := Prod.ext_iff.1 hnotify
    rw [System.notify_slot, System.setSlot_slot_self, System.notify_crashed]
    exact halive.trans hslot.symm
  | complete j p a =>
    obtain rfl : j = i := howner
    obtain ⟨-, -, rfl, -⟩ := System.step_complete_iff.1 hs
    rw [System.complete_slot_self]
    rfl

/-- A cooperative step of the slot can happen within the system. -/
theorem exists_servingStep (halive : s.crashed = false) {l' : Label} {t : Slot}
    (hs : CooperativeStep (s.slot i) l' t) :
    ∃ l s', l.event.owner = i ∧ ServingStep i s l s' := by
  obtain ⟨hgranted, hs⟩ := hs
  have hslot := Slot.alive_of_step hs.2
  rcases hs.cases with ⟨rfl, hp, hpos, -⟩ | ⟨p, a, rfl, hmem, ha, -, -⟩
  · exact ⟨⟨.tick i, _⟩, _, rfl, fun _ => hp,
      System.step_tick_iff.2 ⟨halive, ⟨hslot, hpos⟩, rfl⟩⟩
  · exact ⟨⟨.complete i p a, none⟩, _, rfl, (if_pos rfl).mpr (hgranted a rfl),
      System.step_complete_iff.2 ⟨halive, ⟨hslot, hmem, ha⟩, rfl, rfl⟩⟩

end ServingStep

/-- The system after the events `tr`, as slot `i` sees it. -/
structure Served (i : ℕ) (tr : List SystemLabel) (s : System) : Prop where
  alive : s.crashed = false
  findable : Findable i s
  run : ∃ tr', Run Activated CooperativeStep unguarded tr' (s.slot i) ∧
    tr'.map Label.event = tr.filterMap (fun l => System.slotEvent i l.event) ∧
    tr'.countP (·.notified.isSome) = tr.countP (·.indicates i)

namespace Served

variable {i : ℕ} {tr : List SystemLabel} {s s' : System} {l : SystemLabel}

theorem of_firstRequest (h : FirstRequest i s) : Served i [] s := by
  obtain ⟨s₀, r, hidle, halive, rfl, rfl⟩ := h
  have hslot := System.activated_slot_self s₀ r
  have hsession := System.activated_session_self s₀ r
  refine ⟨halive, ⟨r.simSlot_lt, ?_⟩, [], .start ⟨_, r.simSlot, hidle, hslot⟩, rfl, rfl⟩
  rw [hslot]
  exact congrArg DcmPdpSession.slotId hsession

/-- **What one event preserves.** -/
theorem step (h : Served i tr s) (hs : ServingStep i s l s') : Served i (tr ++ [l]) s' := by
  obtain ⟨tr', hr, hevents, hcount⟩ := h.run
  by_cases howner : l.event.owner = i
  · obtain ⟨hfind, l', hs', hevent, hnotified⟩ := exists_cooperativeStep h.findable hs howner
    have hrun := hr.snoc trivial hs'
    refine ⟨?_, hfind, tr' ++ [l'], hrun, ?_, ?_⟩
    · exact (crashed_eq hs.2 howner h.alive (Cooperates.of_run hr).alive).trans
        (Cooperates.of_run hrun).alive
    · simp [hevents, hevent]
    · rw [List.countP_append, List.countP_append, hcount, List.countP_singleton,
        List.countP_singleton, hnotified]
  · obtain ⟨hslot, hsession⟩ := System.frame_of_eventStep ⟨_, hs.2⟩ howner
    have hindicates : l.indicates i = false := by
      obtain ⟨event, indication⟩ := l
      cases event with
      | tick j => simp [SystemLabel.indicates, SystemLabel.ticks, show j ≠ i from howner]
      | _ => rfl
    refine ⟨hs.survivedStep howner |>.alive,
      ⟨h.findable.lt, by rw [hslot, hsession, h.findable.slotId]⟩, tr', ?_, ?_, ?_⟩
    · rw [hslot]
      exact hr
    · rw [hevents, List.filterMap_append]
      simp [System.slotEvent_of_ne howner]
    · rw [hcount, List.countP_append]
      simp [hindicates]

/-- **What a whole run preserves.** -/
theorem of_run (h : Run (FirstRequest i) (ServingStep i) unguarded tr s) : Served i tr s :=
  h.inv (Served i) (fun _ => of_firstRequest) fun _ _ _ _ _ h _ hs => h.step hs

end Served

section Counts

variable {i : ℕ} {tr : List SystemLabel} {tr' : List Label}

/-- The events of the slot, counted in the run of the slot and in the run of the system. -/
theorem countP_isTick_eq
    (h : tr'.map Label.event = tr.filterMap fun l => System.slotEvent i l.event) :
    tr'.countP Label.isTick = tr.countP (·.ticks i) := by
  have hcount := congrArg (List.countP fun e => Label.isTick ⟨e, 0, none⟩) h
  rw [List.countP_map, List.countP_filterMap] at hcount
  refine hcount.trans (congrArg (fun q => tr.countP q) (funext fun l => ?_))
  obtain ⟨event, indication⟩ := l
  cases event with
  | request r =>
    simp only [System.slotEvent, SystemLabel.ticks]
    split_ifs <;> rfl
  | tick j =>
    simp only [System.slotEvent, SystemLabel.ticks]
    split_ifs with hj <;> simp [hj, Label.isTick]
  | complete j p a =>
    simp only [System.slotEvent, SystemLabel.ticks]
    split_ifs <;> rfl

theorem isSome_slotEvent (e : SystemEvent) :
    (System.slotEvent i e).isSome = decide (e.owner = i) := by
  cases e <;> simp only [System.slotEvent, SystemEvent.owner] <;> split_ifs with h <;> simp [h]

theorem length_eq_countP
    (h : tr'.map Label.event = tr.filterMap fun l => System.slotEvent i l.event) :
    tr'.length = tr.countP fun l => l.event.owner = i := by
  have hlength := congrArg List.length h
  rw [List.length_map, List.length_filterMap_eq_countP] at hlength
  refine hlength.trans (congrArg (fun q => tr.countP q) (funext fun l => ?_))
  exact isSome_slotEvent l.event

theorem listed_eq_listedOn
    (h : tr'.map Label.event = tr.filterMap fun l => System.slotEvent i l.event) :
    listed tr' = listedOn i tr := by
  rw [listedOn, ← h, List.map_map]
  rfl

end Counts

/-- **The indication comes.** -/
theorem indication_comes {i : ℕ} {tr : List SystemLabel} {s : System}
    (h : Run (FirstRequest i) (ServingStep i) unguarded tr s) :
    ((∃ l ∈ tr, l.indicates i) ↔ ¬ ∃ l s', l.event.owner = i ∧ ServingStep i s l s') ∧
      tr.countP (·.indicates i) ≤ 1 ∧ tr.countP (·.ticks i) ≤ 14 ∧
      tr.countP (fun l => l.event.owner = i) ≤ 28 + listedOn i tr := by
  have hserved := Served.of_run h
  obtain ⟨tr', hr, hevents, hcount⟩ := hserved.run
  have hcomes := Cooperates.of_run hr
  have honce := hcomes.bringUp.once
  refine ⟨?_, ?_, ?_, ?_⟩
  · have hstuck : (∃ l s', l.event.owner = i ∧ ServingStep i s l s') ↔
        ∃ l t, CooperativeStep (s.slot i) l t := by
      constructor
      · rintro ⟨l, s', howner, hs⟩
        obtain ⟨-, l', hs', -⟩ := exists_cooperativeStep hserved.findable hs howner
        exact ⟨l', _, hs'⟩
      · rintro ⟨l, t, hs⟩
        exact exists_servingStep hserved.alive hs
    rw [hstuck, ← hcomes.notified_iff, ← List.countP_pos_iff, ← List.countP_pos_iff, hcount]
  · omega
  · rw [← countP_isTick_eq hevents]
    exact hcomes.ticks_le
  · rw [← length_eq_countP hevents, ← listed_eq_listedOn hevents]
    exact hcomes.length_le

/-- A bring-up of the first slot, while the second one is activated and makes its first request. -/
theorem indication_comes_bringUp :
    ∃ tr s, Run (FirstRequest 0) (ServingStep 0) unguarded tr s ∧ (∃ l ∈ tr, l.ticks 1) ∧
      ¬ ∃ l s', l.event.owner = 0 ∧ ServingStep 0 s l s' := by
  have h : (simulate System.step (fun _ s l => decide (ServesWell 0 s l.event)) []
      (System.freshSystem.activated firstSlotRequest) ([.request secondSlotRequest, .tick 1] ++
        ((bringUp (.ok (some 7))).tail ++ [SlotEvent.tick]).filterMap (SlotEvent.onSlot 0))).any
      fun q => q.1.any (·.indicates 0) && q.1.any (·.ticks 1) := by
    decide +kernel
  obtain ⟨q, hq, h⟩ := (Option.any_eq_true _ _).1 h
  obtain ⟨hindicates, hother⟩ := Bool.and_eq_true_iff.1 h
  have hstart : Run (FirstRequest 0) (ServingStep 0) unguarded []
      (System.freshSystem.activated firstSlotRequest) :=
    .start ⟨System.freshSystem, firstSlotRequest, ⟨rfl, rfl, rfl, rfl⟩, rfl, rfl, rfl⟩
  have hrun : Run (FirstRequest 0) (ServingStep 0) unguarded q.1 q.2 :=
    hstart.simulate hq fun _ _ _ _ _ hs hg =>
      ⟨trivial, of_decide_eq_true hg, System.step_of_step_eq hs⟩
  exact ⟨q.1, q.2, hrun, List.any_eq_true.1 hother,
    (indication_comes hrun).1.1 (List.any_eq_true.1 hindicates)⟩

end Imsd
