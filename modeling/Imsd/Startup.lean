import Imsd.DcmReplies
import Imsd.SystemIsolation

/-!
# `qmi-ims-client.c`: start-up

The DCM server, the allocations of the libqmi clients and the timers start independently of each
other.  A `Startup` is the system together with what is set while it starts: the `wds` handle of
each slot, the context of `wds.c` and the context of `imsa.c`.  Its events come in any order:

* `wdsAllocated i`, `imsaAllocated`: an allocation completes (a failed one ends the process);
* `waitForInit`: the ten-second timer;
* `request`, `tick`, `complete`: the events of the system.

The handles and contexts an event uses, and whether they were set then, go into its label.
`usesReady_iff` says exactly in which runs none is used too early.
-/

namespace Imsd

open EventSystem

/-- A use of a handle or a context, and whether it was set: a request of a slot goes through the
slot's `wds` handle, and the requests of `imsa.c` go through its context. -/
inductive Use
  | wds (slot : ℕ) (request : Request) (handle ctx : Bool)
  | imsa (ctx : Bool)

/-- Nothing unset is used. -/
def Use.Ready : Use → Prop
  | .wds _ _ handle ctx => handle = true ∧ ctx = true
  | .imsa ctx => ctx = true

inductive StartupEvent
  | wdsAllocated (i : ℕ)
  | imsaAllocated
  | waitForInit
  | request (r : DcmRequest)
  | tick (i : ℕ)
  | complete (i : ℕ) (p : Pending) (answer : Answer)

/-- An event as it happened, with the uses of handles and contexts. -/
structure StartupLabel where
  event : StartupEvent
  uses : List Use

/-- The system, and which handles and contexts are set. -/
structure Startup where
  system : System
  wds : ℕ → Bool
  wdsCtx : Bool
  imsaCtx : Bool

namespace Startup

/-- Requests of slot `i`, issued now. -/
def issue (s : Startup) (i : ℕ) (requests : List Request) : List Use :=
  requests.map fun request => .wds i request (s.wds i) s.wdsCtx

/-- `wds_allocate_client_ready`, with `wds_init_context`. -/
def wdsAllocateClientReady (s : Startup) (i : ℕ) : Startup :=
  { s with wds := Function.update s.wds i true, wdsCtx := true }

/-- `imsa_allocate_client_ready`, with `imsa_start`. -/
def imsaAllocateClientReady (s : Startup) : Startup := { s with imsaCtx := true }

/-- `get_ims_services_state`. -/
def getImsServicesState (s : Startup) : List Use := [.imsa s.imsaCtx]

/-- `get_registration_state`. -/
def getRegistrationState (s : Startup) : List Use := [.imsa s.imsaCtx]

/-- `imsa_attempt_bind`. -/
def imsaAttemptBind (s : Startup) : List Use := [.imsa s.imsaCtx]

/-- One event, if it can happen.  A client is allocated once. -/
def step (s : Startup) : StartupEvent → Option (Startup × StartupLabel)
  | .wdsAllocated i =>
    if i < maxSimSlots ∧ s.wds i = false then
      some (s.wdsAllocateClientReady i, ⟨.wdsAllocated i, []⟩)
    else none
  | .imsaAllocated =>
    if s.imsaCtx = false then
      some (s.imsaAllocateClientReady,
        ⟨.imsaAllocated, s.imsaAllocateClientReady.imsaAttemptBind⟩)
    else none
  | .waitForInit => some (s, ⟨.waitForInit, s.getImsServicesState ++ s.getRegistrationState⟩)
  | .request r => some ({ s with system := s.system.receive r.datagram }, ⟨.request r, []⟩)
  | .tick i => (s.system.step (.tick i)).map fun (t, _) =>
    ({ s with system := t },
      ⟨.tick i, s.issue i (getWdsReadyToConnect (s.system.slot i).client).issued⟩)
  | .complete i p answer => (s.system.step (.complete i p answer)).map fun (t, _) =>
    ({ s with system := t },
      ⟨.complete i p answer, s.issue i (ready (s.system.slot i).client answer).issued⟩)

/-- The step relation. -/
def Step (s : Startup) (l : StartupLabel) (s' : Startup) : Prop := s.step l.event = some (s', l)

/-- Nothing is set, and the system has not started. -/
def Initial (s : Startup) : Prop :=
  s.system.Initial ∧ (∀ i, s.wds i = false) ∧ s.wdsCtx = false ∧ s.imsaCtx = false

/-! ### What an event does -/

variable {s s' : Startup} {uses : List Use} {i : ℕ}

theorem step_wdsAllocated (h : s.Step ⟨.wdsAllocated i, uses⟩ s') :
    s' = s.wdsAllocateClientReady i ∧ uses = [] := by
  unfold Step step at h
  dsimp only at h
  split_ifs at h
  cases h
  exact ⟨rfl, rfl⟩

theorem step_imsaAllocated (h : s.Step ⟨.imsaAllocated, uses⟩ s') :
    s' = s.imsaAllocateClientReady ∧ uses = [.imsa true] := by
  unfold Step step at h
  dsimp only at h
  split_ifs at h
  cases h
  exact ⟨rfl, rfl⟩

theorem step_tick (h : s.Step ⟨.tick i, uses⟩ s') :
    ∃ t, s.system.EventStep (.tick i) t ∧ s' = { s with system := t } ∧
      uses = s.issue i (getWdsReadyToConnect (s.system.slot i).client).issued := by
  obtain ⟨⟨t, l⟩, ht, h⟩ := Option.map_eq_some_iff.1 h
  cases h
  exact ⟨t, System.eventStep_of_step_eq ht, rfl, rfl⟩

theorem step_of_eventStep {t : System} (h : s.system.EventStep (.tick i) t) :
    s.Step ⟨.tick i, s.issue i (getWdsReadyToConnect (s.system.slot i).client).issued⟩
      { s with system := t } := by
  obtain ⟨indication, h⟩ := h
  exact Option.map_eq_some_iff.2 ⟨_, h, rfl⟩

theorem step_complete {p : Pending} {answer : Answer}
    (h : s.Step ⟨.complete i p answer, uses⟩ s') :
    ∃ t, s.system.EventStep (.complete i p answer) t ∧ s' = { s with system := t } ∧
      uses = s.issue i (ready (s.system.slot i).client answer).issued := by
  obtain ⟨⟨t, l⟩, ht, h⟩ := Option.map_eq_some_iff.1 h
  cases h
  exact ⟨t, System.eventStep_of_step_eq ht, rfl, rfl⟩

theorem event_of_step_eq {e : StartupEvent} {l : StartupLabel} (h : s.step e = some (s', l)) :
    l.event = e := by
  cases e with
  | wdsAllocated i | imsaAllocated =>
    dsimp only [step] at h
    split_ifs at h
    cases h
    rfl
  | waitForInit | request r =>
    cases h
    rfl
  | tick i | complete i p answer =>
    obtain ⟨_, -, h⟩ := Option.map_eq_some_iff.1 h
    cases h
    rfl

/-- The context of `imsa.c` is set by its allocation only. -/
theorem imsaCtx_of_step {e : StartupEvent} (h : s.Step ⟨e, uses⟩ s') (he : e ≠ .imsaAllocated) :
    s'.imsaCtx = s.imsaCtx := by
  cases e with
  | wdsAllocated i =>
    obtain ⟨rfl, -⟩ := step_wdsAllocated h
    rfl
  | imsaAllocated => exact absurd rfl he
  | waitForInit | request r =>
    cases h
    rfl
  | tick i =>
    obtain ⟨t, -, rfl, -⟩ := step_tick h
    rfl
  | complete i p answer =>
    obtain ⟨t, -, rfl, -⟩ := step_complete h
    rfl

/-- What is issued through a handle that is set, in a context that is set, is ready. -/
theorem ready_issue (hwds : s.wds i = true) (hctx : s.wdsCtx = true) (requests : List Request) :
    ∀ u ∈ s.issue i requests, u.Ready := by
  intro u hu
  obtain ⟨request, -, rfl⟩ := List.mem_map.1 hu
  exact ⟨hwds, hctx⟩

end Startup

/-! ### Slots that have not taken a tick -/

/-- A slot no timer of which has been called. -/
def Slot.Unstarted (t : Slot) : Prop :=
  t.pending = [] ∧ (0 < t.timers → t.client.connectionReadinessStep = 0)

theorem Slot.Unstarted.activate {t : Slot} (h : t.Unstarted) (simSlot : UInt32) :
    (t.activate simSlot).Unstarted := ⟨h.1, fun _ => rfl⟩

/-- A request leaves a slot alone or activates it. -/
theorem receive_slot (r : DcmRequest) (s : System) (i : ℕ) :
    (s.receive r.datagram).slot i = s.slot i ∨
      ∃ simSlot, (s.receive r.datagram).slot i = (s.slot i).activate simSlot := by
  by_cases h : r.message.header.msgid.toNat = imsDcmPdpActivate
  · rw [receive_pdpActivate h, System.requestNetworkStart]
    generalize UInt32.ofNat (simSlotOf r.message.tlvs) = simSlot
    by_cases hi : i = simSlot.toNat
    · subst hi
      exact Or.inr ⟨simSlot, by rw [System.setSlot_slot_self]⟩
    · exact Or.inl (by rw [System.setSlot_slot_of_ne _ _ hi])
  · exact Or.inl (congrFun (frame_of_ne_pdpActivate h s).2 i)

/-! ### Runs -/

/-- Every event of a run uses only what is set. -/
def UsesReady (tr : List StartupLabel) : Prop := ∀ l ∈ tr, ∀ u ∈ l.uses, u.Ready

/-- What an event needs of the events before it. -/
def Prepared (past : List StartupLabel) : StartupEvent → Prop
  | .tick i => ∃ l ∈ past, l.event = .wdsAllocated i
  | .waitForInit => ∃ l ∈ past, l.event = .imsaAllocated
  | _ => True

/-- Every event of a run comes after what it needs. -/
def AllPrepared (tr : List StartupLabel) : Prop :=
  ∀ pre l post, tr = pre ++ l :: post → Prepared pre l.event

theorem usesReady_snoc {tr : List StartupLabel} {l : StartupLabel} :
    UsesReady (tr ++ [l]) ↔ UsesReady tr ∧ ∀ u ∈ l.uses, u.Ready := by
  simp [UsesReady, or_imp, forall_and]

theorem allPrepared_snoc {tr : List StartupLabel} {l : StartupLabel} :
    AllPrepared (tr ++ [l]) ↔ AllPrepared tr ∧ Prepared tr l.event := by
  constructor
  · intro h
    refine ⟨fun pre x post htr => ?_, h tr l [] rfl⟩
    exact h pre x (post ++ [l]) (by rw [htr]; simp)
  · rintro ⟨htr, hl⟩ pre x post h
    rcases List.eq_nil_or_concat post with rfl | ⟨post', y, rfl⟩
    · obtain ⟨rfl, hx⟩ := List.append_inj' h rfl
      cases hx
      exact hl
    · rw [List.concat_eq_append, ← List.cons_append, ← List.append_assoc] at h
      obtain ⟨rfl, -⟩ := List.append_inj' h rfl
      exact htr pre x post' rfl

/-- What a run has set, and how far its slots have come. -/
structure StartupInv (tr : List StartupLabel) (s : Startup) : Prop where
  wds : ∀ i, s.wds i = true ↔ ∃ l ∈ tr, l.event = .wdsAllocated i
  wdsCtx : ∀ i, s.wds i = true → s.wdsCtx = true
  imsaCtx : s.imsaCtx = true ↔ ∃ l ∈ tr, l.event = .imsaAllocated
  ready_iff : UsesReady tr ↔ AllPrepared tr
  unstarted : UsesReady tr → ∀ i, s.wds i = false → (s.system.slot i).Unstarted

namespace StartupInv

variable {tr : List StartupLabel} {s s' : Startup} {event : StartupEvent} {uses : List Use} {i : ℕ}

theorem exists_snoc {p : StartupLabel → Prop} {l : StartupLabel} :
    (∃ x ∈ tr ++ [l], p x) ↔ (∃ x ∈ tr, p x) ∨ p l := by
  simp [or_and_right, exists_or]

/-- What has to be shown for one event. -/
theorem snoc (h : StartupInv tr s)
    (hwds : ∀ i, s'.wds i = true ↔ s.wds i = true ∨ event = .wdsAllocated i)
    (hctx : ∀ i, s'.wds i = true → s'.wdsCtx = true)
    (himsa : s'.imsaCtx = true ↔ s.imsaCtx = true ∨ event = .imsaAllocated)
    (hready : UsesReady tr → ((∀ u ∈ uses, u.Ready) ↔ Prepared tr event))
    (hslots : UsesReady tr → (∀ u ∈ uses, u.Ready) → ∀ i, s'.wds i = false →
      (s'.system.slot i).Unstarted) : StartupInv (tr ++ [⟨event, uses⟩]) s' where
  wds i := by rw [hwds, h.wds, exists_snoc]
  wdsCtx := hctx
  imsaCtx := by rw [himsa, h.imsaCtx, exists_snoc]
  ready_iff := by
    rw [usesReady_snoc, allPrepared_snoc, ← h.ready_iff]
    constructor
    · rintro ⟨htr, hu⟩
      exact ⟨htr, (hready htr).1 hu⟩
    · rintro ⟨htr, hp⟩
      exact ⟨htr, (hready htr).2 hp⟩
  unstarted := by
    intro hall
    obtain ⟨htr, hu⟩ := usesReady_snoc.1 hall
    exact hslots htr hu

/-- An event of slot `i`, whose handle is set. -/
theorem snoc_slot (h : StartupInv tr s) {e : SystemEvent} {t : System} {requests : List Request}
    (he : s.system.EventStep e t) (howner : e.owner = i) (hwds : s.wds i = true)
    (hevent : ∀ j, event ≠ .wdsAllocated j) (hevent' : event ≠ .imsaAllocated)
    (hprepared : Prepared tr event) :
    StartupInv (tr ++ [⟨event, s.issue i requests⟩]) { s with system := t } := by
  have hready := Startup.ready_issue hwds (h.wdsCtx i hwds) requests
  refine h.snoc (fun j => by simp [hevent j]) h.wdsCtx (by simp [hevent'])
    (fun _ => iff_of_true hready hprepared) fun htr _ j hj => ?_
  -- the slots without a handle are not concerned
  have hne : e.owner ≠ j := by
    rintro rfl
    rw [howner, hwds] at hj
    exact absurd hj (by simp)
  rw [(System.frame_of_eventStep he hne).1]
  exact h.unstarted htr j hj

/-- **One event.** -/
theorem step (h : StartupInv tr s) (hs : s.Step ⟨event, uses⟩ s') :
    StartupInv (tr ++ [⟨event, uses⟩]) s' := by
  cases event with
  | wdsAllocated i =>
    obtain ⟨rfl, rfl⟩ := Startup.step_wdsAllocated hs
    refine h.snoc (fun j => ?_) (fun _ _ => rfl) (by simp [Startup.wdsAllocateClientReady])
      (fun _ => by simp [Prepared]) fun htr _ j hj => ?_
    · by_cases hj : j = i
      · simp [Startup.wdsAllocateClientReady, hj]
      · simp [Startup.wdsAllocateClientReady, hj, Ne.symm hj]
    · have hne : j ≠ i := by
        rintro rfl
        simp [Startup.wdsAllocateClientReady] at hj
      exact h.unstarted htr j (by simpa [Startup.wdsAllocateClientReady, hne] using hj)
  | imsaAllocated =>
    obtain ⟨rfl, rfl⟩ := Startup.step_imsaAllocated hs
    refine h.snoc (fun j => by simp [Startup.imsaAllocateClientReady]) h.wdsCtx
      (by simp [Startup.imsaAllocateClientReady]) (fun _ => ?_) fun htr _ => h.unstarted htr
    simp [Prepared, Use.Ready]
  | waitForInit =>
    cases hs
    refine h.snoc (fun j => by simp) h.wdsCtx (by simp) (fun _ => ?_) fun htr _ => h.unstarted htr
    rw [Prepared, ← h.imsaCtx]
    simp [Startup.getImsServicesState, Startup.getRegistrationState, Use.Ready]
  | request r =>
    cases hs
    refine h.snoc (fun j => by simp) h.wdsCtx (by simp) (fun _ => by simp [Prepared])
      fun htr _ j hj => ?_
    rcases receive_slot r s.system j with hslot | ⟨simSlot, hslot⟩
    · rw [hslot]
      exact h.unstarted htr j hj
    · rw [hslot]
      exact (h.unstarted htr j hj).activate simSlot
  | tick i =>
    obtain ⟨t, ht, rfl, rfl⟩ := Startup.step_tick hs
    cases hwds : s.wds i with
    | true =>
      exact h.snoc_slot ht rfl hwds (by simp) (by simp) ((h.wds i).1 hwds)
    | false =>
      -- the first call of a timer asks for the profiles, through a handle that is not set
      have hunready : UsesReady tr → ¬ ∀ u ∈ s.issue i
          (getWdsReadyToConnect (s.system.slot i).client).issued, u.Ready := by
        intro htr hall
        have hstep := (h.unstarted htr i hwds).2 (System.eventStep_tick_iff.1 ht).2.1.2
        have hissued : .getProfileList qmiWdsProfileType3gpp ∈
            (getWdsReadyToConnect (s.system.slot i).client).issued := by
          rw [getWdsReadyToConnect, hstep]
          exact List.mem_cons_self
        have hready := hall _ (List.mem_map.2 ⟨_, hissued, rfl⟩)
        rw [Use.Ready, hwds] at hready
        exact absurd hready.1 (by simp)
      refine h.snoc (fun j => by simp) h.wdsCtx (by simp) (fun htr => ?_)
        fun htr hall => absurd hall (hunready htr)
      rw [Prepared, ← h.wds i, hwds]
      exact iff_of_false (hunready htr) (by simp)
  | complete i p answer =>
    obtain ⟨t, ht, rfl, rfl⟩ := Startup.step_complete hs
    cases hwds : s.wds i with
    | true => exact h.snoc_slot ht rfl hwds (by simp) (by simp) trivial
    | false =>
      -- such a slot has nothing pending
      have hpending : ¬ UsesReady tr := by
        intro htr
        have hp := (System.eventStep_complete_iff.1 ht).2.1.2.1
        rw [(h.unstarted htr i hwds).1] at hp
        exact absurd hp List.not_mem_nil
      exact h.snoc (fun j => by simp) h.wdsCtx (by simp) (fun htr => absurd htr hpending)
        fun htr => absurd htr hpending

/-- **A whole run.** -/
theorem of_run (hr : Run Startup.Initial Startup.Step unguarded tr s) : StartupInv tr s := by
  refine Run.inv StartupInv ?_ (fun tr s l s' _ h _ hs => h.step hs) hr
  rintro s ⟨⟨-, hidle, -⟩, hwds, hctx, himsa⟩
  refine ⟨fun i => by simp [hwds i], fun i hi => by simp [hwds i] at hi, by simp [himsa], ?_, ?_⟩
  · refine iff_of_true (fun l hl => absurd hl List.not_mem_nil) fun pre l post h => ?_
    simp at h
  · rintro - i -
    obtain ⟨h0, hp, -⟩ := hidle i
    exact ⟨hp, fun h => by omega⟩

end StartupInv

/-- **Nothing is used before it is set if and only if no timer of a slot is called before the
slot's client has been allocated, and `wait_for_init` not before `imsa.c` has its context.** -/
theorem usesReady_iff {tr : List StartupLabel} {s : Startup}
    (hr : Run Startup.Initial Startup.Step unguarded tr s) : UsesReady tr ↔ AllPrepared tr :=
  (StartupInv.of_run hr).ready_iff

/-! ### Orders that go wrong, and one that does not -/

/-- The process before its first event. -/
def Startup.fresh : Startup :=
  ⟨System.freshSystem, fun _ => false, false, false⟩

theorem Startup.initial_fresh : Startup.fresh.Initial :=
  ⟨⟨rfl, fun _ => ⟨rfl, rfl, rfl, rfl⟩, rfl⟩, fun _ => rfl, rfl, rfl⟩

theorem toNat_zero_lt_maxSimSlots : (0 : UInt32).toNat < maxSimSlots := by decide

/-- A PDP-activate request for the first slot. -/
def firstActivation : DcmRequest :=
  (activateRequest samplePeer sqFamily_samplePeer 1 1 0 1 toNat_zero_lt_maxSimSlots).toRequest

theorem receive_firstActivation (s : System) :
    (s.receive firstActivation.datagram).slot 0 = (s.slot 0).activate 0 := by
  have hslot : simSlotOf firstActivation.message.tlvs = 0 := by decide
  rw [receive_pdpActivate rfl, System.requestNetworkStart, hslot]
  exact System.setSlot_slot_self _ 0 _

/-- The request, and the first call of the timer that it adds. -/
theorem run_firstActivation {tr : List StartupLabel} {s : Startup}
    (hr : Run Startup.Initial Startup.Step unguarded tr s) (hsystem : s.system.crashed = false)
    (hslot : (s.system.slot 0).crashed = false) :
    ∃ s', Run Startup.Initial Startup.Step unguarded (tr ++ [⟨.request firstActivation, []⟩] ++
      [⟨.tick 0, [.wds 0 (.getProfileList 0) (s.wds 0) s.wdsCtx]⟩]) s' := by
  have hrequest : s.Step ⟨.request firstActivation, []⟩
      { s with system := s.system.receive firstActivation.datagram } := rfl
  have hactivated := receive_firstActivation s.system
  have htick := Startup.step_of_eventStep
    (s := { s with system := s.system.receive firstActivation.datagram })
    (System.eventStep_tick_iff.2
      ⟨hsystem, by rw [hactivated]; exact ⟨hslot, Nat.succ_pos _⟩, rfl⟩)
  have hissued : (getWdsReadyToConnect
      ((s.system.receive firstActivation.datagram).slot 0).client).issued =
      [.getProfileList 0] := by
    rw [hactivated]
    rfl
  rw [hissued] at htick
  exact ⟨_, (hr.snoc trivial hrequest).snoc trivial htick⟩

/-- A request whose timer is called before the allocation of its slot's client, and a
`wait_for_init` before that of the IMSA client. -/
theorem not_usesReady :
    (¬ ∀ tr s, Run Startup.Initial Startup.Step unguarded tr s → ∀ l ∈ tr,
      ∀ i request handle ctx, .wds i request handle ctx ∈ l.uses → handle = true ∧ ctx = true) ∧
    ¬ ∀ tr s, Run Startup.Initial Startup.Step unguarded tr s → ∀ l ∈ tr,
      ∀ ctx, .imsa ctx ∈ l.uses → ctx = true := by
  have hstart : Run Startup.Initial Startup.Step unguarded [] Startup.fresh :=
    .start Startup.initial_fresh
  constructor
  · intro h
    obtain ⟨s, hr⟩ := run_firstActivation hstart rfl rfl
    have hready := h _ s hr _ (List.mem_append_right _ List.mem_cons_self) _ _ _ _
      List.mem_cons_self
    exact absurd hready.1 (by simp [Startup.fresh])
  · intro h
    have hwait : Startup.fresh.Step ⟨.waitForInit, [.imsa false, .imsa false]⟩ Startup.fresh := rfl
    have hready := h _ _ (hstart.snoc trivial hwait) _ List.mem_cons_self _ List.mem_cons_self
    exact absurd hready (by simp)

/-- The same request after the allocation. -/
theorem usesReady_allocated_first : ∃ tr s,
    Run Startup.Initial Startup.Step unguarded tr s ∧ (∃ l ∈ tr, l.event = .tick 0) ∧
      UsesReady tr := by
  have hallocated : Startup.fresh.Step ⟨.wdsAllocated 0, []⟩
      (Startup.fresh.wdsAllocateClientReady 0) := rfl
  obtain ⟨s, hr⟩ := run_firstActivation
    ((Run.start Startup.initial_fresh).snoc trivial hallocated) rfl rfl
  refine ⟨_, s, hr, ⟨_, List.mem_append_right _ List.mem_cons_self, rfl⟩, (usesReady_iff hr).2 ?_⟩
  refine allPrepared_snoc.2 ⟨allPrepared_snoc.2 ⟨allPrepared_snoc.2 ⟨?_, trivial⟩, trivial⟩, ?_⟩
  · intro pre l post h
    simp at h
  · exact ⟨_, List.mem_append_left _ List.mem_cons_self, rfl⟩

end Imsd
