import Imsd.Lib.Cascade
import Imsd.QmiImsClientProcess

/-!
# Start-ups

What holds in every start-up of `qmi-ims-client.c`: any outcomes, any order of the completions,
`wait_for_init` and the indications for `pdc.c` at any time, and any requests, timers and answers
of the slots besides.  `StartUp.induct` is the induction over a start-up.

* `process_ends`: the process has exited iff a completion was fatal; and as long as it is alive,
  the next of the four or five requests on the way to the test of `mfs.c` is in flight.  The answer
  to the last of them is fatal, so a start-up does not last.
* `requests_in_order`: most requests are made once at most (`startUp_forest`); and whatever is in
  flight comes after the successes that it rests on, in their order (`Operation.after`).
* `is_initialized_iff`: when `wait_for_init` has let go.
* `network_provider_eq`: the network that it has copied to the runtime.
-/

namespace Imsd

open EventSystem ClientProcess

/-- A run of the process from `initialize_qmi_client`, with nothing set and nothing started. -/
def StartUp (path : DevicePath) (memory : IMSDClient) : List ClientEvent → ClientProcess → Prop :=
  Run (fun s => ∃ startup pdcMemory, startup.Initial ∧
    s = initializeQmiClient path memory startup pdcMemory) ClientProcess.Step unguarded

/-- The completion that an event is. -/
def ClientEvent.completion? : ClientEvent → Option Completion
  | .complete k => some k
  | _ => none

/-- The completions among the events. -/
def completions (tr : List ClientEvent) : List Completion :=
  tr.filterMap ClientEvent.completion?

@[simp] theorem completions_nil : completions [] = [] := rfl

@[simp] theorem completions_complete (tr : List ClientEvent) (k : Completion) :
    completions (tr ++ [.complete k]) = completions tr ++ [k] := by
  simp [completions, ClientEvent.completion?]

@[simp] theorem completions_waitForInit (tr : List ClientEvent) :
    completions (tr ++ [.waitForInit]) = completions tr := by
  simp [completions, ClientEvent.completion?]

theorem completions_of_ne (tr : List ClientEvent) {e : ClientEvent} (he : ∀ k, e ≠ .complete k) :
    completions (tr ++ [e]) = completions tr := by
  cases e with
  | complete k => exact absurd rfl (he k)
  | _ => simp [completions, ClientEvent.completion?]

/-- The induction over a start-up. -/
@[elab_as_elim]
theorem StartUp.induct {path : DevicePath} {memory : IMSDClient}
    {motive : ∀ tr s, StartUp path memory tr s → Prop}
    (start : ∀ startup pdcMemory (hi : startup.Initial),
      motive [] (initializeQmiClient path memory startup pdcMemory)
        (.start ⟨startup, pdcMemory, hi, rfl⟩))
    (complete : ∀ {tr s k s'} (hr : StartUp path memory tr s) (hs : s.Step (.complete k) s'),
      motive tr s hr → s.status = .alive → k.operation ∈ s.inFlight → Completes s k s' →
        motive (tr ++ [.complete k]) s' (hr.snoc trivial hs))
    (waitForInit : ∀ {tr s} (hr : StartUp path memory tr s)
      (hs : s.Step .waitForInit s.waitForInit),
      motive tr s hr → s.status = .alive →
        motive (tr ++ [.waitForInit]) s.waitForInit (hr.snoc trivial hs))
    (elsewhere : ∀ {tr s e s'} (hr : StartUp path memory tr s) (hs : s.Step e s'),
      motive tr s hr → s.status = .alive → (∀ k, e ≠ .complete k) → e ≠ .waitForInit →
        Elsewhere s e s' → motive (tr ++ [e]) s' (hr.snoc trivial hs))
    {tr : List ClientEvent} {s : ClientProcess} (h : StartUp path memory tr s) :
    motive tr s h := by
  induction h with
  | start h =>
    obtain ⟨startup, pdcMemory, hi, rfl⟩ := h
    exact start startup pdcMemory hi
  | snoc hr _ hs ih =>
    obtain ⟨halive, ⟨k, rfl, hk, hdoes⟩ | ⟨rfl, rfl⟩ | ⟨hk, hw, hdoes⟩⟩ := step_cases hs
    · exact complete hr hs ih halive hk hdoes
    · exact waitForInit hr hs ih halive
    · exact elsewhere hr hs ih halive hk hw hdoes

/-! ### What a request rests on -/

/-- The requests that are made again and again. -/
def Operation.repeats : Operation → Bool
  | .getImsServicesStatus | .getImsRegistrationStatus => true
  | .getConfigInfo | .setSelectedConfig | .activateConfig => true
  | _ => false

/-- The requests of a start-up over this device. -/
def DevicePath.reaches : DevicePath → Operation → Prop
  | .qrtr, _ => True
  | _, w => w ≠ .busNew

/-- The successes that lead to the device. -/
def DevicePath.bus : DevicePath → List Completion
  | .qrtr => [.busNew .node]
  | _ => []

/-- The successes that lead to the client of a service. -/
def DevicePath.allocated (path : DevicePath) (service : ServiceClient) : List Completion :=
  path.bus ++ [.deviceNew true, .deviceOpen true, .allocateClient service true]

/-- The successes that lead to a request, in their order. -/
def Operation.after (path : DevicePath) : Operation → List Completion
  | .busNew => []
  | .deviceNew => path.bus
  | .deviceOpen => path.bus ++ [.deviceNew true]
  | .allocateClient _ => path.bus ++ [.deviceNew true, .deviceOpen true]
  | .getHomeNetwork | .setEventReport | .registerIndications => path.allocated .nas
  | .imsaBindSubscription | .getImsServicesStatus | .getImsRegistrationStatus =>
    path.allocated .imsa
  | .getCapabilities | .indicationRegister => path.allocated .dms
  | .imsBind => path.allocated .ims
  | .setImsServiceEnableConfig => path.allocated .ims ++ [.imsBind (.ok ())]
  | .storeEfsitem | .retrieveEfsitem => path.allocated .mfs
  | .listConfigs | .getSelectedConfig | .getConfigInfo | .setSelectedConfig | .activateConfig =>
    path.allocated .pdc

section Cascade

variable {path : DevicePath} {memory : IMSDClient} {tr : List ClientEvent} {s : ClientProcess}

theorem reaches_of_ne {w : Operation} (h : w ≠ .busNew) : path.reaches w := by
  cases path with
  | qrtr => trivial
  | _ => exact h

theorem requests_reached (path : DevicePath) :
    ∀ w ∈ path.requests, path.reaches w ∧ w.after path = [] := by
  cases path with
  | node => simp [DevicePath.requests, DevicePath.reaches, Operation.after, DevicePath.bus]
  | qrtr => simp [DevicePath.requests, DevicePath.reaches, Operation.after]
  | unusable => simp [DevicePath.requests]

theorem after_deviceNew (hp : path.reaches .busNew) :
    Operation.after path .deviceNew = [.busNew .node] := by
  cases path with
  | qrtr => rfl
  | _ => exact absurd rfl hp

/-- The client of a service has come after the device, and its requests after it. -/
theorem allocated_eq (service : ServiceClient) :
    path.allocated service =
      (Operation.allocateClient service).after path ++ [.allocateClient service true] := by
  simp [DevicePath.allocated, Operation.after]

/-- **A request rests on what its completion rested on, and on its completion.** -/
theorem starts_reached {k : Completion} (hp : path.reaches k.operation) :
    ∀ w ∈ k.starts, path.reaches w ∧ w.after path = k.operation.after path ++ [k] := by
  cases k with
  | busNew outcome =>
    cases outcome with
    | node =>
      simpa [Completion.starts] using ⟨reaches_of_ne (w := .deviceNew) (by simp),
        after_deviceNew hp⟩
    | _ => simp [Completion.starts]
  | deviceNew created =>
    cases created with
    | true =>
      simpa [Completion.starts] using ⟨reaches_of_ne (w := .deviceOpen) (by simp), rfl⟩
    | false => simp [Completion.starts]
  | deviceOpen opened =>
    cases opened with
    | true =>
      intro w hw
      obtain ⟨service, -, rfl⟩ := List.mem_map.1 hw
      exact ⟨reaches_of_ne (by simp), by simp [Operation.after, Completion.operation]⟩
    | false => simp [Completion.starts]
  | allocateClient service allocated =>
    cases allocated with
    | true =>
      intro w hw
      have hafter : w.after path = path.allocated service ∧ w ≠ .busNew := by
        cases service <;> simp [Completion.starts, ServiceClient.requests] at hw <;>
          rcases hw with rfl | rfl | rfl <;> exact ⟨rfl, by simp⟩
      exact ⟨reaches_of_ne hafter.2, by rw [hafter.1, allocated_eq]; rfl⟩
    | false => simp [Completion.starts]
  | imsBind reply =>
    cases reply with
    | ok u =>
      simpa [Completion.starts] using
        ⟨reaches_of_ne (w := .setImsServiceEnableConfig) (by simp), rfl⟩
    | _ => simp [Completion.starts]
  | _ => simp [Completion.starts]

/-- What goes on in `pdc.c` rests on `pdc_start`, whose completion this is or has come before. -/
theorem pdcStarts_reached (path : DevicePath) {k : Completion} :
    ∀ w ∈ k.pdcStarts, path.reaches w ∧ w.after path = path.allocated .pdc ∧
      (k = .allocateClient .pdc true ∨
        (w.repeats = true ∧ k.operation.after path = path.allocated .pdc)) := by
  intro w hw
  cases k with
  | allocateClient service allocated =>
    cases service <;> cases allocated <;> simp [Completion.pdcStarts] at hw
    rcases hw with rfl | rfl <;> exact ⟨reaches_of_ne (by simp), rfl, Or.inl rfl⟩
  | setSelectedConfig output =>
    cases output <;> simp [Completion.pdcStarts] at hw
    subst hw
    exact ⟨reaches_of_ne (by simp), rfl, Or.inr ⟨rfl, rfl⟩⟩
  | _ => simp [Completion.pdcStarts] at hw

/-! ### Each request in one place -/

theorem nodup_starts (k : Completion) : k.starts.Nodup := by
  cases k with
  | busNew outcome => cases outcome <;> decide
  | deviceNew created => cases created <;> decide
  | deviceOpen opened => cases opened <;> decide
  | allocateClient service allocated =>
    cases allocated with
    | true => cases service <;> simp [Completion.starts, ServiceClient.requests]
    | false => exact List.nodup_nil
  | imsBind reply =>
    cases reply with
    | ok u => exact List.nodup_singleton _
    | _ => exact List.nodup_nil
  | _ => exact List.nodup_nil

/-- Only one of the two lists is not empty. -/
theorem starts_eq_nil_or (k : Completion) : k.starts = [] ∨ k.pdcStarts = [] := by
  cases k with
  | allocateClient service allocated =>
    cases allocated with
    | true =>
      cases service with
      | pdc => exact Or.inl rfl
      | _ => exact Or.inr rfl
    | false => exact Or.inl rfl
  | setSelectedConfig output => exact Or.inl rfl
  | _ => exact Or.inr rfl

theorem nodup_pdcStarts (k : Completion) : k.pdcStarts.Nodup := by
  cases k with
  | allocateClient service allocated =>
    cases service <;> cases allocated <;> simp [Completion.pdcStarts]
  | setSelectedConfig output => cases output <;> simp [Completion.pdcStarts]
  | _ => simp [Completion.pdcStarts]

/-- A request that repeats starts only such requests. -/
theorem repeats_eq_false {k : Completion} {w : Operation} (hw : w ∈ k.starts) :
    k.operation.repeats = false := by
  cases k <;> first | rfl | simp [Completion.starts] at hw

/-- The requests that an event may start. -/
def ClientEvent.MayStart (e : ClientEvent) (started : List Operation) : Prop :=
  match e with
  | .complete k => ∃ more, more.Sublist k.pdcStarts ∧ started = k.starts ++ more
  | _ => ∀ w ∈ started, w.repeats = true

/-- An event, with the requests that it has started. -/
structure Occurrence where
  event : ClientEvent
  started : List Operation
  mayStart : event.MayStart started

/-- The requests, with what starts what. -/
def startUp : Cascade Operation Occurrence :=
  ⟨fun o => o.event.completion?.map Completion.operation, Occurrence.started⟩

/-- **Each request is made in one place**, but for those that repeat. -/
theorem startUp_forest (path : DevicePath) :
    startUp.Forest path.requests path.reaches (fun w => w.repeats = false)
      fun w => (w.after path).getLast?.map Completion.operation where
  nodup := by cases path <;> decide
  root := by
    intro w hw
    obtain ⟨hp, hafter⟩ := requests_reached path w hw
    exact ⟨hp, by rw [hafter]; rfl⟩
  nodup_starts := by
    rintro ⟨e, started, hstarted⟩
    cases e with
    | complete k =>
      obtain ⟨more, hmore, rfl⟩ := hstarted
      refine List.Nodup.filter _ ?_
      rcases starts_eq_nil_or k with h | h
      · simpa [startUp, h] using hmore.nodup (nodup_pdcStarts k)
      · rw [h, List.sublist_nil] at hmore
        simpa [startUp, hmore] using nodup_starts k
    | _ =>
      have hnone : started.filter (fun w => decide (w.repeats = false)) = [] :=
        List.filter_eq_nil_iff.2 fun w hw => by simp [hstarted w hw]
      show (started.filter _).Nodup
      rw [hnone]
      exact List.nodup_nil
  child := by
    rintro ⟨e, started, hstarted⟩ hp w hw
    cases e with
    | complete k =>
      obtain ⟨more, hmore, rfl⟩ := hstarted
      rcases List.mem_append.1 hw with hw | hw
      · obtain ⟨hreaches, hafter⟩ := starts_reached (hp _ rfl) w hw
        refine ⟨hreaches, fun _ => ⟨k.operation, rfl, repeats_eq_false hw, ?_⟩⟩
        rw [hafter, List.getLast?_concat]
        rfl
      · obtain ⟨hreaches, hafter, hk⟩ := pdcStarts_reached path w (hmore.subset hw)
        refine ⟨hreaches, fun honce => ⟨k.operation, rfl, ?_⟩⟩
        obtain rfl | ⟨hrepeats, -⟩ := hk
        · refine ⟨rfl, ?_⟩
          rw [hafter, allocated_eq, List.getLast?_concat]
          rfl
        · rw [hrepeats] at honce
          cases honce
    | _ =>
      have hrepeats : w.repeats = true := hstarted w hw
      refine ⟨reaches_of_ne ?_, fun honce => ?_⟩
      · rintro rfl
        cases hrepeats
      · rw [hrepeats] at honce
        cases honce

/-- An event that is no completion starts requests that repeat. -/
theorem exists_occurrence {e : ClientEvent} (he : ∀ k, e ≠ .complete k)
    {inFlight started : List Operation} (hstarted : ∀ w ∈ started, w.repeats = true) :
    ∃ o : Occurrence, o.event = e ∧ startUp.Step inFlight o (inFlight ++ started) := by
  have hmay : e.MayStart started ∧ e.completion? = none := by
    cases e with
    | complete k => exact absurd rfl (he k)
    | _ => exact ⟨hstarted, rfl⟩
  refine ⟨⟨e, started, hmay.1⟩, rfl, ?_, ?_⟩
  · simp [startUp, hmay.2]
  · simp [startUp, hmay.2, Cascade.rest]

/-- A start-up is a run of its cascade. -/
theorem startUp_run (h : StartUp path memory tr s) :
    ∃ occurrences, occurrences.map Occurrence.event = tr ∧
      Run (· = path.requests) startUp.Step unguarded occurrences s.inFlight := by
  induction h using StartUp.induct with
  | start startup pdcMemory _ => exact ⟨[], rfl, .start rfl⟩
  | @complete tr s k s' _ _ ih _ hk hdoes =>
    obtain ⟨os, rfl, hrun⟩ := ih
    obtain ⟨more, hmore, hinFlight⟩ := hdoes.inFlight
    refine ⟨os ++ [⟨.complete k, k.starts ++ more, more, hmore, rfl⟩], by simp, ?_⟩
    refine hrun.snoc trivial ⟨fun v hv => ?_, hinFlight⟩
    cases hv
    exact hk
  | @waitForInit tr s _ _ ih _ =>
    obtain ⟨os, rfl, hrun⟩ := ih
    obtain ⟨started, hstarted, hinFlight⟩ := s.waitForInit_inFlight
    obtain ⟨o, ho, hstep⟩ := exists_occurrence (e := .waitForInit)
      (by simp) fun w hw => by rcases (hstarted w hw).2 with rfl | rfl <;> rfl
    exact ⟨os ++ [o], by simp [ho], hinFlight ▸ hrun.snoc trivial hstep⟩
  | @elsewhere tr s e s' _ _ ih _ hk _ hdoes =>
    obtain ⟨os, rfl, hrun⟩ := ih
    obtain ⟨started, hstarted, hinFlight⟩ := hdoes.inFlight
    obtain ⟨o, ho, hstep⟩ := exists_occurrence hk
      fun w hw => by rcases (hstarted w hw).2 with rfl | rfl <;> rfl
    exact ⟨os ++ [o], by simp [ho], hinFlight ▸ hrun.snoc trivial hstep⟩

/-- What does not repeat is made once at most. -/
theorem requests_nodup (h : StartUp path memory tr s) :
    (((completions tr).map Completion.operation ++ s.inFlight).filter
      fun w => w.repeats = false).Nodup := by
  obtain ⟨os, rfl, hrun⟩ := startUp_run h
  have hended : os.filterMap startUp.ends =
      (completions (os.map Occurrence.event)).map Completion.operation := by
    rw [completions, List.filterMap_map, List.map_filterMap]
    rfl
  rw [← hended]
  exact Cascade.nodup (startUp_forest path) hrun

end Cascade

/-! ### What the timer comes upon -/

section Looked

variable {path : DevicePath} {memory : IMSDClient} {tr : List ClientEvent} {s : ClientProcess}

/-- `wait_for_init` has run at a point where this held of the completions so far. -/
def Looked (tr : List ClientEvent) (p : List Completion → Prop) : Prop :=
  ∃ pre post, tr = pre ++ .waitForInit :: post ∧ p (completions pre)

theorem looked_of_ne {e : ClientEvent} (he : e ≠ .waitForInit) {p : List Completion → Prop} :
    Looked (tr ++ [e]) p ↔ Looked tr p := by
  constructor
  · rintro ⟨pre, post, h, hp⟩
    rcases snoc_eq_split_iff.1 h with ⟨h, -, -⟩ | ⟨post', -, htr⟩
    · exact absurd h he
    · exact ⟨pre, post', htr, hp⟩
  · rintro ⟨pre, post, rfl, hp⟩
    exact ⟨pre, post ++ [e], by simp, hp⟩

theorem looked_waitForInit {p : List Completion → Prop} :
    Looked (tr ++ [.waitForInit]) p ↔ p (completions tr) ∨ Looked tr p := by
  constructor
  · rintro ⟨pre, post, h, hp⟩
    rcases snoc_eq_split_iff.1 h with ⟨-, rfl, -⟩ | ⟨post', -, htr⟩
    · exact Or.inl hp
    · exact Or.inr ⟨pre, post', htr, hp⟩
  · rintro (hp | ⟨pre, post, rfl, hp⟩)
    · exact ⟨tr, [], rfl, hp⟩
    · exact ⟨pre, post ++ [.waitForInit], by simp, hp⟩

theorem waitForInit_eq (client : IMSDClient) (imsaCtx : Bool) :
    client.waitForInit imsaCtx =
      { client with
        isInitialized :=
          if imsaCtx ∧ ∀ service ∈ [ServiceClient.dms, .nas, .ims, .imsa],
            client.ready service = imsInitOk then 1 else client.isInitialized
        currentNetworkProvider := client.currentCarrier } := by
  rw [IMSDClient.waitForInit]
  dsimp only
  cases imsaCtx with
  | true =>
    by_cases hready : ∀ service ∈ [ServiceClient.dms, .nas, .ims, .imsa],
        client.ready service = imsInitOk
    · rw [if_pos rfl, if_pos (by simpa using hready), if_pos ⟨rfl, hready⟩]
    · rw [if_pos rfl, if_neg (by simpa using hready), if_neg fun h => hready h.2]
  | false => simp

theorem imsaCtx_sets (startup : Startup) (k : Completion) :
    (k.sets startup).imsaCtx = true ↔
      startup.imsaCtx = true ∨ k = .allocateClient .imsa true := by
  cases k with
  | allocateClient service allocated =>
    cases service <;> cases allocated <;>
      simp [Completion.sets, Startup.wdsAllocateClientReady, Startup.imsaAllocateClientReady]
  | _ => simp [Completion.sets]

/-- The context of `imsa.c` is set with its client. -/
theorem imsaCtx_iff (h : StartUp path memory tr s) :
    s.startup.imsaCtx = true ↔ .allocateClient .imsa true ∈ completions tr := by
  induction h using StartUp.induct with
  | start startup pdcMemory hi => simp [initializeQmiClient, hi.2.2.2]
  | complete _ _ ih _ _ hdoes =>
    rw [hdoes.startup, imsaCtx_sets, ih, completions_complete, List.mem_append, List.mem_singleton]
    exact or_congr_right eq_comm
  | waitForInit _ _ ih _ => rwa [completions_waitForInit]
  | elsewhere _ _ ih _ hk _ hdoes =>
    rw [completions_of_ne _ hk, ← ih]
    obtain ⟨-, hstartup, -⟩ | ⟨e', uses, -, himsa, hstep, -⟩ := hdoes.startup
    · rw [hstartup]
    · rw [Startup.imsaCtx_of_step hstep himsa]

end Looked

/-! ### The order of the requests -/

section Order

variable {path : DevicePath} {memory : IMSDClient} {tr : List ClientEvent} {s : ClientProcess}

/-- What is in flight, what has completed and what the context of `pdc.c` rests on has completed
before. -/
structure Ordered (path : DevicePath) (tr : List ClientEvent) (s : ClientProcess) : Prop where
  inFlight : ∀ w ∈ s.inFlight, path.reaches w ∧ (w.after path).Sublist (completions tr)
  completed : ∀ k ∈ completions tr, (k.operation.after path ++ [k]).Sublist (completions tr)
  pdc : s.pdc.isSome → (path.allocated .pdc).Sublist (completions tr)

theorem Ordered.allocated (h : Ordered path tr s) {service : ServiceClient}
    (hs : .allocateClient service true ∈ completions tr) :
    (path.allocated service).Sublist (completions tr) := by
  rw [allocated_eq]
  exact h.completed _ hs

theorem Ordered.complete {k : Completion} {s' : ClientProcess} (h : Ordered path tr s)
    (hk : k.operation ∈ s.inFlight) (hdoes : Completes s k s') :
    Ordered path (tr ++ [.complete k]) s' := by
  obtain ⟨hreaches, hafter⟩ := h.inFlight _ hk
  have hnow : (k.operation.after path ++ [k]).Sublist (completions tr ++ [k]) :=
    hafter.append_right [k]
  have hold {ks : List Completion} (hks : ks.Sublist (completions tr)) :
      ks.Sublist (completions tr ++ [k]) := hks.trans (List.sublist_append_left _ _)
  have hpdc : s'.pdc.isSome → (path.allocated .pdc).Sublist (completions tr ++ [k]) := by
    intro hs'
    rcases hdoes.pdc hs' with hs | rfl
    · exact hold (h.pdc hs)
    · rw [allocated_eq]
      exact hnow
  obtain ⟨more, hmore, hinFlight⟩ := hdoes.inFlight
  constructor
  · intro w hw
    rw [completions_complete]
    rw [hinFlight] at hw
    rcases List.mem_append.1 hw with hw | hw
    · exact (h.inFlight w (List.mem_of_mem_erase hw)).imp_right hold
    rcases List.mem_append.1 hw with hw | hw
    · obtain ⟨hw, heq⟩ := starts_reached hreaches w hw
      exact ⟨hw, heq ▸ hnow⟩
    · obtain ⟨hw, heq, hk⟩ := pdcStarts_reached path w (hmore.subset hw)
      refine ⟨hw, ?_⟩
      obtain rfl | ⟨-, hk⟩ := hk
      · rw [heq, allocated_eq]
        exact hnow
      · rw [heq, ← hk]
        exact hold hafter
  · intro k' hk'
    rw [completions_complete] at hk' ⊢
    rcases List.mem_append.1 hk' with hk' | hk'
    · exact hold (h.completed k' hk')
    · rw [List.mem_singleton.1 hk']
      exact hnow
  · rw [completions_complete]
    exact hpdc

theorem ordered (h : StartUp path memory tr s) : Ordered path tr s := by
  induction h using StartUp.induct with
  | start startup pdcMemory hi =>
    refine ⟨fun w hw => ?_, by simp, fun h => by cases h⟩
    obtain ⟨hreaches, hafter⟩ := requests_reached path w hw
    exact ⟨hreaches, by rw [hafter]; exact List.nil_sublist _⟩
  | complete _ _ ih _ hk hdoes => exact ih.complete hk hdoes
  | @waitForInit tr s hr _ ih _ =>
    obtain ⟨started, hstarted, hinFlight⟩ := s.waitForInit_inFlight
    refine ⟨fun w hw => ?_, ?_, ?_⟩
    · rw [completions_waitForInit]
      rw [hinFlight] at hw
      rcases List.mem_append.1 hw with hw | hw
      · exact ih.inFlight w hw
      · obtain ⟨hctx, hw⟩ := hstarted w hw
        have hallocated := ih.allocated ((imsaCtx_iff hr).1 hctx)
        rcases hw with rfl | rfl <;> exact ⟨reaches_of_ne (by simp), hallocated⟩
    · rw [completions_waitForInit]
      exact ih.completed
    · rw [completions_waitForInit]
      exact ih.pdc
  | @elsewhere tr s e s' _ _ ih _ hk _ hdoes =>
    obtain ⟨started, hstarted, hinFlight⟩ := hdoes.inFlight
    refine ⟨fun w hw => ?_, ?_, ?_⟩
    · rw [completions_of_ne _ hk]
      rw [hinFlight] at hw
      rcases List.mem_append.1 hw with hw | hw
      · exact ih.inFlight w hw
      · obtain ⟨hpdc, hw⟩ := hstarted w hw
        rcases hw with rfl | rfl <;> exact ⟨reaches_of_ne (by simp), ih.pdc hpdc⟩
    · rw [completions_of_ne _ hk]
      exact ih.completed
    · rw [completions_of_ne _ hk]
      exact fun h => ih.pdc (hdoes.pdc h)

end Order

/-! ### The way to the end -/

section Ends

variable {path : DevicePath} {memory : IMSDClient} {tr : List ClientEvent} {s : ClientProcess}

theorem exited_iff (h : StartUp path memory tr s) :
    s.status = .exited ↔ ∃ k ∈ completions tr, k.fatal = true := by
  induction h using StartUp.induct with
  | start startup pdcMemory hi => simp [initializeQmiClient]
  | @complete tr s k s' _ _ ih halive _ hdoes =>
    -- nothing was fatal before, since the process is alive
    rw [halive] at ih
    rw [hdoes.exited, completions_complete]
    by_cases hk : k.fatal = true
    · simp [hk]
    · simpa [hk] using ih
  | @waitForInit tr s _ _ ih halive =>
    rw [completions_waitForInit, ← ih, halive]
    have hstatus : s.waitForInit.status ≠ .exited := by
      rw [ClientProcess.waitForInit]
      split_ifs <;> simp [halive]
    simp [hstatus]
  | elsewhere _ _ ih halive hk _ hdoes =>
    rw [completions_of_ne _ hk, ← ih, halive]
    simp [hdoes.exited]

/-- The requests on the way from the bus to the test of `mfs.c`. -/
def testWay : List Operation :=
  [.busNew, .deviceNew, .deviceOpen, .allocateClient .mfs, .retrieveEfsitem]

/-- A device node needs no bus. -/
def DevicePath.skipped : DevicePath → List Operation
  | .node => [.busNew]
  | _ => []

/-- How far a start-up has come on the way. -/
def testWayDone (tr : List ClientEvent) : List Operation :=
  ((completions tr).map Completion.operation).filter fun w => w ∈ testWay

theorem testWayDone_complete (tr : List ClientEvent) (k : Completion) :
    testWayDone (tr ++ [.complete k]) =
      testWayDone tr ++ if k.operation ∈ testWay then [k.operation] else [] := by
  rw [testWayDone, completions_complete, List.map_append, List.filter_append]
  split_ifs with h <;> simp [testWayDone, h]

/-- What repeats is not on the way. -/
theorem not_mem_testWay {w : Operation} (h : w.repeats = true) : w ∉ testWay := by
  intro hw
  have hall : ∀ w ∈ testWay, w.repeats = false := by decide
  rw [hall w hw] at h
  cases h

/-- The rest of the way, from one of its requests. -/
theorem rest_of_testWay {w : Operation} {done rest : List Operation} (pre post : List Operation)
    (h : testWay = done ++ w :: rest) (h' : testWay = pre ++ w :: post) : rest = post := by
  have hnodup : testWay.Nodup := by decide
  rw [h', List.nodup_middle, List.nodup_cons, List.mem_append, not_or] at hnodup
  exact ((List.append_cons_inj_of_notMem hnodup.1.1 hnodup.1.2).1 (h'.symm.trans h)).2.2.symm

/-- Off the way, a completion starts nothing that is on it. -/
theorem starts_off_testWay {k : Completion} (hk : k.operation ∉ testWay) :
    ∀ w ∈ k.starts, w ∉ testWay := by
  intro w hw
  cases k with
  | allocateClient service allocated =>
    cases service <;> cases allocated <;>
      simp [Completion.starts, ServiceClient.requests, testWay, Completion.operation] at hw hk ⊢ <;>
      rcases hw with rfl | rfl | rfl <;> simp
  | imsBind reply =>
    cases reply <;> simp [Completion.starts] at hw
    subst hw
    decide
  | busNew | deviceNew | deviceOpen => exact absurd (by simp [testWay, Completion.operation]) hk
  | _ => cases hw

/-- On the way, a completion is fatal, or the next request follows. -/
theorem starts_on_testWay {k : Completion} {done rest : List Operation}
    (hway : testWay = done ++ k.operation :: rest) (hfatal : k.fatal = false) :
    ∃ w rest', rest = w :: rest' ∧ k.starts.filter (fun w => w ∈ testWay) = [w] := by
  have hmem : k.operation ∈ testWay := by simp [hway]
  cases k with
  | busNew outcome =>
    cases outcome with
    | node => exact ⟨_, _, rest_of_testWay [] _ hway rfl, by decide⟩
    | _ => cases hfatal
  | deviceNew created =>
    cases created with
    | true => exact ⟨_, _, rest_of_testWay [.busNew] _ hway rfl, by decide⟩
    | false => cases hfatal
  | deviceOpen opened =>
    cases opened with
    | true => exact ⟨_, _, rest_of_testWay [.busNew, .deviceNew] _ hway rfl, by decide⟩
    | false => cases hfatal
  | allocateClient service allocated =>
    obtain rfl : service = .mfs := by simpa [testWay, Completion.operation] using hmem
    cases allocated with
    | true =>
      exact ⟨_, _, rest_of_testWay [.busNew, .deviceNew, .deviceOpen] _ hway rfl, by decide⟩
    | false => cases hfatal
  | retrieveEfsitem reply => cases hfatal
  | _ => simp [testWay, Completion.operation] at hmem

/-- The context of `pdc.c` has nothing to do with the way. -/
theorem pdcStarts_off_testWay {k : Completion} : ∀ w ∈ k.pdcStarts, w ∉ testWay := by
  intro w hw
  cases k with
  | allocateClient service allocated =>
    cases service <;> cases allocated <;> simp [Completion.pdcStarts] at hw
    rcases hw with rfl | rfl <;> decide
  | setSelectedConfig output =>
    cases output <;> simp [Completion.pdcStarts] at hw
    subst hw
    decide
  | _ => cases hw

/-- The next request of the way is in flight, and no other of them. -/
structure OnTheWay (path : DevicePath) (tr : List ClientEvent) (s : ClientProcess) : Prop where
  done : path.skipped ++ testWayDone tr <+: testWay
  next : s.status = .alive → ∃ w rest, testWay = path.skipped ++ testWayDone tr ++ w :: rest ∧
    s.inFlight.filter (fun w => w ∈ testWay) = [w]

theorem OnTheWay.complete {k : Completion} {s' : ClientProcess} (h : OnTheWay path tr s)
    (halive : s.status = .alive) (hk : k.operation ∈ s.inFlight) (hdoes : Completes s k s') :
    OnTheWay path (tr ++ [.complete k]) s' := by
  obtain ⟨w, rest, hway, hnext⟩ := h.next halive
  obtain ⟨more, hmore, hinFlight⟩ := hdoes.inFlight
  have hperm := (List.perm_cons_erase hk).filter fun w => decide (w ∈ testWay)
  have hpdc : more.filter (fun w => decide (w ∈ testWay)) = [] :=
    List.filter_eq_nil_iff.2 fun w hw => by simpa using pdcStarts_off_testWay w (hmore.subset hw)
  rw [hnext] at hperm
  by_cases hk' : k.operation ∈ testWay
  · -- it is the one that is in flight
    rw [List.filter_cons_of_pos (by simpa using hk')] at hperm
    obtain ⟨rfl, herase⟩ := List.cons.inj (List.singleton_perm.1 hperm).symm
    constructor
    · rw [testWayDone_complete, if_pos hk', ← List.append_assoc, hway]
      exact ⟨rest, by simp⟩
    · intro halive'
      have hfatal : k.fatal = false := by
        by_contra hfatal
        rw [hdoes.exited.2 (by simpa using hfatal)] at halive'
        cases halive'
      obtain ⟨w', rest', rfl, hstarts⟩ := starts_on_testWay hway hfatal
      refine ⟨w', rest', ?_, ?_⟩
      · rw [testWayDone_complete, if_pos hk', hway]
        simp
      · rw [hinFlight, List.filter_append, List.filter_append, herase, hstarts, hpdc]
        rfl
  · rw [List.filter_cons_of_neg (by simpa using hk')] at hperm
    have hdone : testWayDone (tr ++ [.complete k]) = testWayDone tr := by
      rw [testWayDone_complete, if_neg hk', List.append_nil]
    have hstarts : k.starts.filter (fun w => decide (w ∈ testWay)) = [] :=
      List.filter_eq_nil_iff.2 fun w hw => by simpa using starts_off_testWay hk' w hw
    refine ⟨hdone ▸ h.done, fun _ => ⟨w, rest, hdone ▸ hway, ?_⟩⟩
    rw [hinFlight, List.filter_append, List.filter_append, hstarts, hpdc, List.append_nil,
      List.append_nil]
    exact (List.singleton_perm.1 hperm).symm

/-- An event that is no completion. -/
theorem OnTheWay.other {e : ClientEvent} {s' : ClientProcess} (h : OnTheWay path tr s)
    (halive : s.status = .alive) (he : ∀ k, e ≠ .complete k) {started : List Operation}
    (hstarted : ∀ w ∈ started, w.repeats = true) (hinFlight : s'.inFlight = s.inFlight ++ started) :
    OnTheWay path (tr ++ [e]) s' := by
  obtain ⟨w, rest, hway, hnext⟩ := h.next halive
  have hdone : testWayDone (tr ++ [e]) = testWayDone tr := by
    rw [testWayDone, completions_of_ne _ he, testWayDone]
  have hnone : started.filter (fun w => decide (w ∈ testWay)) = [] :=
    List.filter_eq_nil_iff.2 fun w hw => by simpa using not_mem_testWay (hstarted w hw)
  refine ⟨hdone ▸ h.done, fun _ => ⟨w, rest, hdone ▸ hway, ?_⟩⟩
  rw [hinFlight, List.filter_append, hnext, hnone]
  rfl

theorem onTheWay (h : StartUp path memory tr s) (hpath : path ≠ .unusable) :
    OnTheWay path tr s := by
  induction h using StartUp.induct with
  | start startup pdcMemory hi =>
    cases path with
    | node => exact ⟨by decide, fun _ => ⟨.deviceNew, _, rfl, rfl⟩⟩
    | qrtr => exact ⟨by decide, fun _ => ⟨.busNew, _, rfl, rfl⟩⟩
    | unusable => exact absurd rfl hpath
  | complete _ _ ih halive hk hdoes => exact ih.complete halive hk hdoes
  | @waitForInit tr s _ _ ih halive =>
    obtain ⟨started, hstarted, hinFlight⟩ := s.waitForInit_inFlight
    refine ih.other halive (by simp) (fun w hw => ?_) hinFlight
    rcases (hstarted w hw).2 with rfl | rfl <;> rfl
  | elsewhere _ _ ih halive hk _ hdoes =>
    obtain ⟨started, hstarted, hinFlight⟩ := hdoes.inFlight
    refine ih.other halive hk (fun w hw => ?_) hinFlight
    rcases (hstarted w hw).2 with rfl | rfl <;> rfl

/-- A memory of zeros. -/
def zeroedClient : IMSDClient :=
  ⟨false, false, fun _ => false, fun _ => 0, 0, ⟨0, 0⟩, ⟨0, 0⟩⟩

/-- A memory of zeros for the context of `pdc.c`, and a folder that can be scanned. -/
def zeroedPdc : PdcMemory := ⟨true, PdcContext.fresh 0, 1⟩

/-- A start-up up to the time at which IMS is about to be enabled. -/
def enabling : List ClientEvent :=
  [.complete (.deviceNew true), .complete (.deviceOpen true),
    .complete (.allocateClient .nas true), .complete (.getHomeNetwork (.ok ⟨310, 260⟩)),
    .complete (.allocateClient .pdc true), .complete (.allocateClient .ims true),
    .complete (.allocateClient .imsa true), .complete (.imsBind (.ok ())),
    .complete (.allocateClient .dms true), .waitForInit]

theorem startUp_of_foldlM
    (h : tr.foldlM ClientProcess.step
      (initializeQmiClient path memory Startup.fresh zeroedPdc) = some s) :
    StartUp path memory tr s := by
  induction tr using List.reverseRecOn generalizing s with
  | nil => exact .start ⟨_, _, Startup.initial_fresh, (Option.some_inj.1 h).symm⟩
  | append_singleton tr e ih =>
    rw [List.foldlM_append, Option.bind_eq_bind, Option.bind_eq_some_iff] at h
    obtain ⟨s₁, h₁, h⟩ := h
    have hstep : s₁.step e = some s := by simpa using h
    exact (ih h₁).snoc trivial hstep

theorem exists_enabling :
    ∃ s, StartUp .node zeroedClient enabling s ∧ s.status = .alive ∧
      .setImsServiceEnableConfig ∈ s.inFlight := by
  have h : (enabling.foldlM ClientProcess.step
      (initializeQmiClient .node zeroedClient Startup.fresh zeroedPdc)).any
        fun s => decide (s.status = .alive ∧ .setImsServiceEnableConfig ∈ s.inFlight) := by
    decide +kernel
  obtain ⟨s, hs, h⟩ := (Option.any_eq_true _ _).1 h
  exact ⟨s, startUp_of_foldlM hs, of_decide_eq_true h⟩

/-- **A start-up does not last**: it is on its way to the test of `mfs.c`, the answer to which is
fatal. -/
theorem process_ends (h : StartUp path memory tr s) :
    (s.status = .exited ↔ ∃ k ∈ completions tr, k.fatal = true) ∧
      (path ≠ .unusable → path.skipped ++ testWayDone tr <+: testWay ∧
        (s.status = .alive → ∃ w rest, testWay = path.skipped ++ testWayDone tr ++ w :: rest ∧
          s.inFlight.filter (fun w => w ∈ testWay) = [w])) :=
  ⟨exited_iff h, fun hpath => ⟨(onTheWay h hpath).done, (onTheWay h hpath).next⟩⟩

theorem process_ends_enabling :
    ∃ s w, StartUp .node zeroedClient enabling s ∧ w ∈ s.inFlight ∧ w ∈ testWay := by
  obtain ⟨s, h, halive, -⟩ := exists_enabling
  obtain ⟨w, -, -, hw⟩ := ((process_ends h).2 (by decide)).2 halive
  have hmem : w ∈ s.inFlight.filter fun w => w ∈ testWay := by rw [hw]; exact List.mem_cons_self
  exact ⟨s, w, h, (List.mem_filter.1 hmem).1, of_decide_eq_true (List.mem_filter.1 hmem).2⟩

/-- **The requests come in order**, and each that does not repeat once at most. -/
theorem requests_in_order (h : StartUp path memory tr s) :
    (((completions tr).map Completion.operation ++ s.inFlight).filter
        fun w => w.repeats = false).Nodup ∧
      ∀ w ∈ s.inFlight, (w.after path).Sublist (completions tr) :=
  ⟨requests_nodup h, fun w hw => ((ordered h).inFlight w hw).2⟩

/-- IMS is enabled last. -/
theorem requests_in_order_enabling :
    (Operation.setImsServiceEnableConfig.after .node).Sublist (completions enabling) := by
  obtain ⟨s, h, -, hmem⟩ := exists_enabling
  exact (requests_in_order h).2 _ hmem

example :
    Operation.setImsServiceEnableConfig.after .node =
      [.deviceNew true, .deviceOpen true, .allocateClient .ims true, .imsBind (.ok ())] := rfl

end Ends

/-! ### What the timer leaves -/

section Timer

variable {path : DevicePath} {memory : IMSDClient} {tr : List ClientEvent} {s : ClientProcess}

/-- The flag of a client that the process cannot do without is set by its allocation, unless the
memory had it. -/
theorem ready_iff (h : StartUp path memory tr s) (halive : s.status ≠ .exited)
    {service : ServiceClient} (hservice : service ≠ .imsrtp) :
    s.client.ready service = imsInitOk ↔
      .allocateClient service true ∈ completions tr ∨ memory.ready service = imsInitOk := by
  induction h using StartUp.induct with
  | start startup pdcMemory hi => simp [initializeQmiClient]
  | @complete tr s k s' _ _ ih hbefore _ hdoes =>
    have ih := ih (by simp [hbefore])
    have hfatal : k.fatal = false := by
      by_contra hfatal
      exact halive (hdoes.exited.2 (by simpa using hfatal))
    rw [completions_complete, List.mem_append, or_right_comm, ← ih, hdoes.client,
      complete_client]
    cases k with
    | allocateClient service' allocated =>
      simp only [Function.update_apply]
      by_cases hs : service = service'
      · subst hs
        have hallocated : allocated = true := by simpa [Completion.fatal, hservice] using hfatal
        simp [hallocated]
      · simp [hs]
    | _ => simp
  | waitForInit _ _ ih hbefore =>
    rw [completions_waitForInit, ← ih (by simp [hbefore]), ClientProcess.waitForInit,
      waitForInit_eq]
  | elsewhere _ _ ih hbefore hk _ hdoes =>
    rw [completions_of_ne _ hk, hdoes.client, ih (by simp [hbefore])]

/-- The clients that `wait_for_init` waits for are there, as far as it can tell. -/
def AllReady (memory : IMSDClient) (ks : List Completion) : Prop :=
  .allocateClient .imsa true ∈ ks ∧ ∀ service ∈ [ServiceClient.dms, .nas, .ims],
    .allocateClient service true ∈ ks ∨ memory.ready service = imsInitOk

/-- **When the timer has let go.** -/
theorem is_initialized_iff (h : StartUp path memory tr s) :
    s.client.isInitialized = 1 ↔ memory.isInitialized = 1 ∨ Looked tr (AllReady memory) := by
  induction h using StartUp.induct with
  | start startup pdcMemory hi => simp [initializeQmiClient, Looked]
  | complete _ _ ih _ _ hdoes =>
    rw [looked_of_ne (by simp), ← ih, hdoes.client, complete_client]
  | @waitForInit tr s hr _ ih halive =>
    have hready {service : ServiceClient} (hservice : service ≠ .imsrtp) :=
      ready_iff hr (by simp [halive]) hservice
    have hall : (s.startup.imsaCtx ∧ ∀ service ∈ [ServiceClient.dms, .nas, .ims, .imsa],
        s.client.ready service = imsInitOk) ↔ AllReady memory (completions tr) := by
      rw [AllReady, imsaCtx_iff hr]
      constructor
      · rintro ⟨hctx, hall⟩
        refine ⟨hctx, fun service hs => ?_⟩
        exact (hready (by rintro rfl; simp at hs)).1 (hall service (by simp at hs ⊢; tauto))
      · rintro ⟨hctx, hall⟩
        refine ⟨hctx, fun service hs => ?_⟩
        refine (hready (by rintro rfl; simp at hs)).2 ?_
        by_cases himsa : service = .imsa
        · exact Or.inl (himsa ▸ hctx)
        · exact hall service (by simp at hs ⊢; tauto)
    rw [looked_waitForInit, or_left_comm, ← ih, ← hall, ClientProcess.waitForInit,
      waitForInit_eq]
    dsimp only
    split_ifs with h
    · exact iff_of_true rfl (Or.inl h)
    · exact (or_iff_right h).symm
  | elsewhere _ _ ih _ _ hw hdoes => rw [looked_of_ne hw, ← ih, hdoes.client]

theorem is_initialized_iff_enabling :
    ∃ s, StartUp .node zeroedClient enabling s ∧ s.client.isInitialized = 1 := by
  obtain ⟨s, h, -⟩ := exists_enabling
  refine ⟨s, h, (is_initialized_iff h).2 (Or.inr ⟨enabling.dropLast, [], rfl, ?_⟩)⟩
  simp [AllReady, enabling, completions, ClientEvent.completion?]

theorem operation_of_homeNetwork {k : Completion} {network : NetworkProviderData}
    (h : k.homeNetwork? = some network) : k.operation = .getHomeNetwork := by
  cases k <;> first | rfl | cases h

/-- The network is asked for once, so an answer in flight is the first. -/
theorem homeNetwork_eq_none (h : StartUp path memory tr s)
    (hk : .getHomeNetwork ∈ s.inFlight) :
    (completions tr).findSome? Completion.homeNetwork? = none := by
  rw [List.findSome?_eq_none_iff]
  intro k hmem
  by_contra hn
  obtain ⟨network, hn⟩ := Option.ne_none_iff_exists'.1 hn
  have hnodup := requests_nodup h
  rw [List.filter_append] at hnodup
  have hdone : Operation.getHomeNetwork ∈ (completions tr).map Completion.operation :=
    List.mem_map.2 ⟨k, hmem, operation_of_homeNetwork hn⟩
  exact (List.nodup_append.1 hnodup).2.2 _ (List.mem_filter.2 ⟨hdone, rfl⟩) _
    (List.mem_filter.2 ⟨hk, rfl⟩) rfl

/-- The carrier that `nas.c` holds. -/
theorem currentCarrier_eq (h : StartUp path memory tr s) :
    s.client.currentCarrier =
      ((completions tr).findSome? Completion.homeNetwork?).getD ⟨0, 0⟩ := by
  induction h using StartUp.induct with
  | start startup pdcMemory hi => rfl
  | @complete tr s k s' hr _ ih _ hk hdoes =>
    rw [completions_complete, List.findSome?_append, hdoes.client, complete_client]
    dsimp only
    cases hn : k.homeNetwork? with
    | none => simp [hn, ih]
    | some network =>
      rw [operation_of_homeNetwork hn] at hk
      simp [homeNetwork_eq_none hr hk, hn]
  | waitForInit _ _ ih _ =>
    rw [completions_waitForInit, ← ih, ClientProcess.waitForInit, waitForInit_eq]
  | elsewhere _ _ ih _ hk _ hdoes => rw [completions_of_ne _ hk, hdoes.client, ih]

/-- **The network in the runtime**, once the timer has run: what get-home-network had brought by
then, and else `0-0`. -/
theorem network_provider_eq (h : StartUp path memory tr s) {pre post : List ClientEvent}
    (htr : tr = pre ++ .waitForInit :: post) (hlast : .waitForInit ∉ post) :
    s.client.currentNetworkProvider =
      ((completions pre).findSome? Completion.homeNetwork?).getD ⟨0, 0⟩ := by
  induction h using StartUp.induct generalizing pre post with
  | start startup pdcMemory hi => simp at htr
  | complete _ _ ih _ _ hdoes =>
    obtain ⟨h, -, -⟩ | ⟨post', rfl, hpre⟩ := snoc_eq_split_iff.1 htr
    · cases h
    · rw [hdoes.client, complete_client]
      exact ih hpre fun h => hlast (List.mem_append_left _ h)
  | waitForInit hr _ ih _ =>
    obtain ⟨-, rfl, -⟩ | ⟨post', rfl, -⟩ := snoc_eq_split_iff.1 htr
    · rw [← currentCarrier_eq hr, ClientProcess.waitForInit, waitForInit_eq]
    · exact absurd (List.mem_append_right _ (List.mem_singleton_self _)) hlast
  | elsewhere _ _ ih _ _ hw hdoes =>
    obtain ⟨h, -, -⟩ | ⟨post', rfl, hpre⟩ := snoc_eq_split_iff.1 htr
    · exact absurd h hw
    · rw [hdoes.client]
      exact ih hpre fun h => hlast (List.mem_append_left _ h)

theorem network_provider_eq_enabling :
    ∃ s, StartUp .node zeroedClient enabling s ∧
      s.client.currentNetworkProvider = ⟨310, 260⟩ := by
  obtain ⟨s, h, -⟩ := exists_enabling
  have hsplit : enabling = enabling.dropLast ++ .waitForInit :: [] := rfl
  exact ⟨s, h, network_provider_eq h hsplit List.not_mem_nil⟩

end Timer

end Imsd
