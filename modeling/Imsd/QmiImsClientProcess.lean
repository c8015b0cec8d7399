import Imsd.QmiImsClient
import Imsd.Startup

/-!
# The process of `qmi-ims-client.c`

A `ClientProcess` is the memory of the client with the rest of the process: the handles and
contexts of `Startup`, with the DCM server and the slots, the context of `pdc.c`, and the requests
in flight.  It ends by `exit`, or where it uses what nobody has set (`CrashSite`).

Some requests are made again and again: each run of `wait_for_init` asks for the status of IMS, and
each indication for `pdc.c` may ask for configurations.

`ClientProcess.step_cases` says what an event does: a completion `Completes`, the timer runs, and
other events happen `Elsewhere`, as far as the client is concerned.
-/

namespace Imsd

open EventSystem Exec

/-- What has ended the process: the use of a handle or a context that is not set, an answer that a
callback of `wds.c` does not survive, a pointer that `pdc.c` follows although it is null or has
never been stored, or a file in the folder that `pdc_start` scans. -/
inductive CrashSite
  | unset
  | wds
  | pdc
  | scan
  deriving DecidableEq

inductive ProcessStatus
  | alive
  | exited
  | crashed (site : CrashSite)
  deriving DecidableEq

/-- What `pdc_start` comes upon: whether it survives `scan_pdc_mcfgs`, what the memory of its
context holds, and the name that the main loop gives to its timeout. -/
structure PdcMemory where
  scanned : Bool
  ctx : PdcContext
  timeoutId : UInt32

/-- The context of `pdc.c`, and the fields that have been stored in it. -/
structure PdcService where
  ctx : PdcContext
  stored : List PdcField

/-- The fields whose reads are dereferences, as long as they hold what was in the memory: the ids
are looked at only where they are not null. -/
def PdcContext.wild (memory : PdcContext) : List PdcField :=
  .configList :: ((if memory.activeConfigId.isSome then [.activeConfigId] else []) ++
    if memory.pendingConfigId.isSome then [.pendingConfigId] else [])

/-- The log reads a wild field that has not been stored. -/
def followsUnset (wild : List PdcField) : List PdcField → List PdcAccess → Bool
  | _, [] => false
  | stored, .read field :: log =>
    decide (field ∈ wild ∧ field ∉ stored) || followsUnset wild stored log
  | stored, .write field :: log => followsUnset wild (field :: stored) log
  | stored, .out _ :: log => followsUnset wild stored log

/-- The field that an access stores. -/
def PdcAccess.stored? : PdcAccess → Option PdcField
  | .write field => some field
  | _ => none

/-- The request that an access is. -/
def PdcAccess.operation? : PdcAccess → Option Operation
  | .out (.listConfigs _ _) => some .listConfigs
  | .out (.getSelectedConfig _ _) => some .getSelectedConfig
  | .out (.getConfigInfo _ _ _) => some .getConfigInfo
  | .out (.setSelectedConfig _ _ _) => some .setSelectedConfig
  | _ => none

/-- The process: the memory of the client, the handles, contexts, server and slots, the context of
`pdc.c` once it has been allocated, and the requests in flight. -/
structure ClientProcess where
  client : IMSDClient
  startup : Startup
  pdcMemory : PdcMemory
  pdc : Option PdcService
  inFlight : List Operation
  status : ProcessStatus

/-- The events of the main loop: a request of the client completes, `wait_for_init`, an indication
for `pdc.c`, a message for the DCM server, and the timers and answers of the slots. -/
inductive ClientEvent
  | complete (k : Completion)
  | waitForInit
  | indication (x : PdcIndication)
  | request (r : DcmRequest)
  | tick (i : ℕ)
  | answer (i : ℕ) (p : Pending) (answer : Answer)

instance : DecidablePred Use.Ready := fun
  | .wds _ _ handle ctx => inferInstanceAs (Decidable (handle = true ∧ ctx = true))
  | .imsa ctx => inferInstanceAs (Decidable (ctx = true))

namespace ClientProcess

/-- A function of `pdc.c`, with the requests that follow from what it returns. -/
def runPdc {α : Type} (s : ClientProcess) (x : PdcM α) (requests : α → List Operation) :
    ClientProcess :=
  match s.pdc with
  | none => { s with status := .crashed .pdc }
  | some pdc =>
    let (ctx, r) := x pdc.ctx
    { s with
      pdc := some ⟨ctx, pdc.stored ++ r.log.filterMap PdcAccess.stored?⟩
      inFlight := s.inFlight ++ (r.log.filterMap PdcAccess.operation? ++ r.res.elim [] requests)
      status := if r.res.isSome ∧ followsUnset s.pdcMemory.ctx.wild pdc.stored r.log = false
        then s.status else .crashed .pdc }

/-- `pdc_start`. -/
def pdcStart (s : ClientProcess) : ClientProcess :=
  if s.pdcMemory.scanned then
    { s with pdc := some ⟨s.pdcMemory.ctx, []⟩ }.runPdc (runListConfigs s.pdcMemory.timeoutId)
      fun _ => []
  else { s with status := .crashed .scan }

/-- `set_selected_config_ready`. -/
def setSelectedConfigReady (s : ClientProcess) (output : Option SetSelectedConfigOutput) :
    ClientProcess :=
  s.runPdc (Imsd.setSelectedConfigReady output) fun activation =>
    activation.elim [] fun _ => [.activateConfig]

/-- What an allocation sets besides the memory of the client. -/
def allocated (s : ClientProcess) : ServiceClient → ClientProcess
  | .wds slot => { s with startup := s.startup.wdsAllocateClientReady slot }
  | .imsa => { s with startup := s.startup.imsaAllocateClientReady }
  | .pdc => s.pdcStart
  | _ => s

/-- A request completes. -/
def complete (s : ClientProcess) (k : Completion) : ClientProcess :=
  let r := s.client.complete k
  let s' := { s with
    client := r.client
    inFlight := s.inFlight.erase k.operation ++ r.started
    status := if r.exits then .exited else .alive }
  match k with
  | .allocateClient service true => s'.allocated service
  | .setSelectedConfig output => s'.setSelectedConfigReady output
  | _ => s'

/-- The timer; each of its runs asks for the status of IMS again. -/
def waitForInit (s : ClientProcess) : ClientProcess :=
  { s with
    client := s.client.waitForInit s.startup.imsaCtx
    inFlight := s.inFlight ++
      if s.startup.imsaCtx then [.getImsServicesStatus, .getImsRegistrationStatus] else []
    status := if s.startup.imsaCtx then s.status else .crashed .unset }

/-- An event of the slots or the server, with the handles and contexts that it uses. -/
def slotEvent (s : ClientProcess) (e : StartupEvent) : Option ClientProcess :=
  (s.startup.step e).map fun (startup, l) =>
    { s with
      startup
      status := if ∀ u ∈ l.uses, u.Ready then
          if startup.system.crashed then .crashed .wds else s.status
        else .crashed .unset }

/-- One event, if it can happen. -/
def step (s : ClientProcess) (e : ClientEvent) : Option ClientProcess :=
  if s.status = .alive then
    match e with
    | .complete k => if k.operation ∈ s.inFlight then some (s.complete k) else none
    | .waitForInit => some s.waitForInit
    | .indication x => if s.pdc.isSome then some (s.runPdc x.handle fun _ => []) else none
    | .request r => s.slotEvent (.request r)
    | .tick i => s.slotEvent (.tick i)
    | .answer i p answer => s.slotEvent (.complete i p answer)
  else none

/-- The step relation. -/
def Step (s : ClientProcess) (e : ClientEvent) (s' : ClientProcess) : Prop := s.step e = some s'

end ClientProcess

/-- What the device argument names. -/
inductive DevicePath
  | node
  | qrtr
  | unusable
  deriving DecidableEq

/-- The requests of `initialize_qmi_client` itself. -/
def DevicePath.requests : DevicePath → List Operation
  | .node => [.deviceNew]
  | .qrtr => [.busNew]
  | .unusable => []

/-- `initialize_qmi_client`: the memory of the client is not initialized, that of `nas.c` is
zeroed. -/
def initializeQmiClient (path : DevicePath) (memory : IMSDClient) (startup : Startup)
    (pdcMemory : PdcMemory) : ClientProcess :=
  ⟨{ memory with currentCarrier := ⟨0, 0⟩ }, startup, pdcMemory, none, path.requests, .alive⟩

/-! ### What the functions of `pdc.c` ask for -/

/-- Of the requests, only those that an indication can lead to. -/
def PdcAccess.Asks (e : PdcAccess) : Prop :=
  ∀ w ∈ e.operation?, w = .getConfigInfo ∨ w = .setSelectedConfig

section Asks

variable {α : Type}

theorem asks_readField (field : PdcField) (g : PdcContext → α) :
    Logs PdcAccess.Asks (readField field g) :=
  logs_readField (by simp [PdcAccess.Asks, PdcAccess.operation?]) g

theorem asks_writeField (field : PdcField) (g : PdcContext → PdcContext) :
    Logs PdcAccess.Asks (writeField field g) :=
  logs_writeField (by simp [PdcAccess.Asks, PdcAccess.operation?]) g

theorem asks_nextToken : Logs PdcAccess.Asks nextToken :=
  (asks_readField _ _).bind fun _ => (asks_writeField _ _).bind fun _ => .pure _

theorem asks_updateEntry (i : ℕ) (g : ConfigInfo → ConfigInfo) :
    Logs PdcAccess.Asks (updateEntry i g) :=
  (Logs.emitAll (by simp [PdcAccess.Asks, PdcAccess.operation?])).bind fun _ => .modify _

theorem asks_crash : Logs PdcAccess.Asks (crash : PdcM α) :=
  .lift fun _ h => absurd h List.not_mem_nil

theorem asks_printEach (configs : List ConfigInfo) : Logs PdcAccess.Asks (printEach configs) := by
  induction configs with
  | nil => exact .pure _
  | cons config configs ih =>
    have hstatus : Logs PdcAccess.Asks (statusString config.id) :=
      (asks_readField _ _).bind fun _ => .ite (.pure _)
        ((asks_readField _ _).bind fun _ => .ite (.pure _) (.pure _))
    have hselect : Logs PdcAccess.Asks (selectRowCommercial config) := by
      unfold selectRowCommercial
      cases config.description with
      | none => exact asks_crash
      | some description =>
        refine .ite (asks_nextToken.bind fun _ => logs_emit ?_) (.pure _)
        simp [PdcAccess.Asks, PdcAccess.operation?]
    exact hstatus.bind fun _ => hselect.bind fun _ => ih

theorem asks_checkListConfigCompleted : Logs PdcAccess.Asks checkListConfigCompleted := by
  have hprint : Logs PdcAccess.Asks printConfigs :=
    (asks_readField _ _).bind fun _ =>
      (logs_emit (by simp [PdcAccess.Asks, PdcAccess.operation?])).bind fun _ => asks_printEach _
  exact (asks_readField _ _).bind fun _ => (asks_readField _ _).bind fun _ =>
    .ite ((asks_readField _ _).bind fun _ => .ite hprint (.pure _)) (.pure _)

theorem asks_requestInfos (elements : List ConfigsElement) (i : ℕ) :
    Logs PdcAccess.Asks (requestInfos i elements) := by
  induction elements generalizing i with
  | nil => exact .pure _
  | cons element elements ih =>
    refine asks_nextToken.bind fun _ => (asks_updateEntry _ _).bind fun _ =>
      (logs_emit ?_).bind fun _ => ih _
    simp [PdcAccess.Asks, PdcAccess.operation?]

theorem asks_storeEntry (current : Option ℕ) (g : ConfigInfo → ConfigInfo) :
    Logs PdcAccess.Asks (storeEntry current g) := by
  cases current with
  | none => exact asks_crash
  | some i => exact asks_updateEntry i g

theorem asks_storeDetails (current : Option ℕ) (out : GetConfigInfoOutput) :
    Logs PdcAccess.Asks (storeDetails current out) := by
  unfold storeDetails
  cases out.totalSize with
  | none => exact .pure _
  | some totalSize =>
    refine (asks_storeEntry _ _).bind fun _ => ?_
    cases out.version with
    | none => exact .pure _
    | some version =>
      refine (asks_storeEntry _ _).bind fun _ => ?_
      cases out.description with
      | none => exact .pure _
      | some description =>
        exact (asks_storeEntry _ _).bind fun _ => (asks_readField _ _).bind fun _ =>
          (asks_writeField _ _).bind fun _ => asks_checkListConfigCompleted

/-- **What an indication leads to.** -/
theorem asks_handle (x : PdcIndication) : Logs PdcAccess.Asks x.handle := by
  cases x with
  | listConfigs out =>
    refine ((asks_readField _ _).bind fun _ => .ite (asks_writeField _ _) (.pure _)).bind
      fun _ => ?_
    split
    · exact (asks_writeField _ _).bind fun _ => (asks_requestInfos _ _).bind fun _ =>
        asks_checkListConfigCompleted
    · exact .pure _
  | getSelectedConfig out =>
    refine .ite ?_ (.pure _)
    have hactive : Logs PdcAccess.Asks (storeActiveId out.activeId) := by
      cases out.activeId with
      | none => exact .pure _
      | some id => exact asks_writeField _ _
    have hpending : Logs PdcAccess.Asks (storePendingId out.pendingId) := by
      cases out.pendingId with
      | none => exact .pure _
      | some id => exact asks_writeField _ _
    exact hactive.bind fun _ => hpending.bind fun _ => (asks_writeField _ _).bind fun _ =>
      asks_checkListConfigCompleted
  | getConfigInfo out =>
    show Logs PdcAccess.Asks (getConfigInfoReadyIndication out)
    unfold getConfigInfoReadyIndication
    split
    · exact (asks_readField _ _).bind fun _ => asks_storeDetails _ _
    · exact .pure _

theorem asked_of_handle (x : PdcIndication) (ctx : PdcContext) :
    ∀ w ∈ (x.handle ctx).2.log.filterMap PdcAccess.operation?,
      w = .getConfigInfo ∨ w = .setSelectedConfig := by
  intro w hw
  obtain ⟨e, he, hw⟩ := List.mem_filterMap.1 hw
  exact asks_handle x ctx e he w hw

end Asks

/-! ### What an event does -/

/-- The requests that a completion starts from the context of `pdc.c`, unless that is the end. -/
def Completion.pdcStarts : Completion → List Operation
  | .allocateClient .pdc true => [.listConfigs, .getSelectedConfig]
  | .setSelectedConfig (some _) => [.activateConfig]
  | _ => []

/-- The handles and contexts that a completion sets. -/
def Completion.sets (startup : Startup) : Completion → Startup
  | .allocateClient (.wds slot) true => startup.wdsAllocateClientReady slot
  | .allocateClient .imsa true => startup.imsaAllocateClientReady
  | _ => startup

/-- The event for the handles and contexts, the server and the slots that an event is, if it is
one. -/
def ClientEvent.startupEvent? : ClientEvent → Option StartupEvent
  | .complete (.allocateClient (.wds slot) true) => some (.wdsAllocated slot)
  | .complete (.allocateClient .imsa true) => some .imsaAllocated
  | .waitForInit => some .waitForInit
  | .request r => some (.request r)
  | .tick i => some (.tick i)
  | .answer i p a => some (.complete i p a)
  | _ => none

namespace ClientProcess

/-- What a completion does. -/
structure Completes (s : ClientProcess) (k : Completion) (s' : ClientProcess) : Prop where
  client : s'.client = (s.client.complete k).client
  startup : s'.startup = k.sets s.startup
  inFlight : ∃ more, more.Sublist k.pdcStarts ∧
    s'.inFlight = s.inFlight.erase k.operation ++ (k.starts ++ more)
  pdc : s'.pdc.isSome → s.pdc.isSome ∨ k = .allocateClient .pdc true
  exited : s'.status = .exited ↔ k.fatal = true
  unset : s'.status ≠ .crashed .unset

/-- What an event does that is neither a completion nor the timer: an indication leaves the handles
and contexts alone, and the others are events of `Startup`. -/
structure Elsewhere (s : ClientProcess) (e : ClientEvent) (s' : ClientProcess) : Prop where
  client : s'.client = s.client
  startup : (e.startupEvent? = none ∧ s'.startup = s.startup ∧ s'.status ≠ .crashed .unset) ∨
    ∃ e' uses, e.startupEvent? = some e' ∧ e' ≠ .imsaAllocated ∧
      s.startup.Step ⟨e', uses⟩ s'.startup ∧
      (s'.status = .crashed .unset ↔ ¬ ∀ u ∈ uses, u.Ready)
  inFlight : ∃ started,
    (∀ w ∈ started, s.pdc.isSome ∧ (w = .getConfigInfo ∨ w = .setSelectedConfig)) ∧
      s'.inFlight = s.inFlight ++ started
  pdc : s'.pdc.isSome → s.pdc.isSome
  exited : s'.status ≠ .exited

variable {s s' : ClientProcess}

section RunPdc

variable {α : Type} (x : PdcM α) (requests : α → List Operation)

theorem runPdc_frame (s : ClientProcess) :
    (s.runPdc x requests).client = s.client ∧ (s.runPdc x requests).startup = s.startup ∧
      (s.runPdc x requests).pdc.isSome = s.pdc.isSome := by
  unfold runPdc
  cases s.pdc with
  | none => exact ⟨rfl, rfl, rfl⟩
  | some pdc => exact ⟨rfl, rfl, rfl⟩

theorem runPdc_status (h : s.status = .alive) :
    (s.runPdc x requests).status ≠ .exited ∧ (s.runPdc x requests).status ≠ .crashed .unset := by
  unfold runPdc
  cases s.pdc with
  | none => simp
  | some pdc =>
    dsimp only
    split_ifs
    · simp [h]
    · simp

theorem runPdc_inFlight {pdc : PdcService} (h : s.pdc = some pdc) :
    (s.runPdc x requests).inFlight = s.inFlight ++
      ((x pdc.ctx).2.log.filterMap PdcAccess.operation? ++
        (x pdc.ctx).2.res.elim [] requests) := by
  unfold runPdc
  rw [h]

end RunPdc

/-- What a function of `pdc.c` does to the rest of the process, with the requests that it may
start. -/
structure Serves (s s' : ClientProcess) (may : List Operation) : Prop where
  client : s'.client = s.client
  startup : s'.startup = s.startup
  inFlight : ∃ more, more.Sublist may ∧ s'.inFlight = s.inFlight ++ more
  status : s.status = .alive → s'.status ≠ .exited ∧ s'.status ≠ .crashed .unset

/-- `pdc_start` asks for the list and for the selected configuration, if it comes so far. -/
theorem serves_pdcStart (s : ClientProcess) :
    Serves s s.pdcStart [.listConfigs, .getSelectedConfig] := by
  unfold pdcStart
  split_ifs
  · obtain ⟨hclient, hstartup, -⟩ := runPdc_frame (runListConfigs s.pdcMemory.timeoutId)
      (fun _ => []) { s with pdc := some ⟨s.pdcMemory.ctx, []⟩ }
    exact ⟨hclient, hstartup, ⟨_, List.Sublist.refl _, runPdc_inFlight _ _ rfl⟩,
      fun h => runPdc_status _ _ h⟩
  · exact ⟨rfl, rfl, ⟨[], List.nil_sublist _, (List.append_nil _).symm⟩, fun _ => by simp⟩

theorem serves_setSelectedConfigReady (s : ClientProcess)
    (output : Option SetSelectedConfigOutput) :
    Serves s (s.setSelectedConfigReady output) (Completion.setSelectedConfig output).pdcStarts := by
  unfold setSelectedConfigReady
  obtain ⟨hclient, hstartup, -⟩ := runPdc_frame (Imsd.setSelectedConfigReady output)
    (fun activation => activation.elim [] fun _ => [.activateConfig]) s
  refine ⟨hclient, hstartup, ?_, fun h => runPdc_status _ _ h⟩
  cases hpdc : s.pdc with
  | none => exact ⟨[], List.nil_sublist _, by simp [runPdc, hpdc]⟩
  | some pdc =>
    refine ⟨_, List.Sublist.refl _, ?_⟩
    rw [runPdc_inFlight _ _ hpdc]
    cases output <;> rfl

/-- A completion that goes on into `pdc.c`. -/
theorem Serves.completes {k : Completion}
    (h : Serves { s with
      client := (s.client.complete k).client
      inFlight := s.inFlight.erase k.operation ++ (s.client.complete k).started
      status := .alive } s' k.pdcStarts)
    (hsets : k.sets s.startup = s.startup) (hfatal : k.fatal = false)
    (hpdc : s'.pdc.isSome → s.pdc.isSome ∨ k = .allocateClient .pdc true) : Completes s k s' := by
  obtain ⟨more, hmore, hinFlight⟩ := h.inFlight
  obtain ⟨hexited, hunset⟩ := h.status rfl
  refine ⟨h.client, h.startup.trans hsets.symm, ⟨more, hmore, ?_⟩, hpdc, ?_, hunset⟩
  · rw [hinFlight, complete_started, List.append_assoc]
  · exact iff_of_false hexited (by simp [hfatal])

/-- **A completion.** -/
theorem completes (s : ClientProcess) (k : Completion) : Completes s k (s.complete k) := by
  have hstarted := complete_started s.client k
  have hexits := complete_exits s.client k
  -- most completions do nothing but what their callback does to the memory of the client
  have hplain : ∀ {s' : ClientProcess}, s'.client = (s.client.complete k).client →
      s'.startup = k.sets s.startup → s'.pdc = s.pdc →
      s'.inFlight = s.inFlight.erase k.operation ++ (s.client.complete k).started →
      s'.status = (if (s.client.complete k).exits then .exited else .alive) →
      Completes s k s' := by
    intro s' hclient hstartup hpdc hinFlight hstatus
    rw [hexits] at hstatus
    refine ⟨hclient, hstartup, ⟨[], List.nil_sublist _, ?_⟩, fun h => Or.inl (hpdc ▸ h), ?_, ?_⟩
    · rw [hinFlight, hstarted, List.append_nil]
    · rw [hstatus]
      split_ifs with h <;> simp [h]
    · rw [hstatus]
      split_ifs <;> simp
  cases k with
  | allocateClient service allocated =>
    cases allocated with
    | false => cases service <;> exact hplain rfl rfl rfl rfl rfl
    | true =>
      cases service with
      | pdc => exact (serves_pdcStart _).completes rfl rfl fun _ => Or.inr rfl
      | _ => exact hplain rfl rfl rfl rfl rfl
  | setSelectedConfig output =>
    refine (serves_setSelectedConfigReady _ output).completes rfl rfl fun h => Or.inl ?_
    rwa [setSelectedConfigReady, (runPdc_frame _ _ _).2.2] at h
  | _ => exact hplain rfl rfl rfl rfl rfl

/-- **An indication.** -/
theorem elsewhere_indication (x : PdcIndication) (hpdc : s.pdc.isSome)
    (halive : s.status = .alive) :
    Elsewhere s (.indication x) (s.runPdc x.handle fun _ => []) := by
  obtain ⟨pdc, hpdc⟩ := Option.isSome_iff_exists.1 hpdc
  obtain ⟨hclient, hstartup, hsome⟩ := runPdc_frame x.handle (fun _ => []) s
  have hinFlight := runPdc_inFlight x.handle (fun _ => []) hpdc
  obtain ⟨hexited, hunset⟩ := runPdc_status x.handle (fun _ => []) halive
  refine ⟨hclient, Or.inl ⟨rfl, hstartup, hunset⟩,
    ⟨_, fun w hw => ⟨by simp [hpdc], ?_⟩, hinFlight⟩, fun h => hsome ▸ h, hexited⟩
  refine asked_of_handle x pdc.ctx w ?_
  rcases List.mem_append.1 hw with hw | hw
  · exact hw
  · cases hres : (x.handle pdc.ctx).2.res <;> simp [hres] at hw

/-- The timer asks for the status of IMS where there is a context to ask through. -/
theorem waitForInit_inFlight (s : ClientProcess) :
    ∃ started, (∀ w ∈ started, s.startup.imsaCtx = true ∧
      (w = .getImsServicesStatus ∨ w = .getImsRegistrationStatus)) ∧
      s.waitForInit.inFlight = s.inFlight ++ started := by
  refine ⟨_, fun w hw => ?_, rfl⟩
  split_ifs at hw with hctx
  · exact ⟨hctx, by simpa using hw⟩
  · exact absurd hw List.not_mem_nil

/-- **An event of the slots or the server.** -/
theorem elsewhere_slotEvent {e : ClientEvent} {e' : StartupEvent} (h : s.slotEvent e' = some s')
    (halive : s.status = .alive) (he : e.startupEvent? = some e') (himsa : e' ≠ .imsaAllocated) :
    Elsewhere s e s' := by
  obtain ⟨⟨startup, event, uses⟩, hstep, rfl⟩ := Option.map_eq_some_iff.1 h
  obtain rfl : event = e' := Startup.event_of_step_eq hstep
  refine ⟨rfl, Or.inr ⟨event, uses, he, himsa, hstep, ?_⟩,
    ⟨[], by simp, (List.append_nil _).symm⟩, id, ?_⟩
  · dsimp only
    split_ifs with hready hcrashed
    · exact iff_of_false (by simp) fun h => h hready
    · exact iff_of_false (by simp [halive]) fun h => h hready
    · exact iff_of_true rfl hready
  · dsimp only
    split_ifs <;> simp [halive]

/-- **What an event does.** -/
theorem step_cases {e : ClientEvent} (h : s.Step e s') : s.status = .alive ∧
    ((∃ k, e = .complete k ∧ k.operation ∈ s.inFlight ∧ Completes s k s') ∨
      (e = .waitForInit ∧ s' = s.waitForInit) ∨
      ((∀ k, e ≠ .complete k) ∧ e ≠ .waitForInit ∧ Elsewhere s e s')) := by
  unfold Step step at h
  by_cases halive : s.status = .alive
  swap
  · rw [if_neg halive] at h
    cases h
  rw [if_pos halive] at h
  refine ⟨halive, ?_⟩
  cases e with
  | complete k =>
    dsimp only at h
    split_ifs at h with hk
    cases h
    exact Or.inl ⟨k, rfl, hk, completes s k⟩
  | waitForInit => exact Or.inr (Or.inl ⟨rfl, (Option.some_inj.1 h).symm⟩)
  | indication x =>
    dsimp only at h
    split_ifs at h with hpdc
    cases h
    exact Or.inr (Or.inr ⟨by simp, by simp, elsewhere_indication x hpdc halive⟩)
  | request r =>
    exact Or.inr (Or.inr ⟨by simp, by simp, elsewhere_slotEvent h halive rfl (by simp)⟩)
  | tick i =>
    exact Or.inr (Or.inr ⟨by simp, by simp, elsewhere_slotEvent h halive rfl (by simp)⟩)
  | answer i p answer =>
    exact Or.inr (Or.inr ⟨by simp, by simp, elsewhere_slotEvent h halive rfl (by simp)⟩)

end ClientProcess

end Imsd
