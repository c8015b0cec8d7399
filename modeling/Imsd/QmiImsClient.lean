import Imsd.Dcm
import Imsd.PdcActivate
import Imsd.Wds

/-!
# `qmi-ims-client.c`: the clients of the modem's services

`initialize_qmi_client` connects to the modem, the callback of each libqmi request issues the next
ones, and `wait_for_init` looks every ten seconds how far this has come.

* `Operation` are the requests of this start-up, and `Completion` their outcomes.  `IMSDClient` is
  the memory that the callbacks and the timer share; it is not initialized.
* The callbacks of the allocations are one (`allocateClientReady`), but for what they start, and
  that IMSRTP alone may fail.

`complete_started`, `complete_exits` and `complete_client` say what a callback does.
-/

namespace Imsd

/-! ### Requests and completions -/

/-- The services a client is allocated for, with one client of WDS for each slot. -/
inductive ServiceClient
  | wds (slot : Fin maxSimSlots)
  | nas
  | pdc
  | imsa
  | dms
  | ims
  | imsrtp
  | mfs
  deriving DecidableEq

/-- The requests of the start-up, but for those of the slots.  The device is created from its node
or from one on the bus. -/
inductive Operation
  | busNew
  | deviceNew
  | deviceOpen
  | allocateClient (client : ServiceClient)
  | getHomeNetwork
  | setEventReport
  | registerIndications
  | imsaBindSubscription
  | getImsServicesStatus
  | getImsRegistrationStatus
  | getCapabilities
  | indicationRegister
  | imsBind
  | setImsServiceEnableConfig
  | storeEfsitem
  | retrieveEfsitem
  | listConfigs
  | getSelectedConfig
  | getConfigInfo
  | setSelectedConfig
  | activateConfig
  deriving DecidableEq

/-- A carrier; the other fields of `_Network_Provider_Data` are not set. -/
structure NetworkProviderData where
  mcc : UInt16
  mnc : UInt16
  deriving DecidableEq

/-- What `bus_new_callback` finds. -/
inductive BusNew
  | noBus
  | noNode
  | node
  deriving DecidableEq

/-- The outcomes.  A successful get-home-network brings what its getter leaves in `mcc` and `mnc`,
a successful store-efsitem may come with an error code. -/
inductive Completion
  | busNew (outcome : BusNew)
  | deviceNew (created : Bool)
  | deviceOpen (opened : Bool)
  | allocateClient (client : ServiceClient) (allocated : Bool)
  | getHomeNetwork (reply : Reply Unit NetworkProviderData)
  | setEventReport (reply : Reply Unit Unit)
  | registerIndications (reply : Reply Unit Unit)
  | imsaBindSubscription (reply : Reply Unit Unit)
  | getImsServicesStatus (reply : Reply Unit Unit)
  | getImsRegistrationStatus (reply : Reply Unit Unit)
  | getCapabilities (reply : Reply Unit Unit)
  | indicationRegister (reply : Reply Unit Unit)
  | imsBind (reply : Reply Unit Unit)
  | setImsServiceEnableConfig (reply : Reply Unit Unit)
  | storeEfsitem (reply : Reply Unit (Option UInt32))
  | retrieveEfsitem (reply : Reply Unit Unit)
  | listConfigs (reply : Reply Unit Unit)
  | getSelectedConfig (reply : Reply Unit Unit)
  | getConfigInfo (reply : Reply Unit Unit)
  | setSelectedConfig (output : Option SetSelectedConfigOutput)
  | activateConfig (reply : Reply Unit Unit)

def Completion.operation : Completion → Operation
  | .busNew _ => .busNew
  | .deviceNew _ => .deviceNew
  | .deviceOpen _ => .deviceOpen
  | .allocateClient client _ => .allocateClient client
  | .getHomeNetwork _ => .getHomeNetwork
  | .setEventReport _ => .setEventReport
  | .registerIndications _ => .registerIndications
  | .imsaBindSubscription _ => .imsaBindSubscription
  | .getImsServicesStatus _ => .getImsServicesStatus
  | .getImsRegistrationStatus _ => .getImsRegistrationStatus
  | .getCapabilities _ => .getCapabilities
  | .indicationRegister _ => .indicationRegister
  | .imsBind _ => .imsBind
  | .setImsServiceEnableConfig _ => .setImsServiceEnableConfig
  | .storeEfsitem _ => .storeEfsitem
  | .retrieveEfsitem _ => .retrieveEfsitem
  | .listConfigs _ => .listConfigs
  | .getSelectedConfig _ => .getSelectedConfig
  | .getConfigInfo _ => .getConfigInfo
  | .setSelectedConfig _ => .setSelectedConfig
  | .activateConfig _ => .activateConfig

/-! ### The client -/

/-- `IMS_INIT_OK`, `IMS_INIT_ERR`. -/
def imsInitOk : UInt8 := 1
@[inherit_doc imsInitOk] def imsInitErr : UInt8 := 2

/-- `_IMSD_Client`, as far as it is set here, with the carrier of `nas.c` and the network provider
of the first slot in the runtime. -/
structure IMSDClient where
  device : Bool
  qrtrBus : Bool
  handle : ServiceClient → Bool
  ready : ServiceClient → UInt8
  isInitialized : UInt8
  currentCarrier : NetworkProviderData
  currentNetworkProvider : NetworkProviderData

/-- What a callback does: the memory after it, the requests it issues, and whether it calls
`exit`. -/
structure Callback where
  client : IMSDClient
  started : List Operation
  exits : Bool

namespace IMSDClient

/-- A callback that only prints. -/
def prints (client : IMSDClient) : Callback := ⟨client, [], false⟩

/-- `exit(EXIT_FAILURE)`. -/
def exit (client : IMSDClient) : Callback := ⟨client, [], true⟩

/-- `bus_new_callback`. -/
def busNewCallback (client : IMSDClient) : BusNew → Callback
  | .noBus => { client with qrtrBus := false }.exit
  | .noNode => { client with qrtrBus := true }.exit
  | .node => ⟨{ client with qrtrBus := true }, [.deviceNew], false⟩

/-- `qmi_device_ready`. -/
def qmiDeviceReady (client : IMSDClient) (created : Bool) : Callback :=
  if created then ⟨{ client with device := true }, [.deviceOpen], false⟩
  else { client with device := false }.exit

/-- `device_open_ready`. -/
def deviceOpenReady (client : IMSDClient) (opened : Bool) : Callback :=
  if opened then
    ⟨client, (List.finRange maxSimSlots).map (fun slot => .allocateClient (.wds slot)) ++
      [.allocateClient .nas, .allocateClient .pdc, .allocateClient .imsa, .allocateClient .dms,
        .allocateClient .ims, .allocateClient .imsrtp, .allocateClient .mfs], false⟩
  else client.exit

/-- The callback of an allocation: `started` is what it issues after a success, and `fatal` says
that a failure is one of the process. -/
def allocateClientReady (service : ServiceClient) (fatal : Bool) (started : List Operation)
    (client : IMSDClient) (allocated : Bool) : Callback :=
  let client (flag : UInt8) : IMSDClient :=
    { client with
      handle := Function.update client.handle service allocated
      ready := Function.update client.ready service flag }
  if allocated then ⟨client imsInitOk, started, false⟩ else ⟨client imsInitErr, [], fatal⟩

/-- `wds_allocate_client_ready`. -/
def wdsAllocateClientReady (slot : Fin maxSimSlots) : IMSDClient → Bool → Callback :=
  allocateClientReady (.wds slot) true []

/-- `nas_allocate_client_ready`, with `nas_start`. -/
def nasAllocateClientReady : IMSDClient → Bool → Callback :=
  allocateClientReady .nas true [.getHomeNetwork, .setEventReport, .registerIndications]

/-- `pdc_allocate_client_ready`; `pdc_start` works on a context of its own
(`ClientProcess.pdcStart`). -/
def pdcAllocateClientReady : IMSDClient → Bool → Callback := allocateClientReady .pdc true []

/-- `imsa_allocate_client_ready`, with the request of `imsa_start`. -/
def imsaAllocateClientReady : IMSDClient → Bool → Callback :=
  allocateClientReady .imsa true [.imsaBindSubscription]

/-- `dms_allocate_client_ready`, with `dms_start`. -/
def dmsAllocateClientReady : IMSDClient → Bool → Callback :=
  allocateClientReady .dms true [.getCapabilities, .indicationRegister]

/-- `imss_allocate_client_ready`, with `imss_start`. -/
def imssAllocateClientReady : IMSDClient → Bool → Callback :=
  allocateClientReady .ims true [.imsBind]

/-- `imsrtp_allocate_client_ready`: its failure is reported, and that is all. -/
def imsrtpAllocateClientReady : IMSDClient → Bool → Callback :=
  allocateClientReady .imsrtp false []

/-- `mfs_allocate_client_ready`, with `mfs_allocate`: the test of a write and of a read. -/
def mfsAllocateClientReady : IMSDClient → Bool → Callback :=
  allocateClientReady .mfs true [.storeEfsitem, .retrieveEfsitem]

/-- `get_home_network_ready`. -/
def getHomeNetworkReady (client : IMSDClient) : Reply Unit NetworkProviderData → Callback
  | .ok network => { client with currentCarrier := network }.prints
  | _ => client.prints

/-- `ims_attempt_bind_finish`. -/
def imsAttemptBindFinish (client : IMSDClient) : Reply Unit Unit → Callback
  | .ok _ => ⟨client, [.setImsServiceEnableConfig], false⟩
  | _ => client.prints

/-- `mfs_test_write_ready`. -/
def mfsTestWriteReady (client : IMSDClient) : Reply Unit (Option UInt32) → Callback
  | .ok (some errorCode) => if errorCode ≠ 0 then client.exit else client.prints
  | .ok none => client.prints
  | _ => client.exit

/-- `mfs_test_read_ready`: it ends in `exit`, whatever the reply. -/
def mfsTestReadReady (client : IMSDClient) : Reply Unit Unit → Callback
  | _ => client.exit

/-- The callback of a request. -/
def complete (client : IMSDClient) : Completion → Callback
  | .busNew outcome => client.busNewCallback outcome
  | .deviceNew created => client.qmiDeviceReady created
  | .deviceOpen opened => client.deviceOpenReady opened
  | .allocateClient (.wds slot) allocated => client.wdsAllocateClientReady slot allocated
  | .allocateClient .nas allocated => client.nasAllocateClientReady allocated
  | .allocateClient .pdc allocated => client.pdcAllocateClientReady allocated
  | .allocateClient .imsa allocated => client.imsaAllocateClientReady allocated
  | .allocateClient .dms allocated => client.dmsAllocateClientReady allocated
  | .allocateClient .ims allocated => client.imssAllocateClientReady allocated
  | .allocateClient .imsrtp allocated => client.imsrtpAllocateClientReady allocated
  | .allocateClient .mfs allocated => client.mfsAllocateClientReady allocated
  | .getHomeNetwork reply => client.getHomeNetworkReady reply
  | .imsBind reply => client.imsAttemptBindFinish reply
  | .storeEfsitem reply => client.mfsTestWriteReady reply
  | .retrieveEfsitem reply => client.mfsTestReadReady reply
  | _ => client.prints

/-- `wait_for_init`, which does not come further than the context of `imsa.c` if that is null. -/
def waitForInit (client : IMSDClient) (imsaCtx : Bool) : IMSDClient :=
  let client := { client with currentNetworkProvider := client.currentCarrier }
  -- `get_ims_services_state` and `get_registration_state`
  if imsaCtx then
    if client.ready .dms = imsInitOk ∧ client.ready .nas = imsInitOk ∧
        client.ready .ims = imsInitOk ∧ client.ready .imsa = imsInitOk then
      { client with isInitialized := 1 }
    else client
  else client

end IMSDClient

/-! ### What the callbacks do -/

/-- The requests that follow the allocation of a client. -/
def ServiceClient.requests : ServiceClient → List Operation
  | .nas => [.getHomeNetwork, .setEventReport, .registerIndications]
  | .imsa => [.imsaBindSubscription]
  | .dms => [.getCapabilities, .indicationRegister]
  | .ims => [.imsBind]
  | .mfs => [.storeEfsitem, .retrieveEfsitem]
  | _ => []

/-- The services. -/
def serviceClients : List ServiceClient :=
  (List.finRange maxSimSlots).map .wds ++ [.nas, .pdc, .imsa, .dms, .ims, .imsrtp, .mfs]

/-- The requests that a completion starts. -/
def Completion.starts : Completion → List Operation
  | .busNew .node => [.deviceNew]
  | .deviceNew true => [.deviceOpen]
  | .deviceOpen true => serviceClients.map .allocateClient
  | .allocateClient client true => client.requests
  | .imsBind (.ok _) => [.setImsServiceEnableConfig]
  | _ => []

/-- The process does not survive the completion. -/
def Completion.fatal : Completion → Bool
  | .busNew outcome => outcome ≠ .node
  | .deviceNew created => !created
  | .deviceOpen opened => !opened
  | .allocateClient client allocated => !allocated && client ≠ .imsrtp
  | .storeEfsitem (.ok errorCode) => errorCode.getD 0 ≠ 0
  | .storeEfsitem _ => true
  | .retrieveEfsitem _ => true
  | _ => false

/-- The carrier that a completion brings. -/
def Completion.homeNetwork? : Completion → Option NetworkProviderData
  | .getHomeNetwork (.ok network) => some network
  | _ => none

section Complete

variable (client : IMSDClient) (k : Completion)

theorem complete_started : (client.complete k).started = k.starts := by
  cases k with
  | busNew outcome => cases outcome <;> rfl
  | deviceNew created => cases created <;> rfl
  | deviceOpen opened => cases opened <;> rfl
  | allocateClient service allocated => cases service <;> cases allocated <;> rfl
  | getHomeNetwork reply => cases reply <;> rfl
  | imsBind reply => cases reply <;> rfl
  | storeEfsitem reply =>
    rcases reply with _ | _ | _ | errorCode
    · rfl
    · rfl
    · rfl
    · show Callback.started (if _ then _ else _) = []
      split_ifs <;> rfl
  | _ => rfl

theorem complete_exits : (client.complete k).exits = k.fatal := by
  cases k with
  | busNew outcome => cases outcome <;> rfl
  | deviceNew created => cases created <;> rfl
  | deviceOpen opened => cases opened <;> rfl
  | allocateClient service allocated => cases service <;> cases allocated <;> rfl
  | getHomeNetwork reply => cases reply <;> rfl
  | imsBind reply => cases reply <;> rfl
  | storeEfsitem reply =>
    rcases reply with _ | _ | _ | errorCode
    · rfl
    · rfl
    · rfl
    · show Callback.exits (if _ then _ else _) = decide (errorCode ≠ 0)
      split_ifs with h
      · exact (decide_eq_true h).symm
      · exact (decide_eq_false h).symm
  | _ => rfl

/-- **What a completion does to the memory.** -/
theorem complete_client :
    (client.complete k).client =
      { client with
        device := match k with
          | .deviceNew created => created
          | _ => client.device
        qrtrBus := match k with
          | .busNew outcome => outcome ≠ .noBus
          | _ => client.qrtrBus
        handle := match k with
          | .allocateClient service allocated => Function.update client.handle service allocated
          | _ => client.handle
        ready := match k with
          | .allocateClient service allocated =>
            Function.update client.ready service (if allocated then imsInitOk else imsInitErr)
          | _ => client.ready
        currentCarrier := k.homeNetwork?.getD client.currentCarrier } := by
  cases k with
  | busNew outcome => cases outcome <;> rfl
  | deviceNew created => cases created <;> rfl
  | deviceOpen opened => cases opened <;> rfl
  | allocateClient service allocated => cases service <;> cases allocated <;> rfl
  | getHomeNetwork reply => cases reply <;> rfl
  | imsBind reply => cases reply <;> rfl
  | storeEfsitem reply =>
    rcases reply with _ | _ | _ | errorCode
    · rfl
    · rfl
    · rfl
    · show Callback.client (if _ then _ else _) = _
      split_ifs <;> rfl
  | _ => rfl

end Complete

end Imsd
