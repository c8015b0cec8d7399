import Imsd.Lib.Bytes

/-!
# `wds.c`: bringing up a data session

A client goes through its bring-up by a bare counter, `connection_readiness_step`.  A timer calls
`getWdsReadyToConnect` again and again; it looks at the counter and issues at most one request to
libqmi.  The completion of a request calls the request's `…_ready` callback (`ready`), which may
move the counter and issue a further request.

* A `Request` carries what the code puts into it, except for the constants it always puts there.
* An `Answer` is what a callback gets from libqmi, as far as the code uses it: every getter may
  fail, so what it would return is an `Option`.
* The callbacks get the client and nothing else of the request they complete.

Two callbacks may use memory that was freed: that of get-profile-settings reads the profile list
after its release, and that of get-current-settings the error of a failed answer.  What they do
then is undefined; it is taken as the end of the process (`none`, and `ready` leaves the client
alone).
-/

namespace Imsd

/-! ### The steps -/

@[match_pattern] abbrev wdsConnectionGetProfiles : ℕ := 0
@[match_pattern] abbrev wdsConnectionFindProfileAddModify : ℕ := 1
@[match_pattern] abbrev wdsConnectionStateProfileReady : ℕ := 2
@[match_pattern] abbrev wdsConnectionStateSetupDataFormat : ℕ := 3
@[match_pattern] abbrev wdsConnectionStateSetupLink : ℕ := 4
@[match_pattern] abbrev wdsConnectionStateLinkBringup : ℕ := 5
@[match_pattern] abbrev wdsConnectionStateSetIpBearerMethod : ℕ := 6
@[match_pattern] abbrev wdsConnectionStateBindDataPortIpv4 : ℕ := 7
@[match_pattern] abbrev wdsConnectionStateSelectIpFamilyIpv4 : ℕ := 8
@[match_pattern] abbrev wdsConnectionStateDoStartNetworkIpv4 : ℕ := 9
@[match_pattern] abbrev wdsConnectionStateWaitForCompletionNetStartIpv4 : ℕ := 10
@[match_pattern] abbrev wdsConnectionStateRegisterWdsIndicationsIpv4 : ℕ := 11
@[match_pattern] abbrev wdsConnectionStateGetSettingsIpv4 : ℕ := 12
@[match_pattern] abbrev wdsConnectionStateBindDataPortIpv6 : ℕ := 13
@[match_pattern] abbrev wdsConnectionStateSelectIpFamilyIpv6 : ℕ := 14
@[match_pattern] abbrev wdsConnectionStateDoStartNetworkIpv6 : ℕ := 15
@[match_pattern] abbrev wdsConnectionStateEnableIndicationsIpv6 : ℕ := 16
@[match_pattern] abbrev wdsConnectionStateGetSettingsIpv6 : ℕ := 17
@[match_pattern] abbrev wdsConnectionStateFinished : ℕ := 99

/-- `APN_TYPE_MASK_IMS`. -/
def apnTypeMaskIms : UInt64 := 2

/-- `QMI_WDS_PROFILE_TYPE_3GPP`. -/
def qmiWdsProfileType3gpp : UInt8 := 0

/-- `QMI_DATA_ENDPOINT_TYPE_EMBEDDED`. -/
def qmiDataEndpointTypeEmbedded : UInt8 := 4

/-! ### Data -/

/-- An element of a profile list. -/
structure Profile where
  profileType : UInt8
  profileIndex : UInt8
  deriving DecidableEq

/-- `_Profile_List`.  It is released when its index has come to its end; a client that has not
stored a list has none, either (`ProfileList.live`). -/
structure ProfileList where
  i : ℕ
  profileList : List Profile

/-- The list has not been released. -/
def ProfileList.live (list : ProfileList) : Bool := decide (list.i < list.profileList.length)

/-- `_WDS_Client`, with the fields of its packet session. -/
structure WDSClient where
  slotId : UInt32
  profileId : UInt8
  packetDataHandle : UInt32
  connectionReadinessStep : ℕ
  ipAddress : List UInt8
  linkName : Option String
  muxId : UInt32
  setupLinkDone : Bool
  endpointType : UInt8
  endpointIfnum : UInt8
  profileList : ProfileList

/-- `connection_readiness_step = step`. -/
def WDSClient.setStep (client : WDSClient) (step : ℕ) : WDSClient :=
  { client with connectionReadinessStep := step }

/-- `connection_readiness_step++`, in eight bits. -/
def WDSClient.incStep (client : WDSClient) : WDSClient :=
  client.setStep ((client.connectionReadinessStep + 1) % 256)

/-- `connection_readiness_step--`, in eight bits. -/
def WDSClient.decStep (client : WDSClient) : WDSClient :=
  client.setStep ((client.connectionReadinessStep + 255) % 256)

/-- The requests to libqmi. -/
inductive Request
  | getProfileList (profileType : UInt8)
  | getProfileSettings (profileType profileIndex : UInt8)
  | createProfile
  | modifyProfile (pdpContextNumber : UInt8)
  | addLink
  | bindMuxDataPort (endpointType endpointIfnum : UInt8) (muxId : UInt32)
  | startNetwork (profileIndex : UInt8)
  | getCurrentSettings
  deriving DecidableEq

/-- What a callback changes, and the requests it issues. -/
structure Effect where
  client : WDSClient
  issued : List Request

/-- The output of a request: none, a failure, or a successful result. -/
inductive Reply (ε α : Type)
  | noOutput
  | error (e : ε)
  | ok (a : α)

/-- The output of a get-current-settings request: whether it succeeded, and the values that the
callback asks for. -/
structure CurrentSettings where
  result : Bool
  ipFamily : Option UInt8
  mtu : Option UInt32
  ipv4GatewaySubnetMask : Option UInt32
  ipv4Address : Option UInt32
  ipv4GatewayAddress : Option UInt32

/-! ### Profiles -/

/-- `wds_get_next_profile_settings`. -/
def wdsGetNextProfileSettings (client : WDSClient) : Effect :=
  match client.profileList.profileList[client.profileList.i]? with
  | none => ⟨if client.profileId = 0 then client.setStep wdsConnectionFindProfileAddModify
      else client, []⟩
  | some profile => ⟨client, [.getProfileSettings profile.profileType profile.profileIndex]⟩

/-- The part of `wds_get_profile_settings_ready` before it keeps on. -/
def takeProfile (client : WDSClient) (profile : Profile) (apnTypeMask : Option UInt64) :
    WDSClient :=
  if apnTypeMask = some apnTypeMaskIms then
    { client with
      profileId := profile.profileIndex
      connectionReadinessStep := wdsConnectionStateProfileReady }
  else client

/-- `wds_get_profile_settings_ready`; a success may come with an APN type mask.  A list whose index
is at its end was released. -/
def wdsGetProfileSettingsReady (client : WDSClient) (reply : Reply Unit (Option UInt64)) :
    Option Effect :=
  client.profileList.profileList[client.profileList.i]?.map fun profile =>
    match reply with
    | .ok apnTypeMask => keepOn (takeProfile client profile apnTypeMask)
    | _ => keepOn client
where
  /-- `inner_ctx->i++`, and the next profile. -/
  keepOn (client : WDSClient) : Effect :=
    let list := client.profileList
    wdsGetNextProfileSettings
      { client with profileList := { list with i := (list.i + 1) % 2 ^ 32 } }

/-- `wds_get_profile_list_ready`; a success may come with a list. -/
def wdsGetProfileListReady (client : WDSClient) : Reply Unit (Option (List Profile)) → Effect
  | .ok (some (profile :: profiles)) =>
    wdsGetNextProfileSettings { client with profileList := ⟨0, profile :: profiles⟩ }
  | .ok _ => ⟨client.setStep wdsConnectionFindProfileAddModify, []⟩
  | _ => ⟨client, []⟩

/-- `wds_add_new_profile_ready`; a success may come with a profile index. -/
def wdsAddNewProfileReady (client : WDSClient) : Reply Unit (Option UInt8) → WDSClient
  | .ok (some profileId) =>
    { client with profileId, connectionReadinessStep := wdsConnectionStateProfileReady }
  | _ => client

/-- `wds_modify_profile_by_id`: the step moves on before the answer is there. -/
def wdsModifyProfileById (client : WDSClient) (profileId : UInt8) : Effect :=
  ⟨client.setStep wdsConnectionStateProfileReady, [.modifyProfile profileId]⟩

/-! ### The link -/

def wdsQmiSetDataFormat (client : WDSClient) : WDSClient := client.incStep

/-- `wds_connection_setup_link_ready`; without a link there is no name, and no mux id is
stored. -/
def wdsConnectionSetupLinkReady (client : WDSClient) : Option (String × UInt32) → WDSClient
  | some (linkName, muxId) => { client with linkName := some linkName, muxId }.incStep
  | none => { client with linkName := none }

def wdsConnectionSetupLink (client : WDSClient) : Effect :=
  if client.setupLinkDone then ⟨client, []⟩ else ⟨{ client with setupLinkDone := true }, [.addLink]⟩

def wdsBindMuxDataPortReady (client : WDSClient) : Reply Unit Unit → WDSClient
  | .ok _ => client.incStep
  | _ => client

def wdsBindDataPort (client : WDSClient) : Effect :=
  let client :=
    { client with endpointIfnum := 1, endpointType := qmiDataEndpointTypeEmbedded }
  ⟨client, [.bindMuxDataPort client.endpointType client.endpointIfnum client.muxId]⟩

/-! ### The network -/

/-- `wds_start_network_ready`.  A failure says whether it is `CALL_FAILED`, a success may come
with a packet data handle. -/
def wdsStartNetworkReady (client : WDSClient) : Reply Bool (Option UInt32) → WDSClient
  | .noOutput => client.decStep
  | .error callFailed => (if callFailed then client.setStep 5 else client).incStep
  | .ok (some packetDataHandle) => { client with packetDataHandle }.incStep
  | .ok none => client.incStep

def wdsStartNetwork (client : WDSClient) : Effect :=
  ⟨client.incStep, [.startNetwork client.profileId]⟩

/-- The decimal digits of a number. -/
def decimal (n : ℕ) : List UInt8 := (Nat.toDigits 10 n).map fun c => UInt8.ofNat c.toNat

/-- `qmi_inet4_ntop`: the four bytes of the address, the highest first, between dots. -/
def qmiInet4Ntop (address : UInt32) : List UInt8 :=
  let a := address.toNat
  decimal (a / 2 ^ 24) ++ 46 :: decimal (a / 2 ^ 16 % 256) ++ 46 :: decimal (a / 2 ^ 8 % 256) ++
    46 :: decimal (a % 256)

/-- `memcpy(dest, src, strlen(src))`: what `dest` held behind the copied bytes stays there. -/
def memcpy (dest src : List UInt8) : List UInt8 := src ++ dest.drop src.length

/-- A value of the output, if it is there.  Where it is not, the callback prints and clears the
error of the getter; after a failed result that is an error which was freed before. -/
def CurrentSettings.get {α : Type} (output : CurrentSettings) (value : Option α) :
    Option (Option α) :=
  if value.isNone && !output.result then none else some value

/-- `wds_get_current_settings_ready`.  A failed result only leaves a message in the log; what
decides is whether the subnet mask and the address are there. -/
def wdsGetCurrentSettingsReady (client : WDSClient) : Option CurrentSettings → Option WDSClient
  -- the getters of an output that is not there report no error, and the freed one is used
  | none => none
  | some output => do
    let _ ← output.get output.ipFamily
    let _ ← output.get output.mtu
    match ← output.get output.ipv4GatewaySubnetMask with
    | none => return client
    | some _ =>
      match ← output.get output.ipv4Address with
      | none => return client
      | some addr =>
        let client := { client with ipAddress := memcpy client.ipAddress (qmiInet4Ntop addr) }
        let _ ← output.get output.ipv4GatewayAddress
        return client.incStep

/-! ### Answers -/

/-- What libqmi hands to the callback of a request. -/
inductive Answer
  | getProfileList (reply : Reply Unit (Option (List Profile)))
  | getProfileSettings (reply : Reply Unit (Option UInt64))
  | createProfile (reply : Reply Unit (Option UInt8))
  | modifyProfile (reply : Reply Unit Unit)
  | addLink (link : Option (String × UInt32))
  | bindMuxDataPort (reply : Reply Unit Unit)
  | startNetwork (reply : Reply Bool (Option UInt32))
  | getCurrentSettings (output : Option CurrentSettings)

/-- The answer is one to the request. -/
def Answer.answers : Answer → Request → Bool
  | .getProfileList _, .getProfileList _ => true
  | .getProfileSettings _, .getProfileSettings _ _ => true
  | .createProfile _, .createProfile => true
  | .modifyProfile _, .modifyProfile _ => true
  | .addLink _, .addLink => true
  | .bindMuxDataPort _, .bindMuxDataPort _ _ _ => true
  | .startNetwork _, .startNetwork _ => true
  | .getCurrentSettings _, .getCurrentSettings => true
  | _, _ => false

/-- The callback of a request, if the process survives it; that of a modify-profile request only
prints. -/
def ready? (client : WDSClient) : Answer → Option Effect
  | .getProfileList reply => some (wdsGetProfileListReady client reply)
  | .getProfileSettings reply => wdsGetProfileSettingsReady client reply
  | .createProfile reply => some ⟨wdsAddNewProfileReady client reply, []⟩
  | .modifyProfile _ => some ⟨client, []⟩
  | .addLink link => some ⟨wdsConnectionSetupLinkReady client link, []⟩
  | .bindMuxDataPort reply => some ⟨wdsBindMuxDataPortReady client reply, []⟩
  | .startNetwork reply => some ⟨wdsStartNetworkReady client reply, []⟩
  | .getCurrentSettings output => (wdsGetCurrentSettingsReady client output).map (⟨·, []⟩)

/-- What a callback leaves. -/
def ready (client : WDSClient) (answer : Answer) : Effect :=
  (ready? client answer).getD ⟨client, []⟩

/-! ### The timer -/

/-- What a call of the timer function does: the client and the requests, the arguments of
`notify_pdp_ipaddress_change` if it is called, and whether the timer stays. -/
structure Tick extends Effect where
  notified : Option (UInt32 × List UInt8)
  keep : Bool

/-- A tick that issues requests, or none. -/
def Effect.tick (e : Effect) : Tick := { e with notified := none, keep := true }

/-- A tick that only changes the client. -/
def WDSClient.tick (client : WDSClient) : Tick := Effect.tick ⟨client, []⟩

/-- `get_wds_ready_to_connect`. -/
def getWdsReadyToConnect (client : WDSClient) : Tick :=
  match client.connectionReadinessStep with
  | wdsConnectionGetProfiles => Effect.tick ⟨client, [.getProfileList qmiWdsProfileType3gpp]⟩
  | wdsConnectionFindProfileAddModify =>
    if client.profileId = 0 then Effect.tick ⟨client, [.createProfile]⟩
    else (wdsModifyProfileById client client.profileId).tick
  | wdsConnectionStateProfileReady => (client.setStep wdsConnectionStateSetupDataFormat).tick
  | wdsConnectionStateSetupDataFormat => (wdsQmiSetDataFormat client).tick
  | wdsConnectionStateSetupLink => (wdsConnectionSetupLink client).tick
  | wdsConnectionStateLinkBringup => client.incStep.tick
  | wdsConnectionStateSetIpBearerMethod => client.incStep.tick
  | wdsConnectionStateBindDataPortIpv4 => (wdsBindDataPort client).tick
  | wdsConnectionStateSelectIpFamilyIpv4 => client.incStep.tick
  | wdsConnectionStateDoStartNetworkIpv4 => (wdsStartNetwork client).tick
  | wdsConnectionStateWaitForCompletionNetStartIpv4 => client.tick
  | wdsConnectionStateRegisterWdsIndicationsIpv4 => client.incStep.tick
  | wdsConnectionStateGetSettingsIpv4 => Effect.tick ⟨client, [.getCurrentSettings]⟩
  | wdsConnectionStateBindDataPortIpv6 => (client.setStep wdsConnectionStateFinished).tick
  | wdsConnectionStateSelectIpFamilyIpv6 => client.tick
  | wdsConnectionStateDoStartNetworkIpv6 => client.tick
  | wdsConnectionStateEnableIndicationsIpv6 => client.tick
  | wdsConnectionStateGetSettingsIpv6 => client.tick
  | wdsConnectionStateFinished =>
    ⟨⟨client, []⟩, some (client.slotId, Bytes.cString client.ipAddress), false⟩
  -- no such step: the timer gives up
  | _ => ⟨⟨client, []⟩, none, false⟩

/-- `initiate_wds_session`; it also adds a timer. -/
def initiateWdsSession (client : WDSClient) (simSlot : UInt32) : WDSClient :=
  { client with
    muxId := 0
    connectionReadinessStep := wdsConnectionGetProfiles
    profileId := 0
    setupLinkDone := false
    packetDataHandle := 0xFFFFFFFF
    slotId := simSlot }

end Imsd
