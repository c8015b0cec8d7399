import Imsd.Lib.Trace
import Imsd.Wds

/-!
# One slot: its client, its timers and its requests

A `Slot` is a WDS client together with what the main loop and libqmi hold for it: how many timers
call `get_wds_ready_to_connect` for it, and which requests are still to be completed.  Its events
are

* `activate`: `request_network_start`, which sets the client up for a new session and adds a timer;
* `tick`: a call of one of the timers;
* `complete p answer`: the completion of a pending request.  libqmi completes a request once, and
  calls one callback at a time; the answer and the moment are up to libqmi.

A callback that the process does not survive (`Answer.survived`) is the last event.

That a request was issued for a certain session is known to nobody in the code; `Pending.session`
and `Label.session` only record it.

`step_activate_iff`, `step_tick_iff` and `step_complete_iff` say what each event can do; the
sections after them say what a tick and a callback can do to the client.
-/

namespace Imsd

open EventSystem

/-- A request, and the session (counted by activations) it was issued for. -/
structure Pending where
  session : ℕ
  request : Request
  deriving DecidableEq

/-- A slot; `sessions` counts its activations, and `crashed` says that one of its callbacks was
the end of the process. -/
structure Slot where
  client : WDSClient
  timers : ℕ
  pending : List Pending
  sessions : ℕ
  crashed : Bool

/-- The slot before its first activation; the memory of the client is not initialized. -/
def Slot.Idle (s : Slot) : Prop :=
  s.timers = 0 ∧ s.pending = [] ∧ s.sessions = 0 ∧ s.crashed = false

inductive SlotEvent
  | activate (simSlot : UInt32)
  | tick
  | complete (p : Pending) (answer : Answer)

/-- The answer that an event delivers. -/
def SlotEvent.answer? : SlotEvent → Option Answer
  | .complete _ answer => some answer
  | _ => none

/-- An activation. -/
def SlotEvent.activates : SlotEvent → Bool
  | .activate _ => true
  | _ => false

/-- An event as it happened: the session it happened in, and the arguments of
`notify_pdp_ipaddress_change` if it called that. -/
structure Label where
  event : SlotEvent
  session : ℕ
  notified : Option (UInt32 × List UInt8)

/-- The completion of a request of an earlier session. -/
def Label.stale (l : Label) : Bool :=
  match l.event with
  | .complete p _ => p.session ≠ l.session
  | _ => false

namespace Slot

/-- The slot after a callback: its requests are issued for the given session. -/
def issue (s : Slot) (session : ℕ) (e : Effect) : Slot :=
  { s with client := e.client, pending := s.pending ++ e.issued.map (⟨session, ·⟩) }

/-- `request_network_start`. -/
def activate (s : Slot) (simSlot : UInt32) : Slot :=
  { s with
    client := initiateWdsSession s.client simSlot
    timers := s.timers + 1
    sessions := s.sessions + 1 }

/-- A call of a timer, which is removed if the call says so. -/
def tick (s : Slot) : Slot :=
  { s.issue s.sessions (getWdsReadyToConnect s.client).toEffect with
    timers := if (getWdsReadyToConnect s.client).keep then s.timers else s.timers - 1 }

/-- The completion of a request. -/
def complete (s : Slot) (p : Pending) (answer : Answer) : Slot :=
  { { s with pending := s.pending.erase p }.issue p.session (ready s.client answer) with
    crashed := (ready? s.client answer).isNone }

/-- One event, if it can happen. -/
def step (s : Slot) (event : SlotEvent) : Option (Slot × Label) :=
  if s.crashed then none
  else match event with
    | .activate simSlot => some (s.activate simSlot, ⟨.activate simSlot, s.sessions, none⟩)
    | .tick =>
      if s.timers = 0 then none
      else some (s.tick, ⟨.tick, s.sessions, (getWdsReadyToConnect s.client).notified⟩)
    | .complete p answer =>
      if p ∈ s.pending ∧ answer.answers p.request then
        some (s.complete p answer, ⟨.complete p answer, s.sessions, none⟩)
      else none

/-- The step relation. -/
def Step (s : Slot) (l : Label) (s' : Slot) : Prop := s.step l.event = some (s', l)

variable {s s' : Slot} {l : Label}

theorem step_activate_iff {simSlot : UInt32} {session : ℕ}
    {notified : Option (UInt32 × List UInt8)} :
    s.Step ⟨.activate simSlot, session, notified⟩ s' ↔
      s.crashed = false ∧ s' = s.activate simSlot ∧ session = s.sessions ∧ notified = none := by
  unfold Step step
  dsimp only
  split_ifs with hcrashed
  · exact iff_of_false (by simp) fun h => by simp [hcrashed] at h
  · constructor
    · intro h
      cases h
      exact ⟨Bool.eq_false_of_not_eq_true hcrashed, rfl, rfl, rfl⟩
    · rintro ⟨-, rfl, rfl, rfl⟩
      rfl

theorem step_tick_iff {session : ℕ} {notified : Option (UInt32 × List UInt8)} :
    s.Step ⟨.tick, session, notified⟩ s' ↔
      s.crashed = false ∧ 0 < s.timers ∧ s' = s.tick ∧ session = s.sessions ∧
        notified = (getWdsReadyToConnect s.client).notified := by
  unfold Step step
  dsimp only
  split_ifs with hcrashed h0
  · exact iff_of_false (by simp) fun h => by simp [hcrashed] at h
  · exact iff_of_false (by simp) fun h => by omega
  · constructor
    · intro h
      cases h
      exact ⟨Bool.eq_false_of_not_eq_true hcrashed, Nat.pos_of_ne_zero h0, rfl, rfl, rfl⟩
    · rintro ⟨-, -, rfl, rfl, rfl⟩
      rfl

theorem step_complete_iff {p : Pending} {answer : Answer} {session : ℕ}
    {notified : Option (UInt32 × List UInt8)} :
    s.Step ⟨.complete p answer, session, notified⟩ s' ↔
      s.crashed = false ∧ (p ∈ s.pending ∧ answer.answers p.request) ∧
        s' = s.complete p answer ∧ session = s.sessions ∧ notified = none := by
  unfold Step step
  dsimp only
  split_ifs with hcrashed hp
  · exact iff_of_false (by simp) fun h => by simp [hcrashed] at h
  · constructor
    · intro h
      cases h
      exact ⟨Bool.eq_false_of_not_eq_true hcrashed, hp, rfl, rfl, rfl⟩
    · rintro ⟨-, -, rfl, rfl, rfl⟩
      rfl
  · exact iff_of_false (by simp) fun h => hp h.2.1

/-- Nothing happens after the end of the process. -/
theorem alive_of_step (h : s.Step l s') : s.crashed = false := by
  obtain ⟨event, session, notified⟩ := l
  cases event with
  | activate simSlot => exact (step_activate_iff.1 h).1
  | tick => exact (step_tick_iff.1 h).1
  | complete p answer => exact (step_complete_iff.1 h).1

/-- The first event is an activation. -/
theorem Idle.step (h : s.Idle) (hs : s.Step l s') :
    ∃ simSlot, l = ⟨.activate simSlot, 0, none⟩ ∧ s' = s.activate simSlot := by
  obtain ⟨h0, hp, hn, -⟩ := h
  obtain ⟨event, session, notified⟩ := l
  cases event with
  | activate simSlot =>
    obtain ⟨-, rfl, rfl, rfl⟩ := step_activate_iff.1 hs
    exact ⟨simSlot, by rw [hn], rfl⟩
  | tick =>
    obtain ⟨-, hpos, -⟩ := step_tick_iff.1 hs
    omega
  | complete p answer =>
    obtain ⟨-, ⟨hmem, -⟩, -⟩ := step_complete_iff.1 hs
    rw [hp] at hmem
    exact absurd hmem List.not_mem_nil

theorem event_of_step_eq {e : SlotEvent} (h : s.step e = some (s', l)) : l.event = e := by
  unfold step at h
  cases e with
  | activate simSlot =>
    dsimp only at h
    split_ifs at h
    cases h; rfl
  | tick =>
    dsimp only at h
    split_ifs at h
    cases h; rfl
  | complete p a =>
    dsimp only at h
    split_ifs at h
    cases h; rfl

theorem step_of_step_eq {e : SlotEvent} (h : s.step e = some (s', l)) : s.Step l s' := by
  rw [Step, event_of_step_eq h, h]

end Slot

/-! ### What a tick can do -/

section Tick

variable (client : WDSClient)

/-- A tick notifies at the last step, and there only. -/
theorem tick_notified :
    (getWdsReadyToConnect client).notified =
      if client.connectionReadinessStep = 99 then
        some (client.slotId, Bytes.cString client.ipAddress) else none := by
  unfold getWdsReadyToConnect
  split <;> simp_all [Effect.tick, WDSClient.tick]
  split_ifs <;> rfl

/-- The timer stays while the step is one of those before the last. -/
theorem tick_keep :
    (getWdsReadyToConnect client).keep = decide (client.connectionReadinessStep ≤ 17) := by
  unfold getWdsReadyToConnect
  split <;> simp_all [Effect.tick, WDSClient.tick]
  · split_ifs <;> rfl
  · omega

/-- The timers after a tick. -/
theorem Slot.tick_timers (s : Slot) :
    s.tick.timers = if s.client.connectionReadinessStep ≤ 17 then s.timers else s.timers - 1 := by
  show (if (getWdsReadyToConnect s.client).keep then s.timers else s.timers - 1) = _
  rw [tick_keep]
  simp only [decide_eq_true_eq]

/-- The fields that a tick leaves alone. -/
theorem tick_client : ∃ step done endpointType endpointIfnum,
    (getWdsReadyToConnect client).client =
      { client with
        connectionReadinessStep := step
        setupLinkDone := done
        endpointType := endpointType
        endpointIfnum := endpointIfnum } := by
  obtain ⟨slotId, profileId, handle, step, ip, name, mux, done, type, ifnum, list⟩ := client
  unfold getWdsReadyToConnect
  split
  case h_2 => dsimp only; split_ifs <;> exact ⟨_, _, _, _, rfl⟩
  case h_5 =>
    simp only [wdsConnectionSetupLink]
    split_ifs <;> exact ⟨_, _, _, _, rfl⟩
  all_goals exact ⟨_, _, _, _, rfl⟩

/-- The step after a tick. -/
theorem tick_step :
    (getWdsReadyToConnect client).client.connectionReadinessStep =
      if client.connectionReadinessStep = 1 ∧ client.profileId ≠ 0 then 2
      else if client.connectionReadinessStep ∈ [2, 3, 5, 6, 8, 9, 11] then
        client.connectionReadinessStep + 1
      else if client.connectionReadinessStep = 13 then 99
      else client.connectionReadinessStep := by
  unfold getWdsReadyToConnect
  split <;> simp_all [Effect.tick, WDSClient.tick, WDSClient.setStep, WDSClient.incStep,
    wdsModifyProfileById, wdsQmiSetDataFormat, wdsBindDataPort, wdsStartNetwork]
  -- the two steps at which a tick looks at another field
  · split_ifs <;> simp_all
  · unfold wdsConnectionSetupLink
    split_ifs <;> simp_all

end Tick

/-! ### What a callback can do -/

section Ready

variable (client : WDSClient) (answer : Answer)

/-- The packet data handle that a start-network answer brings. -/
def Answer.startedHandle? : Answer → Option UInt32
  | .startNetwork (.ok handle) => handle
  | _ => none

/-- The callback gets through: no value is missing after a failed result. -/
def CurrentSettings.survived (output : CurrentSettings) : Bool :=
  output.result || output.ipFamily.isSome && output.mtu.isSome &&
    output.ipv4GatewaySubnetMask.isSome && output.ipv4Address.isSome &&
    output.ipv4GatewayAddress.isSome

/-- The address that the callback stores on its way to the next step. -/
def CurrentSettings.address? (output : CurrentSettings) : Option UInt32 :=
  if output.survived && output.ipv4GatewaySubnetMask.isSome then output.ipv4Address else none

/-- The address of the answer to a get-current-settings request. -/
def Answer.address? : Answer → Option UInt32
  | .getCurrentSettings output => output.bind CurrentSettings.address?
  | _ => none

/-- The address that a successful get-current-settings answer brings, with a subnet mask. -/
def Answer.settledAddress? : Answer → Option UInt32
  | .getCurrentSettings (some output) => if output.result then output.address? else none
  | _ => none

/-- The process survives the callback. -/
def Answer.survived (client : WDSClient) : Answer → Bool
  | .getProfileSettings _ => client.profileList.live
  | .getCurrentSettings output => output.any CurrentSettings.survived
  | _ => true

/-- A start-network answer that reports an error. -/
def Answer.startFails : Answer → Bool
  | .startNetwork (.error _) => true
  | _ => false

/-- The settings of an IMS profile. -/
def Reply.ims : Reply Unit (Option UInt64) → Bool
  | .ok mask => mask = some apnTypeMaskIms
  | _ => false

/-- The answers on which the counter goes up by one. -/
def Answer.increments : Answer → Bool
  | .addLink (some _) => true
  | .bindMuxDataPort (.ok _) => true
  | .startNetwork (.ok _) => true
  | .startNetwork (.error callFailed) => !callFailed
  | .getCurrentSettings output => (output.bind CurrentSettings.address?).isSome
  | _ => false

/-- The answer on which the counter goes down. -/
def Answer.decrements : Answer → Bool
  | .startNetwork .noOutput => true
  | _ => false

/-- The step after a callback that found it at `step`: a step of the callback's own choice, the
next one, the one before, or the same. -/
inductive CallbackStep (answer : Answer) (step : ℕ) : ℕ → Prop
  | stays : CallbackStep answer step step
  | addModify : CallbackStep answer step 1
  | profileReady : CallbackStep answer step 2
  | again : CallbackStep answer step 6
  | up : answer.increments = true → CallbackStep answer step ((step + 1) % 256)
  | down : answer.decrements = true → CallbackStep answer step ((step + 255) % 256)

/-- A bound that holds before a callback holds after it, when the answer neither increments the
step at the bound nor decrements it at `0`. -/
theorem CallbackStep.le {answer : Answer} {step step' : ℕ} (h : CallbackStep answer step step')
    {n : ℕ} (hn : 6 ≤ n) (hle : step ≤ n) (hup : step = n → answer.increments ≠ true)
    (hdown : step = 0 → answer.decrements ≠ true) : step' ≤ n := by
  cases h with
  | stays => exact hle
  | addModify => omega
  | profileReady => omega
  | again => exact hn
  | up hinc =>
    have hne : step ≠ n := fun he => hup he hinc
    exact (Nat.mod_le _ _).trans (by omega)
  | down hdec =>
    have hne : step ≠ 0 := fun he => hdown he hdec
    rw [show step + 255 = step - 1 + 256 by omega, Nat.add_mod_right]
    exact (Nat.mod_le _ _).trans (by omega)

theorem nextProfileSettings_client :
    (wdsGetNextProfileSettings client).client = client ∨
      (wdsGetNextProfileSettings client).client = client.setStep 1 ∧ client.profileId = 0 := by
  unfold wdsGetNextProfileSettings
  split
  · dsimp only
    split_ifs with h0
    · exact Or.inr ⟨rfl, h0⟩
    · exact Or.inl rfl
  · exact Or.inl rfl

/-- At the end of the list the step changes if no profile was taken. -/
theorem nextProfileSettings_step :
    (wdsGetNextProfileSettings client).client.connectionReadinessStep =
      if (client.profileList.profileList[client.profileList.i]?).isNone ∧ client.profileId = 0
      then 1 else client.connectionReadinessStep := by
  unfold wdsGetNextProfileSettings
  cases client.profileList.profileList[client.profileList.i]? with
  | none => by_cases h0 : client.profileId = 0 <;> simp [h0, WDSClient.setStep]
  | some profile => simp

/-- The end of a chain of profiles. -/
theorem keepOn_step :
    (wdsGetProfileSettingsReady.keepOn client).client.connectionReadinessStep =
      if (client.profileList.profileList[(client.profileList.i + 1) % 2 ^ 32]?).isNone ∧
        client.profileId = 0 then 1 else client.connectionReadinessStep :=
  nextProfileSettings_step _

/-- A list of profiles is stored. -/
theorem ready_profiles (profile : Profile) (profiles : List Profile) :
    ready client (.getProfileList (.ok (some (profile :: profiles)))) =
      wdsGetNextProfileSettings { client with profileList := ⟨0, profile :: profiles⟩ } := rfl

/-- What the answer to a get-profile-list request touches. -/
theorem getProfileList_client (reply : Reply Unit (Option (List Profile))) :
    ∃ step list, (step = client.connectionReadinessStep ∨ step = 1) ∧
      (ready client (.getProfileList reply)).client =
        { client with connectionReadinessStep := step, profileList := list } := by
  rcases reply with _ | _ | (_ | _ | ⟨profile, profiles⟩)
  · exact ⟨_, _, Or.inl rfl, rfl⟩
  · exact ⟨_, _, Or.inl rfl, rfl⟩
  · exact ⟨1, client.profileList, Or.inr rfl, rfl⟩
  · exact ⟨1, client.profileList, Or.inr rfl, rfl⟩
  · rw [ready_profiles]
    rcases nextProfileSettings_client _ with h | ⟨h, -⟩
    · exact ⟨_, _, Or.inl rfl, h⟩
    · exact ⟨1, _, Or.inr rfl, h⟩

theorem takeProfile_client (profile : Profile) (mask : Option UInt64) :
    takeProfile client profile mask = client ∨
      ∃ profileId, takeProfile client profile mask =
        { client with connectionReadinessStep := 2, profileId } := by
  unfold takeProfile
  split_ifs
  · exact Or.inr ⟨_, rfl⟩
  · exact Or.inl rfl

/-- The APN type mask that a successful answer brings. -/
def Reply.mask : Reply Unit (Option UInt64) → Option UInt64
  | .ok mask => mask
  | _ => none

theorem Reply.ims_eq_decide (reply : Reply Unit (Option UInt64)) :
    reply.ims = decide (reply.mask = some apnTypeMaskIms) := by
  cases reply <;> rfl

/-- The callback of a settings request keeps on, whatever the outcome, if its list is there. -/
theorem settingsReady_eq (reply : Reply Unit (Option UInt64)) :
    wdsGetProfileSettingsReady client reply =
      client.profileList.profileList[client.profileList.i]?.map fun profile =>
        wdsGetProfileSettingsReady.keepOn (takeProfile client profile reply.mask) := by
  cases reply <;> rfl

/-- An IMS profile is taken. -/
theorem takeProfile_of_ims {reply : Reply Unit (Option UInt64)} (h : reply.ims = true)
    (profile : Profile) :
    takeProfile client profile reply.mask =
      { client with
        profileId := profile.profileIndex
        connectionReadinessStep := wdsConnectionStateProfileReady } := by
  rw [Reply.ims_eq_decide, decide_eq_true_eq] at h
  exact if_pos h

/-- No other profile is. -/
theorem takeProfile_of_not_ims {reply : Reply Unit (Option UInt64)} (h : reply.ims = false)
    (profile : Profile) : takeProfile client profile reply.mask = client := by
  rw [Reply.ims_eq_decide, decide_eq_false_iff_not] at h
  exact if_neg h

theorem ProfileList.live_iff (list : ProfileList) :
    list.live = true ↔ ∃ profile, list.profileList[list.i]? = some profile := by
  rw [ProfileList.live, decide_eq_true_eq]
  exact ⟨fun h => ⟨_, List.getElem?_eq_getElem h⟩,
    fun ⟨_, h⟩ => (List.getElem?_eq_some_iff.1 h).1⟩

theorem ProfileList.live_eq_false_iff (list : ProfileList) :
    list.live = false ↔ list.profileList[list.i]? = none := by
  rw [ProfileList.live, decide_eq_false_iff_not, not_lt, List.getElem?_eq_none_iff]

/-- The callback of a settings request, on a list that is there. -/
theorem ready_settings {profile : Profile}
    (h : client.profileList.profileList[client.profileList.i]? = some profile)
    (reply : Reply Unit (Option UInt64)) :
    ready client (.getProfileSettings reply) =
      wdsGetProfileSettingsReady.keepOn (takeProfile client profile reply.mask) := by
  rw [ready, ready?, settingsReady_eq, h]
  rfl

/-- The client with an address stored, one step on. -/
def WDSClient.settle (client : WDSClient) : Option UInt32 → WDSClient
  | some addr =>
    { client with ipAddress := memcpy client.ipAddress (qmiInet4Ntop addr) }.incStep
  | none => client

/-- The callback of a get-current-settings request. -/
theorem currentSettingsReady_eq (output : Option CurrentSettings) :
    wdsGetCurrentSettingsReady client output =
      if output.any CurrentSettings.survived then
        some (client.settle (output.bind CurrentSettings.address?)) else none := by
  rcases output with _ | ⟨_ | _, _ | _, _ | _, _ | _, _ | _, _ | _⟩ <;> rfl

theorem ready?_isNone : (ready? client answer).isNone = !answer.survived client := by
  cases answer with
  | getProfileSettings reply =>
    show (wdsGetProfileSettingsReady client reply).isNone = !client.profileList.live
    rw [settingsReady_eq]
    cases hlive : client.profileList.live with
    | false => rw [(ProfileList.live_eq_false_iff _).1 hlive]; rfl
    | true =>
      obtain ⟨profile, hprofile⟩ := (ProfileList.live_iff _).1 hlive
      rw [hprofile]
      rfl
  | getCurrentSettings output =>
    show ((wdsGetCurrentSettingsReady client output).map _).isNone =
      !output.any CurrentSettings.survived
    rw [currentSettingsReady_eq]
    cases output.any CurrentSettings.survived <;> rfl
  | _ => rfl

/-- A callback that is not survived leaves the client alone. -/
theorem ready_of_not_survived (h : answer.survived client = false) :
    ready client answer = ⟨client, []⟩ := by
  have hnone := ready?_isNone client answer
  rw [h, Bool.not_false, Option.isNone_iff_eq_none] at hnone
  rw [ready, hnone]
  rfl

theorem ready_released (h : client.profileList.profileList[client.profileList.i]? = none)
    (reply : Reply Unit (Option UInt64)) :
    ready client (.getProfileSettings reply) = ⟨client, []⟩ :=
  ready_of_not_survived client _ ((ProfileList.live_eq_false_iff _).2 h)

theorem ready_getCurrentSettings (output : Option CurrentSettings) :
    ready client (.getCurrentSettings output) =
      ⟨client.settle (output.bind CurrentSettings.address?), []⟩ := by
  rw [ready, ready?, currentSettingsReady_eq]
  cases hs : output.any CurrentSettings.survived with
  | true => rfl
  | false =>
    cases output with
    | none => rfl
    | some output =>
      have hnone : output.address? = none := by
        unfold CurrentSettings.address?
        rw [show output.survived = false from hs]
        rfl
      rw [Option.bind_some, hnone]
      rfl

/-- What the answer to a get-profile-settings request touches. -/
theorem getProfileSettings_client (reply : Reply Unit (Option UInt64)) :
    ∃ step profileId list,
      (step = client.connectionReadinessStep ∨ step = 1 ∨ step = 2) ∧
      (ready client (.getProfileSettings reply)).client =
        { client with connectionReadinessStep := step, profileId, profileList := list } := by
  cases hprofile : client.profileList.profileList[client.profileList.i]? with
  | none => exact ⟨_, _, _, Or.inl rfl, by rw [ready_released client hprofile]⟩
  | some profile =>
    rw [ready_settings client hprofile]
    have hkeep : ∀ c : WDSClient, ∃ step list, (step = c.connectionReadinessStep ∨ step = 1) ∧
        (wdsGetProfileSettingsReady.keepOn c).client =
          { c with connectionReadinessStep := step, profileList := list } := by
      intro c
      unfold wdsGetProfileSettingsReady.keepOn
      rcases nextProfileSettings_client _ with h | ⟨h, -⟩
      · exact ⟨_, _, Or.inl rfl, h⟩
      · exact ⟨1, _, Or.inr rfl, h⟩
    obtain ⟨step, list, hstep, h⟩ := hkeep (takeProfile client profile reply.mask)
    rcases takeProfile_client client profile reply.mask with ht | ⟨profileId, ht⟩ <;>
      rw [ht] at h hstep <;> rw [ht]
    · exact ⟨step, _, list, hstep.imp_right Or.inl, h⟩
    · exact ⟨step, profileId, list, Or.inr hstep.symm, h⟩

/-- **What a callback does to the step.** -/
theorem ready_step :
    CallbackStep answer client.connectionReadinessStep
      (ready client answer).client.connectionReadinessStep := by
  cases answer with
  | getProfileList reply =>
    obtain ⟨step, list, rfl | rfl, h⟩ := getProfileList_client client reply <;>
      rw [h]
    · exact .stays
    · exact .addModify
  | getProfileSettings reply =>
    obtain ⟨step, profileId, list, rfl | rfl | rfl, h⟩ :=
      getProfileSettings_client client reply <;> rw [h]
    · exact .stays
    · exact .addModify
    · exact .profileReady
  | createProfile reply =>
    rcases reply with _ | _ | (_ | _)
    · exact .stays
    · exact .stays
    · exact .stays
    · exact .profileReady
  | modifyProfile reply => exact .stays
  | addLink link =>
    rcases link with _ | _
    · exact .stays
    · exact .up rfl
  | bindMuxDataPort reply =>
    rcases reply with _ | _ | _
    · exact .stays
    · exact .stays
    · exact .up rfl
  | startNetwork reply =>
    rcases reply with _ | (_ | _) | (_ | _)
    · exact .down rfl
    · exact .up rfl
    · exact .again
    · exact .up rfl
    · exact .up rfl
  | getCurrentSettings output =>
    rw [ready_getCurrentSettings]
    cases haddr : output.bind CurrentSettings.address? with
    | none => exact .stays
    | some addr => exact .up (by rw [Answer.increments, haddr]; rfl)

/-- The fields that a callback leaves alone; the handle is the one that the answer brings. -/
theorem ready_client : ∃ step profileId ipAddress linkName muxId profileList,
    (ready client answer).client =
      { client with
        connectionReadinessStep := step
        profileId := profileId
        packetDataHandle := answer.startedHandle?.getD client.packetDataHandle
        ipAddress := ipAddress
        linkName := linkName
        muxId := muxId
        profileList := profileList } := by
  cases answer with
  | getProfileList reply =>
    obtain ⟨step, list, -, h⟩ := getProfileList_client client reply
    exact ⟨step, _, _, _, _, list, h⟩
  | getProfileSettings reply =>
    obtain ⟨step, profileId, list, -, h⟩ := getProfileSettings_client client reply
    exact ⟨step, profileId, _, _, _, list, h⟩
  | createProfile reply => rcases reply with _ | _ | (_ | _) <;> exact ⟨_, _, _, _, _, _, rfl⟩
  | modifyProfile reply => exact ⟨_, _, _, _, _, _, rfl⟩
  | addLink link => rcases link with _ | _ <;> exact ⟨_, _, _, _, _, _, rfl⟩
  | bindMuxDataPort reply => rcases reply with _ | _ | _ <;> exact ⟨_, _, _, _, _, _, rfl⟩
  | startNetwork reply =>
    rcases reply with _ | (_ | _) | (_ | _) <;> exact ⟨_, _, _, _, _, _, rfl⟩
  | getCurrentSettings output =>
    rw [ready_getCurrentSettings]
    cases output.bind CurrentSettings.address? <;> exact ⟨_, _, _, _, _, _, rfl⟩

/-- A callback stores the handle that the answer brings. -/
theorem ready_handle :
    (ready client answer).client.packetDataHandle =
      answer.startedHandle?.getD client.packetDataHandle := by
  obtain ⟨step, profileId, ipAddress, linkName, muxId, profileList, h⟩ :=
    ready_client client answer
  rw [h]

theorem ready_slotId : (ready client answer).client.slotId = client.slotId := by
  obtain ⟨step, profileId, ipAddress, linkName, muxId, profileList, h⟩ :=
    ready_client client answer
  rw [h]

theorem ready_address {addr : UInt32} (h : answer.address? = some addr) :
    (ready client answer).client.ipAddress = memcpy client.ipAddress (qmiInet4Ntop addr) := by
  cases answer with
  | getCurrentSettings output =>
    rw [ready_getCurrentSettings, show output.bind CurrentSettings.address? = some addr from h]
    rfl
  | _ => cases h

theorem Answer.address?_of_settled {addr : UInt32} (h : answer.settledAddress? = some addr) :
    answer.address? = some addr := by
  unfold Answer.settledAddress? at h
  split at h
  · split_ifs at h
    exact h
  · cases h

/-- A callback stores the address that a successful get-current-settings answer brings. -/
theorem ready_ipAddress {addr : UInt32} (h : answer.settledAddress? = some addr) :
    qmiInet4Ntop addr <+: (ready client answer).client.ipAddress := by
  rw [ready_address client answer (answer.address?_of_settled h)]
  exact ⟨_, rfl⟩

end Ready

/-! ### A bring-up, event by event -/

/-- A slot before its first activation. -/
def freshSlot : Slot := ⟨⟨0, 0, 0, 0, [], none, 0, false, 0, 0, ⟨0, []⟩⟩, 0, [], 0, false⟩

/-- The runs of a fresh slot that were simulated. -/
theorem run_of_simulate {ok : List Label → Slot → Label → Bool}
    {G : List Label → Slot → Label → Prop} (hok : ∀ tr s l, ok tr s l = true → G tr s l)
    {events : List SlotEvent} {r : List Label × Slot}
    (h : simulate Slot.step ok [] freshSlot events = some r) :
    Run Slot.Idle Slot.Step G r.1 r.2 := by
  have hstart : Run Slot.Idle Slot.Step G [] freshSlot := .start ⟨rfl, rfl, rfl, rfl⟩
  exact hstart.simulate h fun tr s _ _ l hs hl => ⟨hok tr s l hl, Slot.step_of_step_eq hs⟩

/-- The answer to a get-current-settings request that has everything. -/
def currentSettings (addr : UInt32) : Answer :=
  .getCurrentSettings (some ⟨true, some 4, some 1500, some 0xFFFFFF00, some addr, some addr⟩)

/-- One activation of slot `0` up to the last step, with a given answer to start-network. -/
def bringUp (start : Reply Bool (Option UInt32)) : List SlotEvent :=
  [.activate 0, .tick,
    .complete ⟨1, .getProfileList 0⟩ (.getProfileList (.ok (some [⟨0, 3⟩]))),
    .complete ⟨1, .getProfileSettings 0 3⟩ (.getProfileSettings (.ok (some 2))),
    .tick, .tick, .tick,
    .complete ⟨1, .addLink⟩ (.addLink (some ("qmapmux0.0", 1))),
    .tick, .tick, .tick,
    .complete ⟨1, .bindMuxDataPort 4 1 1⟩ (.bindMuxDataPort (.ok ⟨⟩)),
    .tick, .tick,
    .complete ⟨1, .startNetwork 3⟩ (.startNetwork start),
    .tick, .tick,
    .complete ⟨1, .getCurrentSettings⟩ (currentSettings 0x0A000001),
    .tick]

end Imsd
