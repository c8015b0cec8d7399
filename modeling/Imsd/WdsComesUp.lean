import Imsd.WdsOutstanding
import Imsd.WdsDesign
import Imsd.WdsProfiles

/-!
# A modem that cooperates

When the modem grants every request (`Answer.granted`; the settings of single profiles may fail),
and each tick comes when nothing is in flight, the bring-up comes to its end: `comes_up` says that
it goes on until `notify_pdp_ipaddress_change` is called, that this takes 14 ticks at most, and
that the number of events is bounded by the profiles that were listed.

The bound is a count of the ticks still to come: by the step (`ticksLeft`) when nothing is in
flight, and by the request (`RequestKind.left`) otherwise.  A tick takes one off, and a completion
does not add any.
-/

namespace Imsd

open EventSystem

/-! ### Cooperation -/

/-- The modem grants the request.  A `GArray` has less than `2 ^ 32` elements. -/
def Answer.granted : Answer → Bool
  | .getProfileList (.ok profiles) => (profiles.getD []).length < 2 ^ 32
  | .getProfileSettings _ => true
  | .createProfile (.ok profileId) => profileId.isSome
  | .modifyProfile _ => true
  | .addLink link => link.isSome
  | .bindMuxDataPort (.ok _) => true
  | .startNetwork (.ok _) => true
  | .getCurrentSettings (some output) =>
    output.result && output.ipv4GatewaySubnetMask.isSome && output.ipv4Address.isSome
  | _ => false

/-- An answer that grants the request. -/
def Request.grant : Request → Answer
  | .getProfileList _ => .getProfileList (.ok none)
  | .getProfileSettings _ _ => .getProfileSettings .noOutput
  | .createProfile => .createProfile (.ok (some 1))
  | .modifyProfile _ => .modifyProfile .noOutput
  | .addLink => .addLink (some ("", 0))
  | .bindMuxDataPort _ _ _ => .bindMuxDataPort (.ok ⟨⟩)
  | .startNetwork _ => .startNetwork (.ok none)
  | .getCurrentSettings => .getCurrentSettings (some ⟨true, none, none, some 0, some 0, none⟩)

theorem answers_grant (r : Request) : r.grant.answers r = true := by cases r <;> rfl

theorem granted_grant (r : Request) : r.grant.granted = true := by cases r <;> rfl

theorem foreseen_of_granted {a : Answer} (h : a.granted = true) : a.foreseen = true := by
  cases a with
  | startNetwork reply =>
    cases reply with
    | error => cases h
    | _ => rfl
  | getCurrentSettings output =>
    cases output with
    | none => cases h
    | some output =>
      rw [Answer.granted, Bool.and_eq_true, Bool.and_eq_true] at h
      rw [Answer.foreseen, h.1.1, Bool.true_or]
  | _ => rfl

/-- The settings that are granted have an address. -/
theorem address_of_granted {output : Option CurrentSettings}
    (h : (Answer.getCurrentSettings output).granted = true) :
    output.any CurrentSettings.survived = true ∧
      ∃ addr, output.bind CurrentSettings.address? = some addr := by
  cases output with
  | none => cases h
  | some output =>
    rw [Answer.granted, Bool.and_eq_true, Bool.and_eq_true] at h
    obtain ⟨⟨hresult, hmask⟩, haddr⟩ := h
    obtain ⟨addr, haddr⟩ := Option.isSome_iff_exists.1 haddr
    have hsurvived : output.survived = true := by
      rw [CurrentSettings.survived, hresult, Bool.true_or]
    refine ⟨hsurvived, addr, ?_⟩
    rw [Option.bind_some, CurrentSettings.address?, hsurvived, hmask]
    exact haddr

/-- A step of the schedule with a modem that grants every request. -/
def CooperativeStep (s : Slot) (l : Label) (s' : Slot) : Prop :=
  (∀ a ∈ l.event.answer?, a.granted = true) ∧ ScheduledStep s l s'

/-- The profiles that an answer lists. -/
def Answer.listed : Answer → List Profile
  | .getProfileList (.ok (some profiles)) => profiles
  | _ => []

/-- The number of the profiles that were listed. -/
def listed (tr : List Label) : ℕ :=
  (tr.map fun l => (l.event.answer?.map fun a => a.listed.length).getD 0).sum

theorem listed_snoc (tr : List Label) (l : Label) :
    listed (tr ++ [l]) =
      listed tr + (l.event.answer?.map fun a => a.listed.length).getD 0 := by
  simp [listed]

def Label.isTick (l : Label) : Bool :=
  match l.event with
  | .tick => true
  | _ => false

/-! ### Ticks to come -/

/-- The ticks to come when a tick finds the counter at this step. -/
def ticksLeft : ℕ → ℕ
  | 0 => 14
  | 1 => 13
  | 2 => 12
  | 3 => 11
  | 4 => 10
  | 5 => 9
  | 6 => 8
  | 7 => 7
  | 8 => 6
  | 9 => 5
  | 11 => 4
  | 12 => 3
  | 13 => 2
  | 99 => 1
  | _ => 0

/-- The ticks to come after the answer to a request. -/
def RequestKind.left : RequestKind → ℕ
  | .getProfileList | .getProfileSettings => 13
  | .createProfile | .modifyProfile => 12
  | .addLink => 9
  | .bindMuxDataPort => 6
  | .startNetwork => 4
  | .getCurrentSettings => 2

/-- The ticks to come, by the requests in flight and the step. -/
def leftAfter (requests : List Request) (step : ℕ) : ℕ :=
  match requests with
  | [] => ticksLeft step
  | r :: _ => r.kind.left

/-- The ticks to come after a tick or a callback. -/
def Effect.left (e : Effect) : ℕ := leftAfter e.issued e.client.connectionReadinessStep

/-- The link has not been asked for, up to the step that does. -/
def WDSClient.Unlinked (client : WDSClient) : Prop :=
  client.connectionReadinessStep ≤ 4 → client.setupLinkDone = false

/-- The index of the profile whose settings are asked for is one of the list. -/
def Indexed (requests : List Request) (list : ProfileList) : Prop :=
  ∀ r ∈ requests, r.kind = .getProfileSettings →
    list.i < list.profileList.length ∧ list.profileList.length < 2 ^ 32

section Left

variable {k : ℕ} {client : WDSClient}

/-- **A tick takes one off.** -/
theorem left_tick (h : Phase k client.connectionReadinessStep client.profileId [])
    (hlink : client.Unlinked) (h99 : client.connectionReadinessStep ≠ 99) :
    (getWdsReadyToConnect client).toEffect.left + 1 ≤ ticksLeft client.connectionReadinessStep := by
  obtain ⟨slotId, profileId, handle, step, ip, name, mux, done, type, ifnum, list⟩ := client
  cases h with
  | quiet hstep _ hid =>
    simp only [boundarySteps, List.mem_cons, List.not_mem_nil, or_false] at hstep hid
    rcases hstep with rfl | rfl | rfl | rfl | rfl | rfl | rfl | rfl | rfl | rfl | rfl | rfl |
      rfl | rfl
    · exact le_rfl
    · obtain rfl : profileId = 0 := hid (by decide)
      exact le_rfl
    · exact le_rfl
    · exact le_rfl
    · obtain rfl : done = false := hlink (le_refl 4)
      exact le_rfl
    · exact le_rfl
    · exact le_rfl
    · exact le_rfl
    · exact le_rfl
    · exact le_rfl
    · exact le_rfl
    · exact le_rfl
    · exact le_rfl
    · exact absurd rfl h99

/-- The chain of profiles ends at step `1` or `2`. -/
theorem left_nextProfileSettings (h : client.connectionReadinessStep = 0 ∧ client.profileId = 0 ∨
      client.connectionReadinessStep = 2) :
    (wdsGetNextProfileSettings client).left ≤ 13 := by
  unfold wdsGetNextProfileSettings
  split
  · show ticksLeft (WDSClient.connectionReadinessStep (if _ then _ else _)) ≤ 13
    split_ifs with h0
    · exact le_rfl
    · obtain ⟨-, h0'⟩ | h2 := h
      · exact absurd h0' h0
      · rw [h2]
        decide
  · exact le_rfl

/-- **A completion adds none.** -/
theorem left_answered {a : Answer} {r : Request}
    (h : Phase k client.connectionReadinessStep client.profileId [r])
    (ha : a.answers r = true) (hg : a.granted = true)
    (hindexed : Indexed [r] client.profileList) : (ready client a).left ≤ r.kind.left := by
  obtain ⟨slotId, profileId, handle, step, ip, name, mux, done, type, ifnum, list⟩ := client
  generalize hs : [r] = requests at h
  cases h with
  | quiet => cases hs
  | listing hk =>
    cases hs
    cases a with
    | getProfileList reply =>
      rcases reply with _ | _ | (_ | _ | ⟨profile, profiles⟩)
      · cases hg
      · cases hg
      · exact le_rfl
      · exact le_rfl
      · rw [ready_profiles]
        exact left_nextProfileSettings (Or.inl ⟨rfl, rfl⟩)
    | _ => cases ha
  | settings hk hstep =>
    cases hs
    cases a with
    | getProfileSettings reply =>
      obtain ⟨hlt, -⟩ := hindexed _ (List.mem_singleton_self _) rfl
      rw [ready_settings _ (List.getElem?_eq_getElem hlt)]
      refine left_nextProfileSettings ?_
      rcases takeProfile_client _ _ reply.mask with ht | ⟨profileId, ht⟩ <;> rw [ht]
      · exact hstep
      · exact Or.inr rfl
    | _ => cases ha
  | creating hk =>
    cases hs
    cases a with
    | createProfile reply =>
      rcases reply with _ | _ | (_ | profileId)
      · cases hg
      · cases hg
      · cases hg
      · exact le_rfl
    | _ => cases ha
  | linking hk =>
    cases hs
    cases a with
    | addLink link =>
      cases link with
      | none => cases hg
      | some => exact le_rfl
    | _ => cases ha
  | binding hk =>
    cases hs
    cases a with
    | bindMuxDataPort reply =>
      cases reply with
      | ok => exact le_rfl
      | _ => cases hg
    | _ => cases ha
  | starting hk =>
    cases hs
    cases a with
    | startNetwork reply =>
      rcases reply with _ | _ | (_ | handle')
      · cases hg
      · cases hg
      · exact le_rfl
      · exact le_rfl
    | _ => cases ha
  | asking hk =>
    cases hs
    cases a with
    | getCurrentSettings output =>
      obtain ⟨-, addr, haddr⟩ := address_of_granted hg
      rw [ready_getCurrentSettings, haddr]
      exact le_rfl
    | _ => cases ha

end Left

/-! ### The profiles still to come -/

/-- The profiles behind the one whose settings are asked for. -/
def profilesLeft (requests : List Request) (list : ProfileList) : ℕ :=
  match requests with
  | .getProfileSettings _ _ :: _ => list.profileList.length - list.i - 1
  | _ => 0

section Profiles

variable (client : WDSClient)

/-- The chain goes on with one request, or ends. -/
theorem nextProfileSettings_bound (hlen : client.profileList.profileList.length < 2 ^ 32) :
    let e := wdsGetNextProfileSettings client
    Indexed e.issued e.client.profileList ∧
      e.issued.length + profilesLeft e.issued e.client.profileList =
        client.profileList.profileList.length - client.profileList.i := by
  have hlist : (wdsGetNextProfileSettings client).client.profileList = client.profileList := by
    rcases nextProfileSettings_client client with h | ⟨h, -⟩ <;> rw [h]
    rfl
  dsimp only
  rw [hlist]
  unfold wdsGetNextProfileSettings
  split
  case h_1 hnone =>
    have hle := List.getElem?_eq_none_iff.1 hnone
    refine ⟨fun r hr => absurd hr List.not_mem_nil, ?_⟩
    show 0 + 0 = _
    omega
  case h_2 profile hsome =>
    have hlt := (List.getElem?_eq_some_iff.1 hsome).1
    refine ⟨fun _ _ _ => ⟨hlt, hlen⟩, ?_⟩
    show 1 + (client.profileList.profileList.length - client.profileList.i - 1) = _
    omega

theorem keepOn_bound (hlt : client.profileList.i < client.profileList.profileList.length)
    (hlen : client.profileList.profileList.length < 2 ^ 32) :
    let e := wdsGetProfileSettingsReady.keepOn client
    Indexed e.issued e.client.profileList ∧
      e.issued.length + profilesLeft e.issued e.client.profileList ≤
        client.profileList.profileList.length - client.profileList.i - 1 := by
  have hadvance : client.profileList.advance.i = client.profileList.i + 1 :=
    Nat.mod_eq_of_lt (by omega)
  obtain ⟨hidx, hleft⟩ := nextProfileSettings_bound
    { client with profileList := client.profileList.advance } hlen
  refine ⟨hidx, hleft.le.trans ?_⟩
  show client.profileList.profileList.length - client.profileList.advance.i ≤ _
  omega

/-- **A completion leaves no more of the list than was there**, and what it lists. -/
theorem ready_bound {a : Answer} {r : Request} (ha : a.answers r = true) (hg : a.granted = true)
    (hindexed : Indexed [r] client.profileList) :
    Indexed (ready client a).issued (ready client a).client.profileList ∧
      (ready client a).issued.length +
          profilesLeft (ready client a).issued (ready client a).client.profileList ≤
        profilesLeft [r] client.profileList + a.listed.length := by
  have hnone : ∀ e : Effect, e.issued = [] → Indexed e.issued e.client.profileList ∧
      e.issued.length + profilesLeft e.issued e.client.profileList ≤
        profilesLeft [r] client.profileList + a.listed.length := by
    intro e he
    rw [he]
    exact ⟨fun r hr => absurd hr List.not_mem_nil, Nat.zero_le _⟩
  cases a with
  | getProfileList reply =>
    rcases reply with _ | _ | (_ | _ | ⟨profile, profiles⟩)
    · exact hnone _ rfl
    · exact hnone _ rfl
    · exact hnone _ rfl
    · exact hnone _ rfl
    · obtain ⟨hidx, hleft⟩ := nextProfileSettings_bound
        { client with profileList := ⟨0, profile :: profiles⟩ } (of_decide_eq_true hg)
      exact ⟨hidx, hleft.le.trans (Nat.le_add_left _ _)⟩
  | getProfileSettings reply =>
    cases r with
    | getProfileSettings profileType profileIndex =>
      obtain ⟨hlt, hlen⟩ := hindexed _ List.mem_cons_self rfl
      have hprofile := List.getElem?_eq_getElem hlt
      generalize client.profileList.profileList[client.profileList.i] = profile at hprofile
      have htake : (takeProfile client profile reply.mask).profileList = client.profileList := by
        rcases takeProfile_client client profile reply.mask with h | ⟨profileId, h⟩ <;> rw [h]
      rw [ready_settings client hprofile]
      have hbound := keepOn_bound (takeProfile client profile reply.mask)
      rw [htake] at hbound
      exact hbound hlt hlen
    | _ => cases ha
  | createProfile reply => exact hnone _ rfl
  | modifyProfile reply => exact hnone _ rfl
  | addLink link => exact hnone _ rfl
  | bindMuxDataPort reply => exact hnone _ rfl
  | startNetwork reply => exact hnone _ rfl
  | getCurrentSettings output =>
    rw [ready_getCurrentSettings]
    exact hnone _ rfl

end Profiles

/-- The process survives a granted answer. -/
theorem Indexed.survived {client : WDSClient} {a : Answer} {r : Request}
    (h : Indexed [r] client.profileList) (ha : a.answers r = true) (hg : a.granted = true) :
    a.survived client = true := by
  cases a with
  | getProfileSettings reply =>
    cases r with
    | getProfileSettings => exact decide_eq_true (h _ (List.mem_singleton_self _) rfl).1
    | _ => cases ha
  | getCurrentSettings output => exact (address_of_granted hg).1
  | _ => rfl

/-! ### Cooperative runs -/

/-- The requests in flight. -/
def Slot.requests (s : Slot) : List Request := s.pending.map Pending.request

/-- The ticks to come. -/
def Slot.left (s : Slot) : ℕ :=
  if s.timers = 0 then 0 else leftAfter s.requests s.client.connectionReadinessStep

/-- What holds in every state of a cooperative run. -/
structure Cooperates (tr : List Label) (s : Slot) : Prop where
  bringUp : BringUp tr s
  alive : s.crashed = false
  ended : s.timers = 0 → s.pending = []
  unlinked : s.outstanding .addLink = 0 → s.client.Unlinked
  indexed : Indexed s.requests s.client.profileList
  ticks : tr.countP Label.isTick + s.left ≤ 14
  length : tr.length + s.requests.length + profilesLeft s.requests s.client.profileList ≤
    2 * tr.countP Label.isTick + listed tr

section Cooperates

variable {tr : List Label} {s s' : Slot} {l : Label} {p : Pending} {a : Answer}

theorem requests_tick (hp : s.pending = []) :
    s.tick.requests = (getWdsReadyToConnect s.client).issued := by
  refine (Slot.issue_requests _ s.sessions (getWdsReadyToConnect s.client).toEffect).trans ?_
  rw [hp]
  rfl

theorem requests_complete (hp : s.pending = [p]) :
    (s.complete p a).requests = (ready s.client a).issued := by
  refine (Slot.issue_requests _ p.session (ready s.client a)).trans ?_
  rw [hp, List.erase_cons_head]
  rfl

theorem profilesLeft_eq_zero {requests : List Request}
    (h : ∀ r ∈ requests, r.kind ≠ .getProfileSettings) (list : ProfileList) :
    profilesLeft requests list = 0 := by
  unfold profilesLeft
  split
  · exact absurd rfl (h _ List.mem_cons_self)
  · rfl

/-- A request whose answer is among the first comes at a step among the first. -/
theorem Phase.early {k step : ℕ} {profileId : UInt8} {r : Request}
    (h : Phase k step profileId [r]) (hr : 10 ≤ r.kind.left) :
    step ≤ 2 ∧ r.kind ≠ .addLink := by
  generalize hs : [r] = requests at h
  cases h with
  | quiet => cases hs
  | listing =>
    cases hs
    exact ⟨by decide, by simp [Request.kind]⟩
  | settings =>
    cases hs
    exact ⟨by omega, by simp [Request.kind]⟩
  | creating =>
    cases hs
    exact ⟨by decide, by simp [Request.kind]⟩
  | _ =>
    cases hs
    exact absurd hr (by simp [Request.kind, RequestKind.left])

theorem Cooperates.of_activated (h : Activated s) : Cooperates [] s := by
  refine ⟨.of_activated h, ?_, ?_, ?_, ?_, ?_, ?_⟩
  all_goals obtain ⟨s₀, simSlot, ⟨htimers, hpending, -, halive⟩, rfl⟩ := h
  · exact halive
  · exact fun _ => hpending
  · exact fun _ _ => rfl
  · show Indexed (s₀.pending.map _) _
    rw [hpending]
    exact fun r hr => absurd hr List.not_mem_nil
  · show 0 + (if s₀.timers + 1 = 0 then 0 else leftAfter (s₀.pending.map _) 0) ≤ 14
    rw [hpending, htimers]
    decide
  · show 0 + (s₀.pending.map _).length + profilesLeft (s₀.pending.map _) _ ≤ 0
    rw [hpending]
    exact le_rfl

/-- **What a tick keeps.** -/
theorem Cooperates.tick (h : Cooperates tr s) (hp : s.pending = []) (hpos : 0 < s.timers)
    {notified : Option (UInt32 × List UInt8)}
    (hbringUp : BringUp (tr ++ [⟨.tick, s.sessions, notified⟩]) s.tick) :
    Cooperates (tr ++ [⟨.tick, s.sessions, notified⟩]) s.tick := by
  obtain ⟨k, hphase⟩ := h.bringUp.phase
  have hquiet : Phase k s.client.connectionReadinessStep s.client.profileId [] := by
    unfold Slot.Phase at hphase
    rwa [hp] at hphase
  have hlink : s.client.Unlinked := h.unlinked (outstanding_eq_zero_iff.2 (by simp [hp]))
  have hrequests := requests_tick hp
  have htimers := s.tick_timers
  have hmem := hquiet.mem_boundarySteps
  simp only [boundarySteps, List.mem_cons, List.not_mem_nil, or_false] at hmem
  have hcount : (tr ++ [Label.mk .tick s.sessions notified]).countP Label.isTick =
      tr.countP Label.isTick + 1 := by
    rw [List.countP_append]
    rfl
  have hbefore : s.left = ticksLeft s.client.connectionReadinessStep := by
    rw [Slot.left, if_neg (by omega), Slot.requests, hp]
    rfl
  refine ⟨hbringUp, h.alive, fun h0 => ?_, fun hnone => ?_, ?_, ?_, ?_⟩
  · -- the timer is removed at the last step, where nothing is issued
    have h99 : s.client.connectionReadinessStep = 99 := by
      split_ifs at htimers <;> omega
    have hnone : s.tick.requests = [] := by
      rw [hrequests, tick_issued, h99]
      rfl
    exact List.map_eq_nil_iff.1 hnone
  · intro h4
    have hstep' : s.tick.client.connectionReadinessStep = _ := tick_step s.client
    have hdone' : s.tick.client.setupLinkDone = _ := tick_setupLinkDone s.client
    simp only [List.mem_cons, List.not_mem_nil, or_false] at hstep'
    have hle : s.client.connectionReadinessStep ≤ 4 := by split_ifs at hstep' <;> omega
    have hdone := hlink hle
    rw [hdone', hdone, Bool.false_or, decide_eq_false_iff_not]
    intro h4'
    have hone := outstanding_tick_of_issues (tick_issues_addLink_iff.2 ⟨h4', hdone⟩)
    omega
  · rw [hrequests]
    exact fun r hr hk => absurd hk (tick_not_settings s.client r hr)
  · have hticks := h.ticks
    rw [hcount]
    by_cases h99 : s.client.connectionReadinessStep = 99
    · have hone := h.bringUp.once
      have h0 : s.tick.left = 0 := if_pos (by split_ifs at htimers <;> omega)
      rw [hbefore, h99] at hticks
      rw [h0]
      exact hticks
    · have hleft : s.tick.left = (getWdsReadyToConnect s.client).toEffect.left := by
        rw [Slot.left, if_neg (by split_ifs at htimers <;> omega), hrequests]
        rfl
      have hone := left_tick hquiet hlink h99
      omega
  · have hlength := h.length
    have hissued := length_tick_issued s.client
    rw [Slot.requests, hp, List.map_nil, List.length_nil] at hlength
    rw [List.length_append, List.length_singleton, hcount, listed_snoc, hrequests,
      profilesLeft_eq_zero (tick_not_settings s.client)]
    show _ ≤ 2 * _ + (listed tr + 0)
    omega

/-- **What a completion keeps.** -/
theorem Cooperates.complete (h : Cooperates tr s) (hp : p ∈ s.pending)
    (ha : a.answers p.request = true) (hg : a.granted = true)
    {notified : Option (UInt32 × List UInt8)}
    (hbringUp : BringUp (tr ++ [⟨.complete p a, s.sessions, notified⟩]) (s.complete p a)) :
    Cooperates (tr ++ [⟨.complete p a, s.sessions, notified⟩]) (s.complete p a) := by
  obtain ⟨k, hphase⟩ := h.bringUp.phase
  have hpending := hphase.pending_eq hp
  have hone : Phase k s.client.connectionReadinessStep s.client.profileId [p.request] := by
    unfold Slot.Phase at hphase
    rwa [hpending] at hphase
  have hrequests : (s.complete p a).requests = (ready s.client a).issued :=
    requests_complete hpending
  have hbefore : s.requests = [p.request] := by
    rw [Slot.requests, hpending]
    rfl
  have htimers : s.timers ≠ 0 := by
    intro h0
    rw [h.ended h0] at hp
    exact absurd hp List.not_mem_nil
  have hindexed := h.indexed
  rw [hbefore] at hindexed
  have hleft := left_answered hone ha hg hindexed
  obtain ⟨hidx, hbound⟩ := ready_bound s.client ha hg hindexed
  have hcount : (tr ++ [Label.mk (.complete p a) s.sessions notified]).countP Label.isTick =
      tr.countP Label.isTick := by
    rw [List.countP_append]
    rfl
  have halive : (s.complete p a).crashed = false := by
    show (ready? s.client a).isNone = false
    rw [ready?_isNone, hindexed.survived ha hg]
    rfl
  refine ⟨hbringUp, halive, fun h0 => absurd h0 htimers, fun hnone h4 => ?_, ?_, ?_, ?_⟩
  · -- at these steps the request is one of the first
    have hearly : 10 ≤ p.request.kind.left := by
      refine le_trans ?_ hleft
      have h4' : (ready s.client a).client.connectionReadinessStep ≤ 4 := h4
      cases hissued : (ready s.client a).issued with
      | nil =>
        rw [Effect.left, hissued]
        show 10 ≤ ticksLeft _
        generalize (ready s.client a).client.connectionReadinessStep = step at h4'
        interval_cases step <;> decide
      | cons r rest =>
        have hr := ready_issued s.client a r (by rw [hissued]; exact List.mem_cons_self)
        rw [Effect.left, hissued]
        show 10 ≤ r.kind.left
        rw [hr]
        decide
    obtain ⟨h2, hkind⟩ := hone.early hearly
    have hzero : s.outstanding .addLink = 0 :=
      outstanding_eq_zero_iff.2 (by simpa [hpending] using hkind)
    exact (ready_setupLinkDone s.client a).trans (h.unlinked hzero (by omega))
  · rw [hrequests]
    exact hidx
  · have hticks := h.ticks
    rw [Slot.left, if_neg htimers, hbefore] at hticks
    rw [hcount, Slot.left, hrequests]
    refine le_trans (Nat.add_le_add_left ?_ _) hticks
    refine le_trans ?_ hleft
    split_ifs
    · exact Nat.zero_le _
    · exact le_rfl
  · have hlength := h.length
    rw [hbefore, List.length_singleton] at hlength
    rw [List.length_append, List.length_singleton, hcount, listed_snoc, hrequests]
    show _ + _ + profilesLeft _ (ready s.client a).client.profileList ≤
      2 * _ + (listed tr + a.listed.length)
    omega

/-- **What one cooperative event keeps.** -/
theorem Cooperates.step (h : Cooperates tr s) (hs : CooperativeStep s l s') :
    Cooperates (tr ++ [l]) s' := by
  obtain ⟨hgranted, hs⟩ := hs
  have hbringUp := h.bringUp.step hs
  rcases hs.cases with ⟨rfl, hp, hpos, rfl⟩ | ⟨p, a, rfl, hmem, ha, -, rfl⟩
  · exact h.tick hp hpos hbringUp
  · exact h.complete hmem ha (hgranted a rfl) hbringUp

theorem Cooperates.of_run (hr : Run Activated CooperativeStep unguarded tr s) :
    Cooperates tr s :=
  hr.inv Cooperates (fun _ => of_activated) fun _ _ _ _ _ h _ hs => h.step hs

/-- As long as a timer is left, the run goes on. -/
theorem Cooperates.exists_step (h : Cooperates tr s) (htimers : s.timers ≠ 0) :
    ∃ l s', CooperativeStep s l s' := by
  cases hp : s.pending with
  | nil =>
    refine ⟨⟨.tick, s.sessions, (getWdsReadyToConnect s.client).notified⟩, s.tick, ?_, hp,
      Slot.step_tick_iff.2 ⟨h.alive, Nat.pos_of_ne_zero htimers, rfl, rfl, rfl⟩⟩
    intro a ha
    cases ha
  | cons p rest =>
    have hmem : p ∈ s.pending := by rw [hp]; exact List.mem_cons_self
    refine ⟨⟨.complete p p.request.grant, s.sessions, none⟩, s.complete p p.request.grant, ?_,
      foreseen_of_granted (granted_grant p.request),
      Slot.step_complete_iff.2 ⟨h.alive, ⟨hmem, answers_grant p.request⟩, rfl, rfl, rfl⟩⟩
    intro a ha
    obtain rfl : p.request.grant = a := Option.some.inj ha
    exact granted_grant p.request

/-- A cooperative run goes on exactly until it has notified. -/
theorem Cooperates.notified_iff (h : Cooperates tr s) :
    (∃ l ∈ tr, l.notified.isSome) ↔ ¬ ∃ l s', CooperativeStep s l s' := by
  have honce := h.bringUp.once
  constructor
  · intro hnotified
    have hpos : 0 < tr.countP (·.notified.isSome) := List.countP_pos_iff.2 hnotified
    have htimers : s.timers = 0 := by omega
    rintro ⟨l, s', -, hs⟩
    rcases hs.cases with ⟨-, -, hpos', -⟩ | ⟨p, a, -, hmem, -⟩
    · omega
    · rw [h.ended htimers] at hmem
      exact absurd hmem List.not_mem_nil
  · intro hstuck
    have htimers : s.timers = 0 := by
      by_contra htimers
      exact hstuck (h.exists_step htimers)
    exact List.countP_pos_iff.1 (show 0 < tr.countP (·.notified.isSome) by omega)

theorem Cooperates.ticks_le (h : Cooperates tr s) : tr.countP Label.isTick ≤ 14 := by
  have hticks := h.ticks
  omega

theorem Cooperates.length_le (h : Cooperates tr s) : tr.length ≤ 28 + listed tr := by
  have hticks := h.ticks
  have hlength := h.length
  omega

end Cooperates

/-- **With a modem that cooperates the bring-up comes to its end**: it goes on exactly until it has
notified the DCM, within 14 ticks, and the profiles listed bound the number of events. -/
theorem comes_up {tr : List Label} {s : Slot}
    (hr : Run Activated CooperativeStep unguarded tr s) :
    ((∃ l ∈ tr, l.notified.isSome) ↔ ¬ ∃ l s', CooperativeStep s l s') ∧
      tr.countP Label.isTick ≤ 14 ∧ tr.length ≤ 28 + listed tr :=
  have h := Cooperates.of_run hr
  ⟨h.notified_iff, h.ticks_le, h.length_le⟩

/-- A bring-up up to its notification, with `13` ticks and one profile. -/
theorem comes_up_bringUp : ∃ tr s, Run Activated CooperativeStep unguarded tr s ∧
    tr.countP Label.isTick = 13 ∧ listed tr = 1 ∧ ¬ ∃ l s', CooperativeStep s l s' := by
  have h : (simulate Slot.step (fun _ s l => decide ((∀ a ∈ l.event.answer?, a.granted = true) ∧
      Scheduled s l)) [] (freshSlot.activate 0) ((bringUp (.ok (some 7))).tail ++ [.tick])).any
      fun r => decide (r.1.countP Label.isTick = 13 ∧ listed r.1 = 1) &&
        r.1.any (·.notified.isSome) := by
    decide +kernel
  obtain ⟨r, hr, h⟩ := (Option.any_eq_true _ _).1 h
  obtain ⟨hcounts, hnotified⟩ := Bool.and_eq_true_iff.1 h
  obtain ⟨hticks, hlisted⟩ := of_decide_eq_true hcounts
  have hstart : Run Activated CooperativeStep unguarded [] (freshSlot.activate 0) :=
    .start ⟨freshSlot, 0, ⟨rfl, rfl, rfl, rfl⟩, rfl⟩
  have hrun : Run Activated CooperativeStep unguarded r.1 r.2 :=
    hstart.simulate hr fun _ _ _ _ _ hs hg =>
      ⟨trivial, (of_decide_eq_true hg).1, (of_decide_eq_true hg).2, Slot.step_of_step_eq hs⟩
  exact ⟨r.1, r.2, hrun, hticks, hlisted, (comes_up hrun).1.1 (List.any_eq_true.1 hnotified)⟩

end Imsd
