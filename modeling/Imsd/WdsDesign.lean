import Imsd.WdsOutstanding

/-!
# The design of a bring-up

What the steps are meant to be is a line from `0` to `13` and then `99`, with two ways back: a
start-network request without output is made again, and a call that failed starts over at `6`.
The code keeps to it when a session is activated once and everything that a tick has issued
completes before the next tick (`Scheduled`); what the answers say is left open, except that
start-network fails only with `CALL_FAILED` or without output, and a failed get-current-settings
answer carries no subnet mask.

Two answers of the schedule are beyond the code.  A start-network success without a handle moves
the counter on as any other does, and the slot goes to its last step without a session; and the
callback of a get-current-settings answer that has failed uses an error it has freed.
`follows_design` is about the runs in which every answer `delivers`; `not_follows_design` is a
bring-up to its last step without a handle.

Between two ticks the callbacks move the counter one by one.  `Phase k` says where the slot can be
in the round of a tick that found the counter at `k`; it depends on nothing but the step, the
profile id and the requests in flight.  `Phase.tick` and `Phase.answered` are what a tick and a
completion do to it; `Progress` says what they do to the link and to the network.
-/

namespace Imsd

open EventSystem

/-! ### The schedule -/

/-- The outcomes that the design reckons with. -/
def Answer.foreseen : Answer → Bool
  | .startNetwork (.error callFailed) => callFailed
  | .getCurrentSettings (some output) => output.result || output.ipv4GatewaySubnetMask.isNone
  | _ => true

/-- The answer carries what the code takes for granted: a handle with a start-network success, and
a get-current-settings answer its result. -/
def Answer.delivers : Answer → Bool
  | .startNetwork (.ok none) => false
  | .getCurrentSettings output => output.any CurrentSettings.result
  | _ => true

/-- There is no other activation, and a tick comes when nothing is in flight. -/
def Scheduled (s : Slot) (l : Label) : Prop :=
  match l.event with
  | .activate _ => False
  | .tick => s.pending = []
  | .complete _ a => a.foreseen = true

instance (s : Slot) (l : Label) : Decidable (Scheduled s l) :=
  match l with
  | ⟨.activate _, _, _⟩ => inferInstanceAs (Decidable False)
  | ⟨.tick, _, _⟩ => inferInstanceAs (Decidable (s.pending = []))
  | ⟨.complete _ a, _, _⟩ => inferInstanceAs (Decidable (a.foreseen = true))

/-- A step of the schedule. -/
def ScheduledStep (s : Slot) (l : Label) (s' : Slot) : Prop := Scheduled s l ∧ s.Step l s'

/-- The slot after its first activation. -/
def Activated (s : Slot) : Prop := ∃ s₀ simSlot, Slot.Idle s₀ ∧ s = s₀.activate simSlot

/-! ### The design -/

/-- The steps at which a tick can find the counter. -/
def boundarySteps : List ℕ := [0, 1, 2, 3, 4, 5, 6, 7, 8, 9, 11, 12, 13, 99]

/-- The step at the next tick, by the step at a tick. -/
inductive StepChange : ℕ → ℕ → Prop
  | stays {k : ℕ} : StepChange k k
  | next {k : ℕ} : StepChange k (k + 1)
  | found : StepChange 0 2
  | started : StepChange 9 11
  | failed : StepChange 9 6
  | finished : StepChange 13 99

/-- A tick, and the completions up to the next one. -/
structure Round (s s' : Slot) (tr : List Label) : Prop where
  path : ∃ l post, tr = l :: post ∧ l.event = .tick ∧ ∀ l' ∈ post, l'.event ≠ .tick
  run : Path ScheduledStep s tr s'
  quiet : s'.pending = []

/-- The bring-up follows its design: `s` is reached by the events `tr`. -/
structure FollowsDesign (tr : List Label) (s : Slot) : Prop where
  boundary : s.pending = [] → s.client.connectionReadinessStep ∈ boundarySteps
  changes : ∀ s' round, Round s s' round →
    StepChange s.client.connectionReadinessStep s'.client.connectionReadinessStep
  profile : s.client.connectionReadinessStep = 1 → s.client.profileId = 0
  no_modify : ∀ p ∈ s.pending, ∀ profileId, p.request ≠ .modifyProfile profileId
  link : 5 ≤ s.client.connectionReadinessStep →
    ∃ l ∈ tr, ∃ linkName, l.event.answer? = some (.addLink (some (linkName, s.client.muxId)))
  network : 11 ≤ s.client.connectionReadinessStep →
    ∃ l ∈ tr, l.event.answer? = some (.startNetwork (.ok (some s.client.packetDataHandle)))
  notifies : ∀ l s', ScheduledStep s l s' →
    (l.notified.isSome ↔ l.event = .tick ∧ s.client.connectionReadinessStep = 99) ∧
    (l.notified.isSome ↔ s'.timers < s.timers)
  once : tr.countP (·.notified.isSome) + s.timers = 1
  alive : s.crashed = false

/-! ### A round -/

/-- The round of a tick at step `k` has come to this step, profile id and requests. -/
inductive Phase (k : ℕ) : ℕ → UInt8 → List Request → Prop
  | quiet {step : ℕ} {profileId : UInt8} (hstep : step ∈ boundarySteps) (hk : StepChange k step)
      (hid : step ≤ 1 → profileId = 0) : Phase k step profileId []
  | listing {profileType : UInt8} (hk : k = 0) : Phase k 0 0 [.getProfileList profileType]
  | settings {step : ℕ} {profileId profileType profileIndex : UInt8} (hk : k = 0)
      (hstep : step = 0 ∧ profileId = 0 ∨ step = 2) :
      Phase k step profileId [.getProfileSettings profileType profileIndex]
  | creating (hk : k = 1) : Phase k 1 0 [.createProfile]
  | linking {profileId : UInt8} (hk : k = 4) : Phase k 4 profileId [.addLink]
  | binding {profileId endpointType endpointIfnum : UInt8} {muxId : UInt32} (hk : k = 7) :
      Phase k 7 profileId [.bindMuxDataPort endpointType endpointIfnum muxId]
  | starting {profileId profileIndex : UInt8} (hk : k = 9) :
      Phase k 10 profileId [.startNetwork profileIndex]
  | asking {profileId : UInt8} (hk : k = 12) : Phase k 12 profileId [.getCurrentSettings]

/-- The phase of an effect: its client, and the requests it issues. -/
def Effect.Phase (e : Effect) (k : ℕ) : Prop :=
  Imsd.Phase k e.client.connectionReadinessStep e.client.profileId e.issued

/-- The phase of a slot. -/
def Slot.Phase (s : Slot) (k : ℕ) : Prop :=
  Imsd.Phase k s.client.connectionReadinessStep s.client.profileId (s.pending.map Pending.request)

section Phase

variable {k step : ℕ} {profileId : UInt8} {requests : List Request}

/-- A round that is over at step `2` or later. -/
theorem Phase.moved (step : ℕ) (hstep : step ∈ boundarySteps ∧ 2 ≤ step)
    (hk : StepChange k step) : Phase k step profileId [] :=
  .quiet hstep.1 hk fun h => absurd h (by omega)

/-- A new round begins where the last one is over. -/
theorem Phase.again (h : Phase k step profileId []) : Phase step step profileId [] := by
  cases h with
  | quiet hstep _ hid => exact .quiet hstep .stays hid

theorem Phase.mem_boundarySteps (h : Phase k step profileId []) : step ∈ boundarySteps := by
  cases h with
  | quiet hstep _ _ => exact hstep

theorem Phase.stepChange (h : Phase k step profileId []) : StepChange k step := by
  cases h with
  | quiet _ hk _ => exact hk

theorem Phase.profileId_eq_zero (h : Phase k step profileId requests) (h1 : step = 1) :
    profileId = 0 := by
  cases h with
  | quiet _ _ hid => exact hid (by omega)
  | settings _ hstep => omega
  | creating => rfl
  | _ => omega

theorem Phase.ne_modifyProfile (h : Phase k step profileId requests) :
    ∀ r ∈ requests, ∀ n, r ≠ .modifyProfile n := by
  cases h <;> simp

/-- **What a tick does to the phase.** -/
theorem Phase.tick {client : WDSClient}
    (h : Phase k client.connectionReadinessStep client.profileId []) :
    (getWdsReadyToConnect client).toEffect.Phase client.connectionReadinessStep := by
  obtain ⟨slotId, profileId, handle, step, ip, name, mux, done, type, ifnum, list⟩ := client
  cases h with
  | quiet hstep _ hid =>
    simp only [boundarySteps, List.mem_cons, List.not_mem_nil, or_false] at hstep hid
    rcases hstep with rfl | rfl | rfl | rfl | rfl | rfl | rfl | rfl | rfl | rfl | rfl | rfl |
      rfl | rfl
    · obtain rfl : profileId = 0 := hid (by decide)
      exact .listing rfl
    · obtain rfl : profileId = 0 := hid (by decide)
      exact .creating rfl
    · exact .moved 3 (by decide) .next
    · exact .moved 4 (by decide) .next
    · cases done with
      -- the link is asked for once
      | false => exact .linking rfl
      | true => exact .moved 4 (by decide) .stays
    · exact .moved 6 (by decide) .next
    · exact .moved 7 (by decide) .next
    · exact .binding rfl
    · exact .moved 9 (by decide) .next
    · exact .starting rfl
    · exact .moved 12 (by decide) .next
    · exact .asking rfl
    · exact .moved 99 (by decide) .finished
    · exact .moved 99 (by decide) .stays

/-- The chain of profiles: the next request, or the end of the round. -/
theorem nextProfileSettings_phase {client : WDSClient}
    (h : client.connectionReadinessStep = 0 ∧ client.profileId = 0 ∨
      client.connectionReadinessStep = 2) :
    (wdsGetNextProfileSettings client).Phase 0 := by
  unfold wdsGetNextProfileSettings
  split
  · show Phase 0 (WDSClient.connectionReadinessStep (if _ then _ else _))
      (WDSClient.profileId (if _ then _ else _)) []
    split_ifs with h0
    · exact .quiet (by decide : 1 ∈ boundarySteps) .next fun _ => h0
    · obtain ⟨-, h0'⟩ | h2 := h
      · exact absurd h0' h0
      · rw [h2]
        exact .moved 2 (by decide) .found
  · exact .settings rfl h

/-- **What a completion does to the phase.** -/
theorem Phase.answered {client : WDSClient} {a : Answer} {r : Request}
    (h : Phase k client.connectionReadinessStep client.profileId [r])
    (ha : a.answers r = true) (hf : a.foreseen = true) : (ready client a).Phase k := by
  obtain ⟨slotId, profileId, handle, step, ip, name, mux, done, type, ifnum, list⟩ := client
  generalize hs : [r] = requests at h
  cases h with
  | quiet => cases hs
  | listing hk =>
    -- one request is in flight, and the answer is one to it
    cases hs
    subst hk
    cases a with
    | getProfileList reply =>
      rcases reply with _ | _ | (_ | _ | ⟨profile, profiles⟩)
      · exact .quiet (by decide : 0 ∈ boundarySteps) .stays fun _ => rfl
      · exact .quiet (by decide : 0 ∈ boundarySteps) .stays fun _ => rfl
      · exact .quiet (by decide : 1 ∈ boundarySteps) .next fun _ => rfl
      · exact .quiet (by decide : 1 ∈ boundarySteps) .next fun _ => rfl
      · rw [ready_profiles]
        exact nextProfileSettings_phase (Or.inl ⟨rfl, rfl⟩)
    | _ => cases ha
  | settings hk hstep =>
    cases hs
    subst hk
    cases a with
    | getProfileSettings reply =>
      cases hprofile : list.profileList[list.i]? with
      | none =>
        rw [ready_released _ hprofile]
        rcases hstep with ⟨hstep, hid⟩ | hstep <;> cases hstep
        · exact .quiet (by decide : 0 ∈ boundarySteps) .stays fun _ => hid
        · exact .moved 2 (by decide) .found
      | some profile =>
        rw [ready_settings _ hprofile]
        refine nextProfileSettings_phase ?_
        rcases takeProfile_client _ profile reply.mask with ht | ⟨profileId, ht⟩ <;> rw [ht]
        · exact hstep
        · exact Or.inr rfl
    | _ => cases ha
  | creating hk =>
    cases hs
    subst hk
    cases a with
    | createProfile reply =>
      rcases reply with _ | _ | (_ | _)
      · exact .quiet (by decide : 1 ∈ boundarySteps) .stays fun _ => rfl
      · exact .quiet (by decide : 1 ∈ boundarySteps) .stays fun _ => rfl
      · exact .quiet (by decide : 1 ∈ boundarySteps) .stays fun _ => rfl
      · exact .moved 2 (by decide) .next
    | _ => cases ha
  | linking hk =>
    cases hs
    subst hk
    cases a with
    | addLink link =>
      cases link with
      | none => exact .moved 4 (by decide) .stays
      | some => exact .moved 5 (by decide) .next
    | _ => cases ha
  | binding hk =>
    cases hs
    subst hk
    cases a with
    | bindMuxDataPort reply =>
      cases reply with
      | ok => exact .moved 8 (by decide) .next
      | _ => exact .moved 7 (by decide) .stays
    | _ => cases ha
  | starting hk =>
    cases hs
    subst hk
    cases a with
    | startNetwork reply =>
      rcases reply with _ | (_ | _) | (_ | _)
      · exact .moved ((10 + 255) % 256) (by decide) .stays
      · cases hf
      · exact .moved 6 (by decide) .failed
      · exact .moved 11 (by decide) .started
      · exact .moved 11 (by decide) .started
    | _ => cases ha
  | asking hk =>
    cases hs
    subst hk
    cases a with
    | getCurrentSettings output =>
      rw [ready_getCurrentSettings]
      cases output.bind CurrentSettings.address? with
      | none => exact .moved 12 (by decide) .stays
      | some addr => exact .moved 13 (by decide) .next
    | _ => cases ha

end Phase

/-! ### The link and the network -/

/-- What an event does to the link and to the network, by the answer it delivers. -/
structure Progress (answer : Option Answer) (client client' : WDSClient) : Prop where
  link : 5 ≤ client'.connectionReadinessStep →
    (∃ linkName, answer = some (.addLink (some (linkName, client'.muxId)))) ∨
      5 ≤ client.connectionReadinessStep ∧ client'.muxId = client.muxId
  unstarted : client'.connectionReadinessStep ≤ 10 →
    client.connectionReadinessStep ≤ 10 ∧ client'.packetDataHandle = client.packetDataHandle
  network : 11 ≤ client'.connectionReadinessStep →
    (client.connectionReadinessStep ≤ 10 ∧ ∃ handle : Option UInt32,
      answer = some (.startNetwork (.ok handle)) ∧
        client'.packetDataHandle = handle.getD client.packetDataHandle) ∨
      11 ≤ client.connectionReadinessStep ∧ client'.packetDataHandle = client.packetDataHandle

section Progress

variable {answer : Option Answer} {client client' : WDSClient}

/-- An event that neither sets the link up nor starts the network. -/
theorem Progress.of_eq (hmux : client'.muxId = client.muxId)
    (hhandle : client'.packetDataHandle = client.packetDataHandle)
    (h5 : 5 ≤ client'.connectionReadinessStep → 5 ≤ client.connectionReadinessStep)
    (h11 : 11 ≤ client'.connectionReadinessStep ↔ 11 ≤ client.connectionReadinessStep) :
    Progress answer client client' where
  link h := Or.inr ⟨h5 h, hmux⟩
  unstarted h := ⟨by omega, hhandle⟩
  network h := Or.inr ⟨h11.1 h, hhandle⟩

/-- An event before the link is there. -/
theorem Progress.early (hhandle : client'.packetDataHandle = client.packetDataHandle)
    (h : client.connectionReadinessStep ≤ 4) (h' : client'.connectionReadinessStep ≤ 4) :
    Progress answer client client' where
  link h5 := by omega
  unstarted _ := ⟨by omega, hhandle⟩
  network h11 := by omega

theorem progress_tick (client : WDSClient) :
    Progress answer client (getWdsReadyToConnect client).client := by
  have hstep := tick_step client
  simp only [List.mem_cons, List.not_mem_nil, or_false] at hstep
  obtain ⟨step, done, endpointType, endpointIfnum, hclient⟩ := tick_client client
  refine .of_eq (by rw [hclient]) (by rw [hclient]) ?_ ?_
  · rw [hstep]
    split_ifs <;> omega
  · rw [hstep]
    split_ifs <;> omega

theorem Phase.le_two {k step : ℕ} {profileId : UInt8} {requests : List Request}
    (h : Phase k step profileId requests) (hk : k ≤ 1) : step ≤ 2 := by
  cases h with
  | quiet _ hchange _ => cases hchange <;> omega
  | _ => omega

/-- The link comes with the answer to add-link, and the network with that to start-network. -/
theorem Phase.progress {k : ℕ} {a : Answer} {r : Request}
    (h : Phase k client.connectionReadinessStep client.profileId [r])
    (ha : a.answers r = true) (hf : a.foreseen = true) :
    Progress (some a) client (ready client a).client := by
  have hphase := h.answered ha hf
  have hhandle := ready_handle client a
  have hearly : k ≤ 1 → a.startedHandle? = none →
      Progress (some a) client (ready client a).client := by
    intro hk hnone
    rw [hnone] at hhandle
    exact .early hhandle ((h.le_two hk).trans (by decide)) ((hphase.le_two hk).trans (by decide))
  obtain ⟨slotId, profileId, handle, step, ip, name, mux, done, type, ifnum, list⟩ := client
  generalize hs : [r] = requests at h
  cases h with
  | quiet => cases hs
  | listing hk =>
    cases hs
    cases a with
    | getProfileList reply => exact hearly (by omega) rfl
    | _ => cases ha
  | settings hk hstep =>
    cases hs
    cases a with
    | getProfileSettings reply => exact hearly (by omega) rfl
    | _ => cases ha
  | creating hk =>
    cases hs
    cases a with
    | createProfile reply => exact hearly (by omega) rfl
    | _ => cases ha
  | linking hk =>
    cases hs
    cases a with
    | addLink link =>
      rcases link with _ | ⟨linkName, muxId⟩
      · exact .early rfl (by decide : 4 ≤ 4) (by decide : 4 ≤ 4)
      · exact
          { link := fun _ => Or.inl ⟨linkName, rfl⟩
            unstarted := fun _ => ⟨(by decide : 4 ≤ 10), rfl⟩
            network := fun h11 => absurd h11 (by decide : ¬ 11 ≤ 5) }
    | _ => cases ha
  | binding hk =>
    cases hs
    cases a with
    | bindMuxDataPort reply =>
      rcases reply with _ | _ | _
      · exact .of_eq rfl rfl id Iff.rfl
      · exact .of_eq rfl rfl id Iff.rfl
      · exact .of_eq rfl rfl (fun _ => (by decide : 5 ≤ 7)) (by decide : 11 ≤ 8 ↔ 11 ≤ 7)
    | _ => cases ha
  | starting hk =>
    cases hs
    cases a with
    | startNetwork reply =>
      have h5 : 5 ≤ 10 := by decide
      rcases reply with _ | (_ | _) | handle?
      · exact .of_eq rfl rfl (fun _ => h5) (by decide : 11 ≤ (10 + 255) % 256 ↔ 11 ≤ 10)
      · cases hf
      · exact .of_eq rfl rfl (fun _ => h5) (by decide : 11 ≤ 6 ↔ 11 ≤ 10)
      · have hmux : (ready ⟨slotId, profileId, handle, 10, ip, name, mux, done, type, ifnum, list⟩
            (.startNetwork (.ok handle?))).client.muxId = mux := by
          cases handle? <;> rfl
        have hstep : (ready ⟨slotId, profileId, handle, 10, ip, name, mux, done, type, ifnum, list⟩
            (.startNetwork (.ok handle?))).client.connectionReadinessStep = 11 := by
          cases handle? <;> rfl
        exact
          { link := fun _ => Or.inr ⟨h5, hmux⟩
            unstarted := fun h10 => absurd h10 (by rw [hstep]; decide)
            network := fun _ => Or.inl ⟨le_rfl, handle?, rfl, hhandle⟩ }
    | _ => cases ha
  | asking hk =>
    cases hs
    cases a with
    | getCurrentSettings output =>
      rw [ready_getCurrentSettings]
      cases output.bind CurrentSettings.address? with
      | none => exact .of_eq rfl rfl id Iff.rfl
      | some addr =>
        exact .of_eq rfl rfl (fun _ => (by decide : 5 ≤ 12)) (by decide : 11 ≤ 13 ↔ 11 ≤ 12)
    | _ => cases ha

end Progress

/-! ### The schedule keeps to the design -/

/-- The two kinds of steps of the schedule. -/
theorem ScheduledStep.cases {s s' : Slot} {l : Label} (h : ScheduledStep s l s') :
    (l = ⟨.tick, s.sessions, (getWdsReadyToConnect s.client).notified⟩ ∧ s.pending = [] ∧
      0 < s.timers ∧ s' = s.tick) ∨
    ∃ p a, l = ⟨.complete p a, s.sessions, none⟩ ∧ p ∈ s.pending ∧
      a.answers p.request = true ∧ a.foreseen = true ∧ s' = s.complete p a := by
  obtain ⟨hg, hs⟩ := h
  obtain ⟨event, session, notified⟩ := l
  cases event with
  | activate simSlot => exact hg.elim
  | tick =>
    obtain ⟨-, hpos, rfl, rfl, rfl⟩ := Slot.step_tick_iff.1 hs
    exact Or.inl ⟨rfl, hg, hpos, rfl⟩
  | complete p a =>
    obtain ⟨-, ⟨hp, ha⟩, rfl, rfl, rfl⟩ := Slot.step_complete_iff.1 hs
    exact Or.inr ⟨p, a, rfl, hp, ha, hg, rfl⟩

section Slot

variable {k : ℕ} {s s' : Slot} {tr : List Label}

theorem Phase.singleton_of_mem {step : ℕ} {profileId : UInt8} {requests : List Request}
    {r : Request} (h : Phase k step profileId requests) (hr : r ∈ requests) : requests = [r] := by
  cases h <;> simp_all

theorem map_request_mk (session : ℕ) (requests : List Request) :
    (requests.map (Pending.mk session)).map Pending.request = requests := by
  rw [List.map_map]
  exact List.map_id _

/-- The requests in flight after a callback. -/
theorem Slot.issue_requests (s : Slot) (session : ℕ) (e : Effect) :
    (s.issue session e).pending.map Pending.request =
      s.pending.map Pending.request ++ e.issued := by
  unfold Slot.issue
  rw [List.map_append]
  exact congrArg _ (map_request_mk session e.issued)

/-- A tick of the schedule begins a new round. -/
theorem Slot.Phase.tick (h : s.Phase k) (hp : s.pending = []) :
    s.tick.Phase s.client.connectionReadinessStep := by
  unfold Slot.Phase at h
  rw [hp] at h
  have hissued : s.tick.pending.map Pending.request = (getWdsReadyToConnect s.client).issued := by
    refine (s.issue_requests s.sessions (getWdsReadyToConnect s.client).toEffect).trans ?_
    rw [hp]
    rfl
  unfold Slot.Phase
  rw [hissued]
  exact h.tick

/-- The request that completes is the only one in flight. -/
theorem Slot.Phase.pending_eq {p : Pending} (h : s.Phase k) (hp : p ∈ s.pending) :
    s.pending = [p] := by
  obtain ⟨p', hp', -⟩ := List.map_eq_singleton_iff.1 (h.singleton_of_mem (List.mem_map_of_mem hp))
  rw [hp'] at hp ⊢
  rw [List.mem_singleton.1 hp]

/-- A completion goes on with the round. -/
theorem Slot.Phase.complete {p : Pending} {a : Answer} (h : s.Phase k) (hp : p ∈ s.pending)
    (ha : a.answers p.request = true) (hf : a.foreseen = true) : (s.complete p a).Phase k := by
  have hpending := h.pending_eq hp
  unfold Slot.Phase at h
  rw [hpending] at h
  have hissued : (s.complete p a).pending.map Pending.request = (ready s.client a).issued := by
    refine (Slot.issue_requests _ p.session (ready s.client a)).trans ?_
    rw [hpending, List.erase_cons_head]
    rfl
  unfold Slot.Phase
  rw [hissued]
  exact h.answered ha hf

/-- The completions of a round leave it where it began. -/
theorem Slot.Phase.path (h : s.Phase k) (hp : Path ScheduledStep s tr s')
    (htr : ∀ l ∈ tr, l.event ≠ .tick) : s'.Phase k := by
  induction hp with
  | nil s => exact h
  | cons hs _ ih =>
    rcases hs.cases with ⟨rfl, -⟩ | ⟨p, a, rfl, hmem, ha, hf, rfl⟩
    · exact absurd rfl (htr _ List.mem_cons_self)
    · exact ih (h.complete hmem ha hf) fun l hl => htr l (List.mem_cons_of_mem _ hl)

/-- **A round changes the step as designed.** -/
theorem Slot.Phase.round (h : s.Phase k) (hr : Round s s' tr) :
    StepChange s.client.connectionReadinessStep s'.client.connectionReadinessStep := by
  obtain ⟨⟨l, post, rfl, hl, hpost⟩, hrun, hquiet⟩ := hr
  obtain ⟨s₁, hs, hrest⟩ := path_cons_iff.1 hrun
  rcases hs.cases with ⟨-, hp, -, rfl⟩ | ⟨p, a, rfl, -⟩
  · have hend := (h.tick hp).path hrest hpost
    unfold Slot.Phase at hend
    rw [hquiet] at hend
    exact hend.stepChange
  · cases hl

/-- What holds in every state that the schedule reaches. -/
structure BringUp (tr : List Label) (s : Slot) : Prop where
  phase : ∃ k, s.Phase k
  link : 5 ≤ s.client.connectionReadinessStep →
    ∃ l ∈ tr, ∃ linkName, l.event.answer? = some (.addLink (some (linkName, s.client.muxId)))
  unstarted : s.client.connectionReadinessStep ≤ 10 → s.client.packetDataHandle = 0xFFFFFFFF
  network : 11 ≤ s.client.connectionReadinessStep →
    ∃ l ∈ tr, ∃ handle : Option UInt32, l.event.answer? = some (.startNetwork (.ok handle)) ∧
      s.client.packetDataHandle = handle.getD 0xFFFFFFFF
  once : tr.countP (·.notified.isSome) + s.timers = 1

theorem BringUp.of_activated (h : Activated s) : BringUp [] s := by
  obtain ⟨s₀, simSlot, ⟨htimers, hpending, -⟩, rfl⟩ := h
  refine ⟨⟨0, ?_⟩, fun h5 => absurd h5 (by decide : ¬ 5 ≤ 0), fun _ => rfl,
    fun h11 => absurd h11 (by decide : ¬ 11 ≤ 0), ?_⟩
  · show Phase 0 0 0 (s₀.pending.map _)
    rw [hpending]
    exact .quiet (by decide) .stays fun _ => rfl
  · show 0 + (s₀.timers + 1) = 1
    rw [htimers]

/-- One more event, by what it does to the link and to the network. -/
theorem BringUp.snoc {l : Label} (h : BringUp tr s)
    (hprogress : Progress l.event.answer? s.client s'.client) (hphase : ∃ k, s'.Phase k)
    (honce : (if l.notified.isSome then 1 else 0) + s'.timers = s.timers) :
    BringUp (tr ++ [l]) s' where
  phase := hphase
  link h5 := by
    -- the link comes with this event, or it was there
    rcases hprogress.link h5 with ⟨linkName, hl⟩ | ⟨h5, hmux⟩
    · exact ⟨l, List.mem_append_right _ (List.mem_singleton_self l), linkName, hl⟩
    · obtain ⟨l', hl', linkName, h'⟩ := h.link h5
      exact ⟨l', List.mem_append_left _ hl', linkName, by rw [h', hmux]⟩
  unstarted h10 := by
    obtain ⟨h10, hhandle⟩ := hprogress.unstarted h10
    rw [hhandle, h.unstarted h10]
  network h11 := by
    rcases hprogress.network h11 with ⟨h10, handle, hl, hhandle⟩ | ⟨h11, hhandle⟩
    · exact ⟨l, List.mem_append_right _ (List.mem_singleton_self l), handle, hl,
        by rw [hhandle, h.unstarted h10]⟩
    · obtain ⟨l', hl', handle, h', hhandle'⟩ := h.network h11
      exact ⟨l', List.mem_append_left _ hl', handle, h', by rw [hhandle, hhandle']⟩
  once := by
    have honce' := h.once
    rw [List.countP_append, List.countP_singleton]
    omega

/-- A tick at a boundary removes its timer when it notifies. -/
theorem Slot.Phase.tick_timers (h : s.Phase k) (hp : s.pending = []) (hpos : 0 < s.timers) :
    (if (getWdsReadyToConnect s.client).notified.isSome then 1 else 0) + s.tick.timers =
      s.timers := by
  unfold Slot.Phase at h
  rw [hp] at h
  have hmem := h.mem_boundarySteps
  rw [tick_notified, s.tick_timers]
  by_cases h99 : s.client.connectionReadinessStep = 99
  · rw [h99]
    show 1 + (s.timers - 1) = s.timers
    omega
  · have h17 : s.client.connectionReadinessStep ≤ 17 := by
      simp only [boundarySteps, List.mem_cons, List.not_mem_nil, or_false] at hmem
      omega
    rw [if_neg h99, if_pos h17]
    exact Nat.zero_add _

/-- The scheduled event that notifies is the one that removes a timer: the tick at step `99`. -/
theorem Slot.Phase.notifies {l : Label} (h : s.Phase k) (hs : ScheduledStep s l s') :
    (l.notified.isSome ↔ l.event = .tick ∧ s.client.connectionReadinessStep = 99) ∧
    (l.notified.isSome ↔ s'.timers < s.timers) := by
  rcases hs.cases with ⟨rfl, hp, hpos, rfl⟩ | ⟨p, a, rfl, -, -, -, rfl⟩
  · have htimers := h.tick_timers hp hpos
    constructor
    · show (getWdsReadyToConnect s.client).notified.isSome ↔ _
      rw [tick_notified]
      split_ifs with h99
      · exact iff_of_true rfl ⟨rfl, h99⟩
      · exact iff_of_false Bool.false_ne_true fun h => h99 h.2
    · show (getWdsReadyToConnect s.client).notified.isSome ↔ _
      split_ifs at htimers with hn
      · exact iff_of_true hn (by omega)
      · exact iff_of_false hn (by omega)
  · -- a completion leaves the timers alone
    constructor
    · exact iff_of_false Bool.false_ne_true fun h => absurd h.1 SlotEvent.noConfusion
    · exact iff_of_false Bool.false_ne_true (lt_irrefl s.timers)

/-- **What one event of the schedule preserves.** -/
theorem BringUp.step {l : Label} (h : BringUp tr s) (hs : ScheduledStep s l s') :
    BringUp (tr ++ [l]) s' := by
  obtain ⟨k, hphase⟩ := h.phase
  rcases hs.cases with ⟨rfl, hp, hpos, rfl⟩ | ⟨p, a, rfl, hmem, ha, hf, rfl⟩
  · exact h.snoc (progress_tick s.client) ⟨_, hphase.tick hp⟩ (hphase.tick_timers hp hpos)
  · have hpending := hphase.pending_eq hmem
    have hone := hphase
    unfold Slot.Phase at hone
    rw [hpending] at hone
    exact h.snoc (hone.progress ha hf) ⟨k, hphase.complete hmem ha hf⟩ (Nat.zero_add _)

/-- **What a whole run of the schedule preserves.** -/
theorem bringUp_of_run {G : List Label → Slot → Label → Prop}
    (h : Run Activated ScheduledStep G tr s) : BringUp tr s :=
  h.inv BringUp (fun _ => BringUp.of_activated) fun _ _ _ _ _ hb _ hs => hb.step hs

end Slot

/-! ### The process survives -/

/-- While profile settings are asked for, the profile list is there. -/
def Listed (requests : List Request) (list : ProfileList) : Prop :=
  ∀ r ∈ requests, r.kind = .getProfileSettings → list.live = true

section Listed

variable (client : WDSClient)

theorem listed_nil (list : ProfileList) : Listed [] list := fun _ hr => absurd hr List.not_mem_nil

theorem nextProfileSettings_listed :
    Listed (wdsGetNextProfileSettings client).issued
      (wdsGetNextProfileSettings client).client.profileList := by
  unfold wdsGetNextProfileSettings
  cases hprofile : client.profileList.profileList[client.profileList.i]? with
  | none => exact listed_nil _
  | some profile => exact fun _ _ _ => (ProfileList.live_iff _).2 ⟨profile, hprofile⟩

/-- A callback asks for settings of a list that is there. -/
theorem ready_listed (a : Answer) :
    Listed (ready client a).issued (ready client a).client.profileList := by
  cases a with
  | getProfileList reply =>
    rcases reply with _ | _ | (_ | _ | ⟨profile, profiles⟩)
    · exact listed_nil _
    · exact listed_nil _
    · exact listed_nil _
    · exact listed_nil _
    · exact nextProfileSettings_listed { client with profileList := ⟨0, profile :: profiles⟩ }
  | getProfileSettings reply =>
    cases hprofile : client.profileList.profileList[client.profileList.i]? with
    | none =>
      rw [ready_released client hprofile]
      exact listed_nil _
    | some profile =>
      rw [ready_settings client hprofile]
      exact nextProfileSettings_listed _
  | getCurrentSettings output =>
    rw [ready_getCurrentSettings]
    exact listed_nil _
  | _ => exact listed_nil _

variable {client}

/-- An answer that delivers, to a request whose list is there, is survived. -/
theorem Listed.survived {a : Answer} {r : Request} (h : Listed [r] client.profileList)
    (ha : a.answers r = true) (hd : a.delivers = true) : a.survived client = true := by
  cases a with
  | getProfileSettings reply =>
    cases r with
    | getProfileSettings => exact h _ (List.mem_singleton_self _) rfl
    | _ => cases ha
  | getCurrentSettings output =>
    cases output with
    | none => cases hd
    | some output =>
      have hresult : output.result = true := hd
      show output.survived = true
      rw [CurrentSettings.survived, hresult, Bool.true_or]
  | _ => rfl

end Listed

/-- The condition on the answers. -/
def Delivering (_ : List Label) (_ : Slot) (l : Label) : Prop :=
  ∀ a ∈ l.event.answer?, a.delivers = true

instance (tr : List Label) (s : Slot) (l : Label) : Decidable (Delivering tr s l) :=
  inferInstanceAs (Decidable (∀ a ∈ l.event.answer?, _))

/-- In a run whose answers deliver, the process survives. -/
theorem alive_of_run {tr : List Label} {s : Slot}
    (h : Run Activated ScheduledStep Delivering tr s) :
    s.crashed = false ∧ Listed (s.pending.map Pending.request) s.client.profileList := by
  induction h with
  | start hi =>
    obtain ⟨s₀, simSlot, ⟨-, hpending, -, halive⟩, rfl⟩ := hi
    refine ⟨halive, ?_⟩
    show Listed (s₀.pending.map _) _
    rw [hpending]
    exact listed_nil _
  | snoc hr hg hs ih =>
    obtain ⟨halive, hlisted⟩ := ih
    obtain ⟨k, hphase⟩ := (bringUp_of_run hr).phase
    rcases hs.cases with ⟨rfl, hp, -, rfl⟩ | ⟨p, a, rfl, hmem, ha, -, rfl⟩
    · refine ⟨halive, ?_⟩
      rw [pending_tick, hp, List.nil_append, map_request_mk]
      exact fun r hr hkind => absurd hkind (tick_not_settings _ r hr)
    · have hpending := hphase.pending_eq hmem
      rw [hpending] at hlisted
      have hsurvived : a.survived _ = true := hlisted.survived ha (hg a rfl)
      constructor
      · show (ready? _ a).isNone = false
        rw [ready?_isNone, hsurvived]
        rfl
      · rw [pending_complete, hpending, List.erase_cons_head, List.nil_append, map_request_mk]
        exact ready_listed _ a

/-- What the answers of a run deliver. -/
theorem delivering_of_run {tr : List Label} {s : Slot}
    (h : Run Activated ScheduledStep Delivering tr s) :
    ∀ l ∈ tr, ∀ a ∈ l.event.answer?, a.delivers = true := by
  induction h with
  | start => exact fun l hl => absurd hl List.not_mem_nil
  | snoc _ hg _ ih =>
    intro l hl
    rcases List.mem_append.1 hl with hl | hl
    · exact ih l hl
    · rw [List.mem_singleton.1 hl]
      exact hg

/-- **Under the schedule, and with answers that deliver, the bring-up follows its design.** -/
theorem follows_design {tr : List Label} {s : Slot}
    (h : Run Activated ScheduledStep Delivering tr s) : FollowsDesign tr s := by
  have hb := bringUp_of_run h
  obtain ⟨k, hphase⟩ := hb.phase
  exact
    { boundary := fun hp => by
        unfold Slot.Phase at hphase
        rw [hp] at hphase
        exact hphase.mem_boundarySteps
      changes := fun s' round hr => hphase.round hr
      profile := hphase.profileId_eq_zero
      no_modify := fun p hp => hphase.ne_modifyProfile _ (List.mem_map_of_mem hp)
      link := hb.link
      network := fun h11 => by
        obtain ⟨l, hl, handle, hanswer, hhandle⟩ := hb.network h11
        cases handle with
        | none => exact absurd (delivering_of_run h l hl _ hanswer) Bool.false_ne_true
        | some handle =>
          rw [Option.getD_some] at hhandle
          exact ⟨l, hl, by rw [hanswer, hhandle]⟩
      notifies := fun l s' hs => hphase.notifies hs
      once := hb.once
      alive := (alive_of_run h).1 }

/-- The runs of the schedule that were simulated. -/
theorem scheduled_of_simulate {ok : List Label → Slot → Label → Bool}
    {G : List Label → Slot → Label → Prop}
    (hok : ∀ tr s l, ok tr s l = true → G tr s l ∧ Scheduled s l) {events : List SlotEvent}
    {r : List Label × Slot}
    (h : simulate Slot.step ok [] (freshSlot.activate 0) events = some r) :
    Run Activated ScheduledStep G r.1 r.2 := by
  have hstart : Run Activated ScheduledStep G [] (freshSlot.activate 0) :=
    .start ⟨freshSlot, 0, ⟨rfl, rfl, rfl, rfl⟩, rfl⟩
  exact hstart.simulate h fun tr s _ _ l hs hl =>
    ⟨(hok tr s l hl).1, (hok tr s l hl).2, Slot.step_of_step_eq hs⟩

/-- A bring-up up to its notification. -/
theorem follows_design_bringUp :
    ∃ tr s, (∃ l ∈ tr, l.notified.isSome) ∧ FollowsDesign tr s := by
  have h : (simulate Slot.step (fun tr s l => decide (Delivering tr s l ∧ Scheduled s l)) []
      (freshSlot.activate 0) ((bringUp (.ok (some 7))).tail ++ [.tick])).any fun r =>
        r.1.any (·.notified.isSome) := by
    decide +kernel
  obtain ⟨r, hr, hn⟩ := (Option.any_eq_true _ _).1 h
  have hrun : Run Activated ScheduledStep Delivering r.1 r.2 :=
    scheduled_of_simulate (fun _ _ _ => of_decide_eq_true) hr
  exact ⟨r.1, r.2, List.any_eq_true.1 hn, follows_design hrun⟩

/-- A start-network success without a handle takes the slot to its last step. -/
theorem not_follows_design :
    ¬ ∀ tr s, Run Activated ScheduledStep unguarded tr s → FollowsDesign tr s := by
  intro hall
  have h : (simulate Slot.step (fun _ s l => decide (Scheduled s l)) [] (freshSlot.activate 0)
      (bringUp (.ok none)).tail).any fun r =>
        decide (11 ≤ r.2.client.connectionReadinessStep) &&
          r.1.all fun l => (l.event.answer?.bind Answer.startedHandle?).isNone := by
    decide +kernel
  obtain ⟨r, hr, h⟩ := (Option.any_eq_true _ _).1 h
  obtain ⟨h11, hnone⟩ := Bool.and_eq_true_iff.1 h
  have hrun : Run Activated ScheduledStep unguarded r.1 r.2 :=
    scheduled_of_simulate (fun _ _ _ hl => ⟨trivial, of_decide_eq_true hl⟩) hr
  obtain ⟨l, hl, hanswer⟩ := (hall r.1 r.2 hrun).network (of_decide_eq_true h11)
  have hl' := List.all_eq_true.1 hnone l hl
  rw [hanswer] at hl'
  exact absurd hl' Bool.false_ne_true

end Imsd
