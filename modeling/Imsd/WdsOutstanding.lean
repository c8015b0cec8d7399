import Imsd.WdsSlot

/-!
# Requests in flight

A tick comes every five milliseconds, and most of the steps at which it issues a request are left
by the answer only: until that is there, each tick issues the request once more.  The link is
asked for under a guard, `setup_link_done`, which an activation clears; start-network moves the
step on by itself.

* `Slot.outstanding s kind` is the number of requests of a kind in flight;
  `outstanding_tick_of_issues` and `outstanding_complete` are its equations, by what ticks
  (`tick_issues_iff`) and callbacks (`ready_issued`) issue.
* `one_of_a_kind_iff`: an event issues no second request of a kind (`OneOfAKind`) exactly when it
  is `Unhurried`.  Of the add-link requests only those of earlier sessions are in the way.
-/

namespace Imsd

open EventSystem

/-- The kinds of requests. -/
inductive RequestKind
  | getProfileList
  | getProfileSettings
  | createProfile
  | modifyProfile
  | addLink
  | bindMuxDataPort
  | startNetwork
  | getCurrentSettings
  deriving DecidableEq

def Request.kind : Request → RequestKind
  | .getProfileList _ => .getProfileList
  | .getProfileSettings _ _ => .getProfileSettings
  | .createProfile => .createProfile
  | .modifyProfile _ => .modifyProfile
  | .addLink => .addLink
  | .bindMuxDataPort _ _ _ => .bindMuxDataPort
  | .startNetwork _ => .startNetwork
  | .getCurrentSettings => .getCurrentSettings

/-- The kind of request that an answer is one to. -/
def Answer.kind : Answer → RequestKind
  | .getProfileList _ => .getProfileList
  | .getProfileSettings _ => .getProfileSettings
  | .createProfile _ => .createProfile
  | .modifyProfile _ => .modifyProfile
  | .addLink _ => .addLink
  | .bindMuxDataPort _ => .bindMuxDataPort
  | .startNetwork _ => .startNetwork
  | .getCurrentSettings _ => .getCurrentSettings

theorem answers_iff {a : Answer} {r : Request} : a.answers r = true ↔ a.kind = r.kind := by
  cases a <;> cases r <;> simp [Answer.answers, Answer.kind, Request.kind]

/-- The number of requests of a kind that are in flight. -/
def Slot.outstanding (s : Slot) (kind : RequestKind) : ℕ :=
  s.pending.countP fun p => p.request.kind = kind

/-- The steps at which a tick issues a request whatever is in flight. -/
def unguardedSteps : List (ℕ × RequestKind) :=
  [(0, .getProfileList), (7, .bindMuxDataPort), (9, .startNetwork), (12, .getCurrentSettings)]

/-! ### What ticks and callbacks issue -/

/-- The requests of a tick. -/
theorem tick_issued (client : WDSClient) :
    (getWdsReadyToConnect client).issued =
      if client.connectionReadinessStep = 0 then [.getProfileList 0]
      else if client.connectionReadinessStep = 1 then
        if client.profileId = 0 then [.createProfile] else [.modifyProfile client.profileId]
      else if client.connectionReadinessStep = 4 then
        if client.setupLinkDone then [] else [.addLink]
      else if client.connectionReadinessStep = 7 then [.bindMuxDataPort 4 1 client.muxId]
      else if client.connectionReadinessStep = 9 then [.startNetwork client.profileId]
      else if client.connectionReadinessStep = 12 then [.getCurrentSettings]
      else [] := by
  unfold getWdsReadyToConnect
  split <;> simp_all [Effect.tick, WDSClient.tick, WDSClient.setStep, WDSClient.incStep,
    wdsModifyProfileById, wdsQmiSetDataFormat, wdsBindDataPort, wdsStartNetwork,
    qmiWdsProfileType3gpp, qmiDataEndpointTypeEmbedded]
  -- the two steps at which a tick looks at another field
  · split_ifs <;> simp_all
  · unfold wdsConnectionSetupLink
    split_ifs <;> simp_all

theorem length_tick_issued (client : WDSClient) :
    (getWdsReadyToConnect client).issued.length ≤ 1 := by
  rw [tick_issued]
  split_ifs <;> simp

/-- **The kind of the request that a tick issues**, by the fields it looks at. -/
theorem tick_issues_iff {client : WDSClient} {kind : RequestKind} :
    (∃ r ∈ (getWdsReadyToConnect client).issued, kind = r.kind) ↔
      (client.connectionReadinessStep, kind) ∈ unguardedSteps ∨
      kind = .createProfile ∧ client.connectionReadinessStep = 1 ∧ client.profileId = 0 ∨
      kind = .modifyProfile ∧ client.connectionReadinessStep = 1 ∧ client.profileId ≠ 0 ∨
      kind = .addLink ∧ client.connectionReadinessStep = 4 ∧ client.setupLinkDone = false := by
  rw [tick_issued]
  simp only [unguardedSteps, List.mem_cons, List.not_mem_nil, or_false, Prod.mk.injEq]
  split_ifs <;> simp_all [Request.kind]

theorem tick_issues_addLink_iff {client : WDSClient} :
    (∃ r ∈ (getWdsReadyToConnect client).issued, RequestKind.addLink = r.kind) ↔
      client.connectionReadinessStep = 4 ∧ client.setupLinkDone = false :=
  tick_issues_iff.trans (by simp [unguardedSteps])

theorem tick_issues_startNetwork_iff {client : WDSClient} :
    (∃ r ∈ (getWdsReadyToConnect client).issued, RequestKind.startNetwork = r.kind) ↔
      client.connectionReadinessStep = 9 :=
  tick_issues_iff.trans (by simp [unguardedSteps])

/-- A tick at the step of the link sets it up, unless that has been done. -/
theorem tick_setupLinkDone (client : WDSClient) :
    (getWdsReadyToConnect client).client.setupLinkDone =
      (client.setupLinkDone || decide (client.connectionReadinessStep = 4)) := by
  unfold getWdsReadyToConnect
  split <;> simp_all [Effect.tick, WDSClient.tick, WDSClient.setStep, WDSClient.incStep,
    wdsModifyProfileById, wdsQmiSetDataFormat, wdsBindDataPort, wdsStartNetwork]
  · split_ifs <;> simp_all
  · unfold wdsConnectionSetupLink
    split_ifs <;> simp_all

/-- A tick does not ask for the settings of a profile. -/
theorem tick_not_settings (client : WDSClient) :
    ∀ r ∈ (getWdsReadyToConnect client).issued, r.kind ≠ .getProfileSettings := by
  rw [tick_issued]
  split_ifs <;> simp [Request.kind]

theorem nextProfileSettings_issued (client : WDSClient) :
    ∀ r ∈ (wdsGetNextProfileSettings client).issued, r.kind = .getProfileSettings := by
  unfold wdsGetNextProfileSettings
  split
  · simp
  · simp [Request.kind]

/-- A callback issues requests for profile settings only. -/
theorem ready_issued (client : WDSClient) (a : Answer) :
    ∀ r ∈ (ready client a).issued, r.kind = .getProfileSettings := by
  have hnone : ∀ r ∈ ([] : List Request), r.kind = .getProfileSettings := by simp
  cases a with
  | getProfileList reply =>
    rcases reply with _ | _ | (_ | _ | ⟨profile, profiles⟩)
    · exact hnone
    · exact hnone
    · exact hnone
    · exact hnone
    · rw [ready_profiles]
      exact nextProfileSettings_issued _
  | getProfileSettings reply =>
    cases hprofile : client.profileList.profileList[client.profileList.i]? with
    | none =>
      rw [ready_released client hprofile]
      exact hnone
    | some profile =>
      rw [ready_settings client hprofile]
      exact nextProfileSettings_issued _
  | getCurrentSettings output =>
    rw [ready_getCurrentSettings]
    exact hnone
  | _ => exact hnone

theorem ready_setupLinkDone (client : WDSClient) (a : Answer) :
    (ready client a).client.setupLinkDone = client.setupLinkDone := by
  obtain ⟨step, profileId, ipAddress, linkName, muxId, profileList, h⟩ := ready_client client a
  rw [h]

/-! ### What is in flight -/

theorem pending_tick (s : Slot) :
    s.tick.pending =
      s.pending ++ (getWdsReadyToConnect s.client).issued.map (Pending.mk s.sessions) := rfl

theorem pending_complete (s : Slot) (p : Pending) (a : Answer) :
    (s.complete p a).pending =
      s.pending.erase p ++ (ready s.client a).issued.map (Pending.mk p.session) := rfl

/-- The requests in flight after a tick. -/
theorem mem_pending_tick {s : Slot} {q : Pending} :
    q ∈ s.tick.pending ↔
      q ∈ s.pending ∨
        q.session = s.sessions ∧ q.request ∈ (getWdsReadyToConnect s.client).issued := by
  rw [pending_tick, List.mem_append, List.mem_map]
  refine or_congr_right ⟨?_, fun ⟨hs, hr⟩ => ⟨q.request, hr, by rw [← hs]⟩⟩
  rintro ⟨r, hr, rfl⟩
  exact ⟨rfl, hr⟩

/-- The requests in flight after a completion: what was, and profile settings. -/
theorem pending_complete_cases {s : Slot} {p q : Pending} {a : Answer}
    (h : q ∈ (s.complete p a).pending) :
    q ∈ s.pending ∨ q.session = p.session ∧ q.request.kind = .getProfileSettings := by
  rw [pending_complete] at h
  rcases List.mem_append.1 h with h | h
  · exact Or.inl (List.mem_of_mem_erase h)
  · obtain ⟨r, hr, rfl⟩ := List.mem_map.1 h
    exact Or.inr ⟨rfl, ready_issued s.client a r hr⟩

section Outstanding

variable {s : Slot} {kind : RequestKind}

theorem Slot.outstanding_issue (s : Slot) (kind : RequestKind) (session : ℕ) (e : Effect) :
    (s.issue session e).outstanding kind =
      s.outstanding kind + e.issued.countP fun r => r.kind = kind := by
  show (s.pending ++ e.issued.map _).countP _ = _
  rw [List.countP_append, List.countP_map]
  rfl

/-- A tick that issues a request of the kind. -/
theorem outstanding_tick_of_issues
    (h : ∃ r ∈ (getWdsReadyToConnect s.client).issued, kind = r.kind) :
    s.tick.outstanding kind = s.outstanding kind + 1 := by
  obtain ⟨r, hr, hk⟩ := h
  have hpos : 0 < (getWdsReadyToConnect s.client).issued.countP fun r => r.kind = kind :=
    List.countP_pos_iff.2 ⟨r, hr, decide_eq_true hk.symm⟩
  have hle : ((getWdsReadyToConnect s.client).issued.countP fun r => r.kind = kind) ≤ 1 :=
    List.countP_le_length.trans (length_tick_issued s.client)
  refine (Slot.outstanding_issue _ kind s.sessions _).trans ?_
  omega

/-- A tick that issues none. -/
theorem outstanding_tick_of_not_issues
    (h : ¬ ∃ r ∈ (getWdsReadyToConnect s.client).issued, kind = r.kind) :
    s.tick.outstanding kind = s.outstanding kind := by
  have hzero : ((getWdsReadyToConnect s.client).issued.countP fun r => r.kind = kind) = 0 :=
    List.countP_eq_zero.2 fun r hr hk => h ⟨r, hr, (of_decide_eq_true hk).symm⟩
  refine (Slot.outstanding_issue _ kind s.sessions _).trans ?_
  omega

theorem outstanding_complete (kind : RequestKind) (a : Answer) {p : Pending} (hp : p ∈ s.pending)
    (hkind : kind ≠ .getProfileSettings) :
    (s.complete p a).outstanding kind + (if p.request.kind = kind then 1 else 0) =
      s.outstanding kind := by
  have hnone : (ready s.client a).issued.countP (fun r => r.kind = kind) = 0 := by
    refine List.countP_eq_zero.2 fun r hr => ?_
    rw [ready_issued s.client a r hr]
    simpa using hkind.symm
  have hissue := Slot.outstanding_issue { s with pending := s.pending.erase p } kind p.session
    (ready s.client a)
  rw [hnone, Nat.add_zero] at hissue
  refine (congrArg (· + if p.request.kind = kind then 1 else 0) hissue).trans ?_
  show (s.pending.erase p).countP _ + _ = s.pending.countP _
  have herase := (List.perm_cons_erase hp).countP_eq fun p => decide (p.request.kind = kind)
  rw [herase, List.countP_cons]
  simp

theorem outstanding_eq_zero_iff :
    s.outstanding kind = 0 ↔ ∀ p ∈ s.pending, p.request.kind ≠ kind := by
  unfold Slot.outstanding
  rw [List.countP_eq_zero]
  simp

end Outstanding

/-! ### One request of a kind -/

/-- A create-profile answer that reports success. -/
def Answer.createsProfile : Answer → Bool
  | .createProfile (.ok _) => true
  | _ => false

/-- A create-profile answer that reports success without the index of the profile. -/
def Answer.createsUnindexed : Answer → Bool
  | .createProfile (.ok none) => true
  | _ => false

/-- A tick issues a request only if none of its kind is in flight (modify-profile apart), no second
create-profile request is, and a profile that was created ends the step which creates profiles. -/
structure OneOfAKind (s : Slot) (l : Label) (s' : Slot) : Prop where
  issues : l.event = .tick → ∀ r ∈ (getWdsReadyToConnect s.client).issued,
    r.kind ≠ .modifyProfile → s.outstanding r.kind = 0
  one_profile : s'.outstanding .createProfile ≤ 1
  decided : ∀ a ∈ l.event.answer?, a.createsProfile = true →
    s'.client.connectionReadinessStep ≠ wdsConnectionFindProfileAddModify

/-- At the unguarded steps ticks wait for the answers, and they do where a profile is created; no
link is asked for while an earlier session waits for its own; and profiles are created with an
index. -/
def Unhurried (_ : List Label) (s : Slot) (l : Label) : Prop :=
  match l.event with
  | .activate _ => True
  | .tick =>
    (∀ w ∈ unguardedSteps, s.client.connectionReadinessStep = w.1 → s.outstanding w.2 = 0) ∧
    (s.client.connectionReadinessStep = 1 → s.client.profileId = 0 →
      s.outstanding .createProfile = 0) ∧
    (s.client.connectionReadinessStep = 4 → s.client.setupLinkDone = false →
      ∀ p ∈ s.pending, p.request.kind = .addLink → ¬ p.session < s.sessions)
  | .complete _ a => a.createsUnindexed = true → s.client.connectionReadinessStep ≠ 1

instance (tr : List Label) (s : Slot) (l : Label) : Decidable (Unhurried tr s l) :=
  match l with
  | ⟨.activate _, _, _⟩ => inferInstanceAs (Decidable True)
  | ⟨.tick, _, _⟩ => inferInstanceAs (Decidable (_ ∧ _ ∧ _))
  | ⟨.complete _ _, _, _⟩ => inferInstanceAs (Decidable (_ → _))

/-- What every run keeps: requests belong to sessions that have begun, and a session whose link is
not set up has not asked for it. -/
structure LinkAsked (s : Slot) : Prop where
  begun : ∀ p ∈ s.pending, p.session ≤ s.sessions
  earlier : s.client.setupLinkDone = false →
    ∀ p ∈ s.pending, p.request.kind = .addLink → p.session < s.sessions

theorem LinkAsked.of_idle {s : Slot} (h : s.Idle) : LinkAsked s := by
  obtain ⟨-, hp, -⟩ := h
  constructor
  · rw [hp]
    simp
  · rw [hp]
    simp

/-- **What one event keeps.** -/
theorem LinkAsked.step {s s' : Slot} {l : Label} (h : LinkAsked s) (hs : s.Step l s') :
    LinkAsked s' := by
  obtain ⟨event, session, notified⟩ := l
  cases event with
  | activate simSlot =>
    obtain ⟨-, rfl, -, -⟩ := Slot.step_activate_iff.1 hs
    exact ⟨fun p hp => (h.begun p hp).trans (Nat.le_succ _),
      fun _ p hp _ => Nat.lt_succ_of_le (h.begun p hp)⟩
  | tick =>
    obtain ⟨-, -, rfl, -, -⟩ := Slot.step_tick_iff.1 hs
    constructor
    · intro p hp
      rcases mem_pending_tick.1 hp with hp | ⟨hp, -⟩
      · exact h.begun p hp
      · exact hp.le
    · intro hdone p hp hk
      have hdone' : (s.client.setupLinkDone ||
          decide (s.client.connectionReadinessStep = 4)) = false :=
        (tick_setupLinkDone s.client).symm.trans hdone
      obtain ⟨hdone, h4⟩ := Bool.or_eq_false_iff.1 hdone'
      rcases mem_pending_tick.1 hp with hp | ⟨-, hr⟩
      · exact h.earlier hdone p hp hk
      · -- only the step of the link asks for it
        exact absurd (tick_issues_addLink_iff.1 ⟨p.request, hr, hk.symm⟩).1
          (of_decide_eq_false h4)
  | complete p a =>
    obtain ⟨-, ⟨hmem, -⟩, rfl, -, -⟩ := Slot.step_complete_iff.1 hs
    constructor
    · intro q hq
      rcases pending_complete_cases hq with hq | ⟨hq, -⟩
      · exact h.begun q hq
      · rw [hq]
        exact h.begun p hmem
    · intro hdone q hq hk
      have hdone' : s.client.setupLinkDone = false :=
        (ready_setupLinkDone s.client a).symm.trans hdone
      rcases pending_complete_cases hq with hq | ⟨-, hq⟩
      · exact h.earlier hdone' q hq hk
      · rw [hq] at hk
        cases hk

/-- When a tick keeps to one request of a kind. -/
theorem oneOfAKind_tick_iff {tr : List Label} {s : Slot} (hasked : LinkAsked s)
    (hone : s.outstanding .createProfile ≤ 1) {notified : Option (UInt32 × List UInt8)} :
    OneOfAKind s ⟨.tick, s.sessions, notified⟩ s.tick ↔
      Unhurried tr s ⟨.tick, s.sessions, notified⟩ := by
  constructor
  · intro h
    have hnone : ∀ kind, (∃ r ∈ (getWdsReadyToConnect s.client).issued, kind = r.kind) →
        kind ≠ .modifyProfile → s.outstanding kind = 0 := by
      rintro kind ⟨r, hr, rfl⟩ hne
      exact h.issues rfl r hr hne
    refine ⟨fun w hw hstep => ?_, fun hstep h0 => ?_, fun hstep hdone p hp hk _ => ?_⟩
    · refine hnone w.2 (tick_issues_iff.2 (Or.inl (by rw [hstep]; exact hw))) ?_
      rintro h
      simp only [unguardedSteps, List.mem_cons, List.not_mem_nil, or_false] at hw
      rcases hw with rfl | rfl | rfl | rfl <;> cases h
    · exact hnone .createProfile (tick_issues_iff.2 (Or.inr (Or.inl ⟨rfl, hstep, h0⟩)))
        RequestKind.noConfusion
    · have := hnone .addLink (tick_issues_iff.2 (Or.inr (Or.inr (Or.inr ⟨rfl, hstep, hdone⟩))))
        RequestKind.noConfusion
      exact outstanding_eq_zero_iff.1 this p hp hk
  · rintro ⟨hwait, hcreate, hlink⟩
    have hnone : ∀ r ∈ (getWdsReadyToConnect s.client).issued, r.kind ≠ .modifyProfile →
        s.outstanding r.kind = 0 := by
      intro r hr hne
      rcases tick_issues_iff.1 ⟨r, hr, rfl⟩ with h | ⟨h, h1, h0⟩ | ⟨h, -⟩ | ⟨h, h4, hdone⟩
      · exact hwait _ h rfl
      · rw [h]
        exact hcreate h1 h0
      · exact absurd h hne
      · rw [h]
        -- this session has not asked for the link, and no earlier one is waiting
        exact outstanding_eq_zero_iff.2 fun p hp hk =>
          hlink h4 hdone p hp hk (hasked.earlier hdone p hp hk)
    refine ⟨fun _ => hnone, ?_, fun a ha => by cases ha⟩
    by_cases hissues :
        ∃ r ∈ (getWdsReadyToConnect s.client).issued, RequestKind.createProfile = r.kind
    · rw [outstanding_tick_of_issues hissues]
      obtain ⟨r, hr, hk⟩ := hissues
      rw [hk, hnone r hr (by rw [← hk]; exact RequestKind.noConfusion)]
    · rw [outstanding_tick_of_not_issues hissues]
      exact hone

/-- When a completion does. -/
theorem oneOfAKind_complete_iff {tr : List Label} {s : Slot} {p : Pending} {a : Answer}
    (hp : p ∈ s.pending) (hone : s.outstanding .createProfile ≤ 1) {session : ℕ}
    {notified : Option (UInt32 × List UInt8)} :
    OneOfAKind s ⟨.complete p a, session, notified⟩ (s.complete p a) ↔
      Unhurried tr s ⟨.complete p a, session, notified⟩ := by
  have hcount := outstanding_complete .createProfile a hp RequestKind.noConfusion
  constructor
  · intro h hu h1
    cases a with
    | createProfile reply =>
      rcases reply with _ | _ | (_ | _)
      · cases hu
      · cases hu
      · exact h.decided _ rfl rfl h1
      · cases hu
    | _ => cases hu
  · intro h
    refine ⟨fun ht => absurd ht SlotEvent.noConfusion, by omega, fun a' ha hc => ?_⟩
    obtain rfl : a = a' := Option.some.inj ha
    cases a with
    | createProfile reply =>
      rcases reply with _ | _ | (_ | _)
      · cases hc
      · cases hc
      · exact h rfl
      · exact fun h2 : 2 = 1 => absurd h2 (by decide)
    | _ => cases hc

/-- What every unhurried run keeps. -/
theorem linkAsked_of_run {tr : List Label} {s : Slot}
    (hr : Run Slot.Idle Slot.Step Unhurried tr s) :
    LinkAsked s ∧ s.outstanding .createProfile ≤ 1 := by
  induction hr with
  | start hi =>
    refine ⟨.of_idle hi, ?_⟩
    rw [outstanding_eq_zero_iff.2 (by rw [hi.2.1]; simp)]
    exact Nat.zero_le 1
  | @snoc tr s s' l _ hg hs ih =>
    obtain ⟨hasked, hone⟩ := ih
    refine ⟨hasked.step hs, ?_⟩
    obtain ⟨event, session, notified⟩ := l
    cases event with
    | activate simSlot =>
      obtain ⟨-, rfl, -, -⟩ := Slot.step_activate_iff.1 hs
      exact hone
    | tick =>
      obtain ⟨-, -, rfl, rfl, -⟩ := Slot.step_tick_iff.1 hs
      exact ((oneOfAKind_tick_iff hasked hone).2 hg).one_profile
    | complete p a =>
      obtain ⟨-, ⟨hp, -⟩, rfl, -, -⟩ := Slot.step_complete_iff.1 hs
      exact ((oneOfAKind_complete_iff hp hone).2 hg).one_profile

/-- **There is one request of a kind in flight exactly as long as the ticks wait for the
answers.** -/
theorem one_of_a_kind_iff {tr : List Label} {s s' : Slot} {l : Label}
    (hr : Run Slot.Idle Slot.Step Unhurried tr s) (hs : s.Step l s') :
    OneOfAKind s l s' ↔ Unhurried tr s l := by
  obtain ⟨hasked, hone⟩ := linkAsked_of_run hr
  obtain ⟨event, session, notified⟩ := l
  cases event with
  | activate simSlot =>
    obtain ⟨-, rfl, -, -⟩ := Slot.step_activate_iff.1 hs
    exact iff_of_true
      ⟨fun h => absurd h SlotEvent.noConfusion, hone, fun a ha => by cases ha⟩ trivial
  | tick =>
    obtain ⟨-, -, rfl, rfl, -⟩ := Slot.step_tick_iff.1 hs
    exact oneOfAKind_tick_iff hasked hone
  | complete p a =>
    obtain ⟨-, ⟨hp, -⟩, rfl, -, -⟩ := Slot.step_complete_iff.1 hs
    exact oneOfAKind_complete_iff hp hone

/-- A slot without an IMS profile. -/
def noProfiles : List SlotEvent :=
  [.activate 0, .tick, .complete ⟨1, .getProfileList 0⟩ (.getProfileList (.ok none)), .tick]

/-- The profile it asks for is created. -/
theorem one_of_a_kind_noProfiles :
    ∃ s l s', l.event.answer? = some (.createProfile (.ok (some 3))) ∧ OneOfAKind s l s' := by
  have h : (simulate Slot.step (fun tr s l => decide (Unhurried tr s l)) [] freshSlot
      noProfiles).any fun r =>
        (r.2.step (.complete ⟨1, .createProfile⟩ (.createProfile (.ok (some 3))))).any fun q =>
          decide (Unhurried r.1 r.2 q.2) := by
    decide +kernel
  obtain ⟨r, hr, h⟩ := (Option.any_eq_true _ _).1 h
  obtain ⟨q, hs, hg⟩ := (Option.any_eq_true _ _).1 h
  have hrun : Run Slot.Idle Slot.Step Unhurried r.1 r.2 :=
    run_of_simulate (fun _ _ _ => of_decide_eq_true) hr
  exact ⟨r.2, q.2, q.1, by rw [Slot.event_of_step_eq hs]; rfl,
    (one_of_a_kind_iff hrun (Slot.step_of_step_eq hs)).2 (of_decide_eq_true hg)⟩

/-- The next tick asks for a second one. -/
theorem not_one_of_a_kind :
    ¬ ∀ tr s l s', Run Slot.Idle Slot.Step unguarded tr s → s.Step l s' →
      OneOfAKind s l s' := by
  intro hall
  have h : (simulate Slot.step (fun _ _ _ => true) [] freshSlot noProfiles).any fun r =>
      (r.2.step .tick).any fun q => decide (q.1.outstanding .createProfile = 2) := by
    decide +kernel
  obtain ⟨r, hr, h⟩ := (Option.any_eq_true _ _).1 h
  obtain ⟨q, hs, htwo⟩ := (Option.any_eq_true _ _).1 h
  have hrun : Run Slot.Idle Slot.Step unguarded r.1 r.2 :=
    run_of_simulate (fun _ _ _ _ => trivial) hr
  have hone := (hall _ _ _ _ hrun (Slot.step_of_step_eq hs)).one_profile
  rw [of_decide_eq_true htwo] at hone
  omega

end Imsd
