import Imsd.WdsDesign
import Imsd.WdsOutstanding
import Imsd.WdsSteps

/-!
# Does a session keep its link?

In one session the link is asked for once: `setup_link_done` keeps later ticks from it.  So a
bring-up that gets back to `WDS_CONNECTION_STATE_SETUP_LINK` after the answer waits for ever, and
it gets back there from every step before that one.  The callbacks for profiles assign these
steps, whatever the counter has come to.

A `LinkPhase` is where a session can be: before the answer of the add-link request, at step `4` at
most, or after it, at step `5` at least.  `KeepsLink` excludes the answers that lead out of these
phases; `link_held_iff` says that nothing else does.
-/

namespace Imsd

open EventSystem

/-! ### One session with a link -/

/-- An answer to add-link without a link. -/
def Answer.linkFails : Answer → Bool
  | .addLink none => true
  | _ => false

/-- A step of a session in which the add-link request succeeds. -/
def SessionStep (s : Slot) (l : Label) (s' : Slot) : Prop :=
  (l.event.activates = false ∧ ∀ a ∈ l.event.answer?, a.linkFails = false) ∧ s.Step l s'

/-- The link was asked for, and is there. -/
def Slot.LinkUp (s : Slot) : Prop :=
  s.client.setupLinkDone = true ∧ s.outstanding .addLink = 0

instance (s : Slot) : Decidable s.LinkUp := inferInstanceAs (Decidable (_ ∧ _))

/-- The callback assigns a step before that of the link: for an empty profile list, for an IMS
profile of a list that is there, at the end of the list without one, and for a profile that was
created. -/
def Answer.fallsBack (client : WDSClient) : Answer → Bool
  | .getProfileList (.ok none) => true
  | .getProfileList (.ok (some [])) => true
  | .getProfileSettings reply =>
    client.profileList.live &&
      (reply.ims || (client.profileList.profileList[(client.profileList.i + 1) % 2 ^ 32]?).isNone &&
        client.profileId = 0)
  | .createProfile (.ok (some _)) => true
  | _ => false

/-- The link answers at the step that asked for it, and after that no answer falls back, or
increments the counter to `0`. -/
def KeepsLink (_ : List Label) (s : Slot) (l : Label) : Prop :=
  ∀ a ∈ l.event.answer?,
    (a.kind = .addLink → s.client.connectionReadinessStep = 4) ∧
    (s.LinkUp → a.fallsBack s.client = false ∧
      (a.increments = true → s.client.connectionReadinessStep ≠ 255))

instance (tr : List Label) (s : Slot) (l : Label) : Decidable (KeepsLink tr s l) :=
  inferInstanceAs (Decidable (∀ a ∈ l.event.answer?, _ ∧ _))

/-! ### What the callbacks do to the step -/

section Ready

variable (client : WDSClient) {a : Answer}

theorem keepOn_of_ims {reply : Reply Unit (Option UInt64)} (h : reply.ims = true)
    (profile : Profile) :
    (wdsGetProfileSettingsReady.keepOn
      (takeProfile client profile reply.mask)).client.connectionReadinessStep ≤ 2 := by
  rw [takeProfile_of_ims client h, keepOn_step]
  split_ifs
  · decide
  · exact le_rfl

/-- A callback that falls back. -/
theorem ready_fallsBack (h : a.fallsBack client = true) :
    (ready client a).client.connectionReadinessStep ≤ 2 := by
  cases a with
  | getProfileList reply =>
    rcases reply with _ | _ | (_ | _ | ⟨profile, profiles⟩)
    · cases h
    · cases h
    · exact (by decide : 1 ≤ 2)
    · exact (by decide : 1 ≤ 2)
    · cases h
  | getProfileSettings reply =>
    rw [Answer.fallsBack, Bool.and_eq_true] at h
    obtain ⟨profile, hprofile⟩ := (ProfileList.live_iff _).1 h.1
    rw [ready_settings client hprofile]
    by_cases hims : reply.ims = true
    · exact keepOn_of_ims client hims profile
    · rw [Bool.not_eq_true] at hims
      rw [hims, Bool.false_or, Bool.and_eq_true, decide_eq_true_eq] at h
      rw [takeProfile_of_not_ims client hims, keepOn_step, if_pos h.2]
      decide
  | createProfile reply =>
    rcases reply with _ | _ | (_ | _)
    · cases h
    · cases h
    · cases h
    · exact (by decide : 2 ≤ 2)
  | _ => cases h

/-- What a callback that does not fall back makes of the step: only start-network can take it back,
to the step before or to `6`. -/
inductive HeldStep (a : Answer) (step : ℕ) : ℕ → Prop
  | stays : HeldStep a step step
  | up : a.increments = true → HeldStep a step ((step + 1) % 256)
  | again : a.kind = .startNetwork → HeldStep a step 6
  | down : a.kind = .startNetwork → HeldStep a step ((step + 255) % 256)

theorem ready_heldStep (h : a.fallsBack client = false) :
    HeldStep a client.connectionReadinessStep
      (ready client a).client.connectionReadinessStep := by
  cases a with
  | getProfileList reply =>
    rcases reply with _ | _ | (_ | _ | ⟨profile, profiles⟩)
    · exact .stays
    · exact .stays
    · cases h
    · cases h
    · exact .stays
  | getProfileSettings reply =>
    rw [Answer.fallsBack, Bool.and_eq_false_iff] at h
    rcases h with hlive | h
    · rw [ready_of_not_survived client (.getProfileSettings reply) hlive]
      exact .stays
    · rw [Bool.or_eq_false_iff] at h
      have hend : ¬ ((client.profileList.profileList[(client.profileList.i + 1) % 2 ^ 32]?).isNone ∧
          client.profileId = 0) := by
        intro hend
        rw [Bool.and_eq_false_iff] at h
        rcases h.2 with h | h
        · rw [hend.1] at h
          cases h
        · exact of_decide_eq_false h hend.2
      cases hprofile : client.profileList.profileList[client.profileList.i]? with
      | none =>
        rw [ready_released client hprofile]
        exact .stays
      | some profile =>
        rw [ready_settings client hprofile, takeProfile_of_not_ims client h.1, keepOn_step,
          if_neg hend]
        exact .stays
  | createProfile reply =>
    rcases reply with _ | _ | (_ | _)
    · exact .stays
    · exact .stays
    · exact .stays
    · cases h
  | modifyProfile reply => exact .stays
  | addLink link =>
    cases link with
    | none => exact .stays
    | some link => exact .up rfl
  | bindMuxDataPort reply =>
    cases reply with
    | ok => exact .up rfl
    | _ => exact .stays
  | startNetwork reply =>
    rcases reply with _ | (_ | _) | (_ | _)
    · exact .down rfl
    · exact .up rfl
    · exact .again rfl
    · exact .up rfl
    · exact .up rfl
  | getCurrentSettings output =>
    rw [ready_getCurrentSettings]
    cases haddr : output.bind CurrentSettings.address? with
    | none => exact .stays
    | some addr => exact .up (by rw [Answer.increments, haddr]; rfl)

theorem kind_of_increments (h : a.increments = true) :
    a.kind ∈ [RequestKind.addLink, .bindMuxDataPort, .startNetwork, .getCurrentSettings] := by
  cases a with
  | addLink => simp [Answer.kind]
  | bindMuxDataPort => simp [Answer.kind]
  | startNetwork => simp [Answer.kind]
  | getCurrentSettings => simp [Answer.kind]
  | _ => cases h

theorem increments_of_link (hkind : a.kind = .addLink) (hok : a.linkFails = false) :
    a.increments = true := by
  cases a with
  | addLink link =>
    cases link with
    | none => cases hok
    | some link => rfl
  | _ => cases hkind

end Ready

/-! ### The phases of a session -/

/-- The requests that can be in flight before the link is up. -/
def earlyKinds : List RequestKind :=
  [.getProfileList, .getProfileSettings, .createProfile, .modifyProfile, .addLink]

/-- Where a session can be, before and after the answer to its add-link request. -/
inductive LinkPhase (s : Slot) : Prop
  | before (hstep : s.client.connectionReadinessStep ≤ 4)
      (hearly : ∀ p ∈ s.pending, p.request.kind ∈ earlyKinds)
      (hasked : s.outstanding .addLink = if s.client.setupLinkDone then 1 else 0)
  | up (hup : s.LinkUp)
      (hstep : 5 ≤ s.client.connectionReadinessStep ∧ s.client.connectionReadinessStep < 256)
      (hstart : s.outstanding .startNetwork = 0 ∨ s.outstanding .startNetwork = 1 ∧
        10 ≤ s.client.connectionReadinessStep)

namespace LinkPhase

variable {s s' : Slot} {l : Label} {p : Pending} {a : Answer}

theorem of_activated (h : Activated s) : LinkPhase s := by
  obtain ⟨s₀, simSlot, ⟨-, hpending, -⟩, rfl⟩ := h
  have hnone : (s₀.activate simSlot).pending = [] := hpending
  refine .before (Nat.zero_le 4) (by rw [hnone]; simp) ?_
  exact outstanding_eq_zero_iff.2 (by rw [hnone]; simp)

/-- Before the link is up, ticks issue early requests. -/
theorem early_of_issued {client : WDSClient} {r : Request}
    (hstep : client.connectionReadinessStep ≤ 4)
    (hr : r ∈ (getWdsReadyToConnect client).issued) : r.kind ∈ earlyKinds := by
  rcases tick_issues_iff.1 ⟨r, hr, rfl⟩ with h | ⟨h, -⟩ | ⟨h, -⟩ | ⟨h, -⟩
  · simp only [unguardedSteps, List.mem_cons, List.not_mem_nil, or_false, Prod.mk.injEq] at h
    rcases h with ⟨-, h⟩ | ⟨h7, -⟩ | ⟨h9, -⟩ | ⟨h12, -⟩
    · rw [h]
      decide
    · omega
    · omega
    · omega
  · rw [h]
    decide
  · rw [h]
    decide
  · rw [h]
    decide

/-- **What a tick keeps.** -/
theorem tick (h : LinkPhase s) : LinkPhase s.tick := by
  have hstep' : s.tick.client.connectionReadinessStep = _ := tick_step s.client
  have hdone' : s.tick.client.setupLinkDone = _ := tick_setupLinkDone s.client
  simp only [List.mem_cons, List.not_mem_nil, or_false] at hstep'
  cases h with
  | before hstep hearly hasked =>
    refine .before ?_ (fun q hq => ?_) ?_
    · split_ifs at hstep' <;> omega
    · rcases mem_pending_tick.1 hq with hq | ⟨-, hr⟩
      · exact hearly q hq
      · exact early_of_issued hstep hr
    · by_cases hlink : s.client.connectionReadinessStep = 4 ∧ s.client.setupLinkDone = false
      · -- the link is asked for now
        rw [outstanding_tick_of_issues (tick_issues_addLink_iff.2 hlink), hasked, hdone', hlink.1,
          hlink.2]
        rfl
      · rw [outstanding_tick_of_not_issues (mt tick_issues_addLink_iff.1 hlink), hasked, hdone']
        cases hdone : s.client.setupLinkDone with
        | true => rfl
        | false =>
          have h4 : s.client.connectionReadinessStep ≠ 4 := fun h4 => hlink ⟨h4, hdone⟩
          rw [decide_eq_false h4]
          rfl
  | up hup hstep hstart =>
    have hlink : ¬ (s.client.connectionReadinessStep = 4 ∧ s.client.setupLinkDone = false) :=
      fun h => by omega
    refine .up ⟨?_, ?_⟩ ⟨?_, ?_⟩ ?_
    · rw [hdone', hup.1, Bool.true_or]
    · rw [outstanding_tick_of_not_issues (mt tick_issues_addLink_iff.1 hlink), hup.2]
    · split_ifs at hstep' <;> omega
    · split_ifs at hstep' <;> omega
    · by_cases h9 : s.client.connectionReadinessStep = 9
      · -- nothing was in flight at step `9`, and the step moves on
        rw [outstanding_tick_of_issues (tick_issues_startNetwork_iff.2 h9)]
        have h10 : 10 ≤ s.tick.client.connectionReadinessStep := by
          split_ifs at hstep' <;> omega
        exact Or.inr ⟨by omega, h10⟩
      · rw [outstanding_tick_of_not_issues (mt tick_issues_startNetwork_iff.1 h9)]
        refine hstart.imp_right ?_
        rintro ⟨h1, h10⟩
        refine ⟨h1, ?_⟩
        split_ifs at hstep' <;> omega

/-- The requests in flight after a completion before the link is up are early ones. -/
theorem early_complete (hearly : ∀ q ∈ s.pending, q.request.kind ∈ earlyKinds) :
    ∀ q ∈ (s.complete p a).pending, q.request.kind ∈ earlyKinds := by
  intro q hq
  rcases pending_complete_cases hq with hq | ⟨-, hq⟩
  · exact hearly q hq
  · rw [hq]
    decide

/-- **What the answer to add-link keeps**, at the step that asked for it. -/
theorem complete_addLink (h : LinkPhase s) (hp : p ∈ s.pending) (ha : a.answers p.request = true)
    (hkind : a.kind = .addLink) (hok : a.linkFails = false)
    (h4 : s.client.connectionReadinessStep = 4) : LinkPhase (s.complete p a) := by
  have hkind' : p.request.kind = .addLink := (answers_iff.1 ha).symm.trans hkind
  have hcount := outstanding_complete .addLink a hp RequestKind.noConfusion
  rw [if_pos hkind'] at hcount
  cases h with
  | before hstep hearly hasked =>
    have hstep' : (s.complete p a).client.connectionReadinessStep = _ :=
      ready_increments s.client (increments_of_link hkind hok)
    rw [h4] at hstep'
    split_ifs at hasked with hdone
    · refine .up ⟨?_, by omega⟩ (by omega) (Or.inl ?_)
      · exact (ready_setupLinkDone s.client a).trans hdone
      · refine outstanding_eq_zero_iff.2 fun q hq hk => ?_
        have := early_complete (p := p) (a := a) hearly q hq
        rw [hk] at this
        exact absurd this (by decide)
    · omega
  | up hup => exact absurd hkind' (outstanding_eq_zero_iff.1 hup.2 p hp)

/-- **What another answer keeps** before the link is up. -/
theorem complete_before (hstep : s.client.connectionReadinessStep ≤ 4)
    (hearly : ∀ q ∈ s.pending, q.request.kind ∈ earlyKinds)
    (hasked : s.outstanding .addLink = if s.client.setupLinkDone then 1 else 0)
    (hp : p ∈ s.pending) (ha : a.answers p.request = true) (hkind : a.kind ≠ .addLink) :
    LinkPhase (s.complete p a) := by
  have hk := answers_iff.1 ha
  have hmem := hearly p hp
  rw [← hk] at hmem
  have hcount := outstanding_complete .addLink a hp RequestKind.noConfusion
  rw [if_neg (by rw [← hk]; exact hkind)] at hcount
  have hstep' : (s.complete p a).client.connectionReadinessStep ≤ 4 := by
    show (ready s.client a).client.connectionReadinessStep ≤ 4
    by_cases hback : a.fallsBack s.client = true
    · exact (ready_fallsBack s.client hback).trans (by decide)
    · rw [Bool.not_eq_true] at hback
      have hheld := ready_heldStep s.client hback
      generalize (ready s.client a).client.connectionReadinessStep = step' at hheld ⊢
      cases hheld with
      | stays => exact hstep
      | up hinc =>
        have hup := kind_of_increments hinc
        generalize a.kind = kind at hmem hup hkind
        simp only [earlyKinds, List.mem_cons, List.not_mem_nil, or_false] at hmem hup
        rcases hmem with rfl | rfl | rfl | rfl | rfl <;> simp at hup hkind
      | again hstart =>
        rw [hstart] at hmem
        exact absurd hmem (by decide)
      | down hstart =>
        rw [hstart] at hmem
        exact absurd hmem (by decide)
  refine .before hstep' (early_complete hearly) ?_
  have hdone : (s.complete p a).client.setupLinkDone = s.client.setupLinkDone :=
    ready_setupLinkDone s.client a
  rw [hdone, ← hasked]
  omega

/-- **What another answer keeps** once the link is up. -/
theorem complete_up (hup : s.LinkUp)
    (hstep : 5 ≤ s.client.connectionReadinessStep ∧ s.client.connectionReadinessStep < 256)
    (hstart : s.outstanding .startNetwork = 0 ∨ s.outstanding .startNetwork = 1 ∧
      10 ≤ s.client.connectionReadinessStep)
    (hp : p ∈ s.pending) (ha : a.answers p.request = true)
    (hback : a.fallsBack s.client = false)
    (hlast : a.increments = true → s.client.connectionReadinessStep ≠ 255) :
    LinkPhase (s.complete p a) := by
  have hk := answers_iff.1 ha
  have hlink := outstanding_complete .addLink a hp RequestKind.noConfusion
  have hcount := outstanding_complete .startNetwork a hp RequestKind.noConfusion
  have hheld := ready_heldStep s.client hback
  have hup' : (s.complete p a).LinkUp := by
    refine ⟨(ready_setupLinkDone s.client a).trans hup.1, ?_⟩
    have := hup.2
    omega
  have hstep' : (s.complete p a).client.connectionReadinessStep =
    (ready s.client a).client.connectionReadinessStep := rfl
  rw [← hk] at hcount
  generalize (ready s.client a).client.connectionReadinessStep = step' at hheld hstep'
  cases hheld with
  | stays => exact .up hup' (by omega) (by split_ifs at hcount <;> omega)
  | up hinc =>
    have := hlast hinc
    exact .up hup' (by omega) (by split_ifs at hcount <;> omega)
  | again hkind =>
    rw [if_pos hkind] at hcount
    exact .up hup' (by omega) (by omega)
  | down hkind =>
    -- the one start-network request has come back, and it was issued at step `9`
    rw [if_pos hkind] at hcount
    exact .up hup' (by omega) (by omega)

/-- **What one event of the session keeps.** -/
theorem step {tr : List Label} (h : LinkPhase s) (hs : SessionStep s l s')
    (hg : KeepsLink tr s l) : LinkPhase s' := by
  obtain ⟨⟨hact, hok⟩, hs⟩ := hs
  obtain ⟨event, session, notified⟩ := l
  cases event with
  | activate simSlot => cases hact
  | tick =>
    obtain ⟨-, -, rfl, -, -⟩ := Slot.step_tick_iff.1 hs
    exact h.tick
  | complete p a =>
    obtain ⟨-, ⟨hp, ha⟩, rfl, -, -⟩ := Slot.step_complete_iff.1 hs
    obtain ⟨hlink, hheld⟩ := hg a rfl
    by_cases hkind : a.kind = .addLink
    · exact h.complete_addLink hp ha hkind (hok a rfl) (hlink hkind)
    · cases h with
      | before hstep hearly hasked => exact complete_before hstep hearly hasked hp ha hkind
      | up hup hstep hstart =>
        exact complete_up hup hstep hstart hp ha (hheld hup).1 (hheld hup).2

end LinkPhase

end Imsd
