import Imsd.WdsDesign
import Imsd.WdsOutstanding

/-!
# The order of a session's requests

A tick goes by the counter alone, and the callbacks move the counter whatever it has come to.
Still the requests of one session come in order, whatever the answers say and whenever they come:

* the link is asked for once, and after a profile was settled;
* the data port is bound with the mux id of the link, so after its answer;
* the network is started, and its settings are asked for, after a bind-mux-data-port request has
  succeeded.

That the network was started before its settings are asked for is not among them: two answers to
bind-mux-data-port take the counter past the step that starts it.

`Due` says what has to have come before a request.  The invariant is `InOrder`: what has come is
read off the counter at three places, `2`, `5` and `8`, and each of the answers that move it past
one of them either brings what is needed there, or its own request was in order.
-/

namespace Imsd

open EventSystem

/-! ### What has come -/

/-- The answer settles the profile: the settings of an IMS profile, or the index of one that was
created. -/
def Answer.settlesProfile : Answer → Bool
  | .getProfileSettings reply => reply.ims
  | .createProfile (.ok (some _)) => true
  | _ => false

/-- The mux id of the link that an answer brings. -/
def Answer.linkMux? : Answer → Option UInt32
  | .addLink (some (_, muxId)) => some muxId
  | _ => none

/-- The answer says that the data port is bound. -/
def Answer.bindsPort : Answer → Bool
  | .bindMuxDataPort (.ok _) => true
  | _ => false

/-- An answer with this property has come. -/
def Came (tr : List Label) (p : Answer → Prop) : Prop := ∃ l ∈ tr, ∃ a ∈ l.event.answer?, p a

/-- What has to have come before a request is issued. -/
def Due (tr : List Label) : Request → Prop
  | .addLink => Came tr (·.settlesProfile = true)
  | .bindMuxDataPort _ _ muxId =>
    Came tr (·.settlesProfile = true) ∧ Came tr (·.linkMux? = some muxId)
  | .startNetwork _ | .getCurrentSettings =>
    Came tr (·.settlesProfile = true) ∧ Came tr (·.linkMux?.isSome = true) ∧
      Came tr (·.bindsPort = true)
  | _ => True

/-- An event of a session: there is no other activation. -/
def OwnStep (s : Slot) (l : Label) (s' : Slot) : Prop := l.event.activates = false ∧ s.Step l s'

section Came

variable {tr : List Label} {l : Label} {p q : Answer → Prop} {r : Request}

theorem not_came_nil : ¬ Came [] p := by
  rintro ⟨l, hl, -⟩
  exact absurd hl List.not_mem_nil

theorem came_snoc : Came (tr ++ [l]) p ↔ Came tr p ∨ ∃ a ∈ l.event.answer?, p a := by
  simp [Came, or_and_right, exists_or]

theorem Came.snoc (h : Came tr p) (l : Label) : Came (tr ++ [l]) p := came_snoc.2 (Or.inl h)

theorem Came.imp (h : Came tr p) (hpq : ∀ a, p a → q a) : Came tr q := by
  obtain ⟨l, hl, a, ha, hp⟩ := h
  exact ⟨l, hl, a, ha, hpq a hp⟩

theorem Due.snoc (h : Due tr r) (l : Label) : Due (tr ++ [l]) r := by
  cases r with
  | addLink => exact Came.snoc h l
  | bindMuxDataPort => exact ⟨h.1.snoc l, h.2.snoc l⟩
  | startNetwork => exact ⟨h.1.snoc l, h.2.1.snoc l, h.2.2.snoc l⟩
  | getCurrentSettings => exact ⟨h.1.snoc l, h.2.1.snoc l, h.2.2.snoc l⟩
  | _ => trivial

end Came

/-! ### What ticks and callbacks do -/

section Ready

variable (client : WDSClient) (a : Answer)

theorem ready_muxId : (ready client a).client.muxId = a.linkMux?.getD client.muxId := by
  cases a with
  | getProfileList reply =>
    obtain ⟨step, list, -, h⟩ := getProfileList_client client reply
    rw [h]
    rfl
  | getProfileSettings reply =>
    obtain ⟨step, profileId, list, -, h⟩ := getProfileSettings_client client reply
    rw [h]
    rfl
  | createProfile reply => rcases reply with _ | _ | (_ | _) <;> rfl
  | modifyProfile reply => rfl
  | addLink link => rcases link with _ | ⟨linkName, muxId⟩ <;> rfl
  | bindMuxDataPort reply => rcases reply with _ | _ | _ <;> rfl
  | startNetwork reply => rcases reply with _ | (_ | _) | (_ | _) <;> rfl
  | getCurrentSettings output =>
    rw [ready_getCurrentSettings]
    cases output.bind CurrentSettings.address? <;> rfl

theorem tick_profileId : (getWdsReadyToConnect client).client.profileId = client.profileId := by
  obtain ⟨step, done, endpointType, endpointIfnum, h⟩ := tick_client client
  rw [h]

theorem tick_muxId : (getWdsReadyToConnect client).client.muxId = client.muxId := by
  obtain ⟨step, done, endpointType, endpointIfnum, h⟩ := tick_client client
  rw [h]

theorem nextProfileSettings_profileId :
    (wdsGetNextProfileSettings client).client.profileId = client.profileId := by
  rcases nextProfileSettings_client client with h | ⟨h, -⟩
  · rw [h]
  · rw [h]
    rfl

/-- The profile id is left alone by an answer that does not settle the profile. -/
theorem ready_profileId (h : a.settlesProfile = false) :
    (ready client a).client.profileId = client.profileId := by
  cases a with
  | getProfileList reply =>
    obtain ⟨step, list, -, h⟩ := getProfileList_client client reply
    rw [h]
  | getProfileSettings reply =>
    cases hprofile : client.profileList.profileList[client.profileList.i]? with
    | none => rw [ready_released client hprofile]
    | some profile =>
      rw [ready_settings client hprofile, takeProfile_of_not_ims client h]
      exact nextProfileSettings_profileId _
  | createProfile reply =>
    rcases reply with _ | _ | (_ | _)
    · rfl
    · rfl
    · rfl
    · cases h
  | modifyProfile reply => rfl
  | addLink link => rcases link with _ | ⟨linkName, muxId⟩ <;> rfl
  | bindMuxDataPort reply => rcases reply with _ | _ | _ <;> rfl
  | startNetwork reply => rcases reply with _ | (_ | _) | (_ | _) <;> rfl
  | getCurrentSettings output =>
    rw [ready_getCurrentSettings]
    cases output.bind CurrentSettings.address? <;> rfl

/-- The answers that can move the counter up to `n`, from below, with `2 ≤ n`. -/
inductive Rises (a : Answer) (step n : ℕ) : Prop
  | profile (h : a.settlesProfile = true) (hn : n = 2)
  | link (h : a.linkMux?.isSome = true) (hn : n = step + 1)
  | bind (h : a.bindsPort = true)
  | network (h : a.kind = .startNetwork ∨ a.kind = .getCurrentSettings)

theorem ready_rises {n : ℕ} (hn : 2 ≤ n) (h : client.connectionReadinessStep < n)
    (h' : n ≤ (ready client a).client.connectionReadinessStep) :
    Rises a client.connectionReadinessStep n := by
  cases a with
  | getProfileList reply =>
    obtain ⟨step, list, hstep, hclient⟩ := getProfileList_client client reply
    rw [hclient] at h'
    dsimp only at h'
    omega
  | getProfileSettings reply =>
    obtain ⟨step, profileId, list, hstep, hclient⟩ := getProfileSettings_client client reply
    cases hims : reply.ims with
    | true =>
      rw [hclient] at h'
      dsimp only at h'
      exact .profile hims (by omega)
    | false =>
      cases hprofile : client.profileList.profileList[client.profileList.i]? with
      | none =>
        rw [ready_released client hprofile] at h'
        exact absurd h' (not_le.2 h)
      | some profile =>
        rw [ready_settings client hprofile, takeProfile_of_not_ims client hims, keepOn_step] at h'
        split_ifs at h' <;> omega
  | createProfile reply =>
    rcases reply with _ | _ | (_ | profileId)
    · exact absurd h' (not_le.2 h)
    · exact absurd h' (not_le.2 h)
    · exact absurd h' (not_le.2 h)
    · have h2 : n ≤ 2 := h'
      exact .profile rfl (by omega)
  | modifyProfile reply => exact absurd h' (not_le.2 h)
  | addLink link =>
    rcases link with _ | ⟨linkName, muxId⟩
    · exact absurd h' (not_le.2 h)
    · have hup : n ≤ (client.connectionReadinessStep + 1) % 256 := h'
      have hle := Nat.mod_le (client.connectionReadinessStep + 1) 256
      exact .link rfl (by omega)
  | bindMuxDataPort reply =>
    rcases reply with _ | _ | _
    · exact absurd h' (not_le.2 h)
    · exact absurd h' (not_le.2 h)
    · exact .bind rfl
  | startNetwork reply => exact .network (Or.inl rfl)
  | getCurrentSettings output => exact .network (Or.inr rfl)

end Ready

/-! ### A session -/

/-- An answer to the add-link request. -/
def Label.answersLink (l : Label) : Bool :=
  match l.event with
  | .complete _ (.addLink _) => true
  | _ => false

/-- What holds in every state of a session. -/
structure InOrder (tr : List Label) (s : Slot) : Prop where
  profileId : s.client.profileId ≠ 0 → Came tr (·.settlesProfile = true)
  profile : 2 ≤ s.client.connectionReadinessStep → Came tr (·.settlesProfile = true)
  link : 5 ≤ s.client.connectionReadinessStep → Came tr (·.linkMux?.isSome = true)
  bound : 8 ≤ s.client.connectionReadinessStep → Came tr (·.bindsPort = true)
  /-- The link is asked for once, and its mux id stays. -/
  asked : s.outstanding .addLink + tr.countP Label.answersLink =
    if s.client.setupLinkDone then 1 else 0
  mux : Came tr (·.linkMux?.isSome = true) → Came tr (·.linkMux? = some s.client.muxId)
  due : ∀ p ∈ s.pending, Due tr p.request

namespace InOrder

variable {tr : List Label} {s s' : Slot} {l : Label} {p : Pending} {a : Answer}

theorem of_activated (h : Activated s) : InOrder [] s := by
  obtain ⟨s₀, simSlot, ⟨-, hpending, -⟩, rfl⟩ := h
  have hnone : (s₀.activate simSlot).pending = [] := hpending
  have hstep : (s₀.activate simSlot).client.connectionReadinessStep = 0 := rfl
  refine ⟨fun h => absurd rfl h, fun h => ?_, fun h => ?_, fun h => ?_, ?_,
    fun h => absurd h not_came_nil, ?_⟩
  · omega
  · omega
  · omega
  · rw [outstanding_eq_zero_iff.2 (by rw [hnone]; simp)]
    rfl
  · rw [hnone]
    simp

/-- **What a tick issues is due.** -/
theorem due_of_issued (h : InOrder tr s) {r : Request}
    (hr : r ∈ (getWdsReadyToConnect s.client).issued) : Due tr r := by
  rw [tick_issued] at hr
  split_ifs at hr with h0 h1 _ h4 _ h7 h9 h12 <;>
    simp only [List.mem_singleton, List.not_mem_nil] at hr <;> subst hr
  · trivial
  · trivial
  · trivial
  · exact h.profile (by omega)
  · exact ⟨h.profile (by omega), h.mux (h.link (by omega))⟩
  · exact ⟨h.profile (by omega), h.link (by omega), h.bound (by omega)⟩
  · exact ⟨h.profile (by omega), h.link (by omega), h.bound (by omega)⟩

/-- **What a tick keeps.** -/
theorem tick (h : InOrder tr s) {session : ℕ} {notified : Option (UInt32 × List UInt8)} :
    InOrder (tr ++ [⟨.tick, session, notified⟩]) s.tick := by
  have hcame : ∀ q, Came (tr ++ [⟨.tick, session, notified⟩]) q ↔ Came tr q := fun q =>
    came_snoc.trans (or_iff_left (by simp [SlotEvent.answer?]))
  have hstep : s.tick.client.connectionReadinessStep = _ := tick_step s.client
  have hdone : s.tick.client.setupLinkDone = _ := tick_setupLinkDone s.client
  have hid : s.tick.client.profileId = s.client.profileId := tick_profileId s.client
  have hmux : s.tick.client.muxId = s.client.muxId := tick_muxId s.client
  have hlinks : (tr ++ [Label.mk .tick session notified]).countP Label.answersLink =
      tr.countP Label.answersLink := by
    rw [List.countP_append]
    rfl
  simp only [List.mem_cons, List.not_mem_nil, or_false] at hstep
  constructor
  · rw [hid, hcame]
    exact h.profileId
  · rw [hcame]
    intro h2
    by_cases hid' : s.client.connectionReadinessStep = 1 ∧ s.client.profileId ≠ 0
    · exact h.profileId hid'.2
    · rw [if_neg hid'] at hstep
      exact h.profile (by split_ifs at hstep <;> omega)
  · rw [hcame]
    intro h5
    exact h.link (by split_ifs at hstep <;> omega)
  · rw [hcame]
    intro h8
    exact h.bound (by split_ifs at hstep <;> omega)
  · have hasked := h.asked
    rw [hlinks, hdone]
    by_cases hlink : s.client.connectionReadinessStep = 4 ∧ s.client.setupLinkDone = false
    · rw [hlink.2, if_neg Bool.false_ne_true] at hasked
      rw [outstanding_tick_of_issues (tick_issues_addLink_iff.2 hlink), hlink.1, hlink.2]
      show _ = 1
      omega
    · rw [outstanding_tick_of_not_issues (mt tick_issues_addLink_iff.1 hlink), hasked]
      cases hset : s.client.setupLinkDone with
      | true => rfl
      | false =>
        have h4 : s.client.connectionReadinessStep ≠ 4 := fun h4 => hlink ⟨h4, hset⟩
        rw [decide_eq_false h4]
        rfl
  · rw [hcame, hcame, hmux]
    exact h.mux
  · intro q hq
    rcases mem_pending_tick.1 hq with hq | ⟨-, hr⟩
    · exact (h.due q hq).snoc _
    · exact (h.due_of_issued hr).snoc _

/-- The link has not been answered while its request is in flight. -/
theorem not_came_link (h : InOrder tr s) (hp : p ∈ s.pending)
    (hkind : p.request.kind = .addLink) : ¬ Came tr (·.linkMux?.isSome = true) := by
  rintro ⟨l, hl, a, ha, hmux⟩
  have hone : 0 < s.outstanding .addLink :=
    List.countP_pos_iff.2 ⟨p, hp, decide_eq_true hkind⟩
  have hanswered : 0 < tr.countP Label.answersLink := by
    refine List.countP_pos_iff.2 ⟨l, hl, ?_⟩
    obtain ⟨event, session, notified⟩ := l
    cases event with
    | complete q b =>
      obtain rfl : b = a := Option.some.inj ha
      cases b with
      | addLink link => rfl
      | _ => cases hmux
    | _ => cases ha
  have hasked := h.asked
  split_ifs at hasked <;> omega

/-- The answers that start the network or read its settings, and those that bind the port, come
after everything that is due. -/
theorem all_due (h : InOrder tr s) (hp : p ∈ s.pending) (ha : a.answers p.request = true)
    (hl : l.event = .complete p a)
    (hkind : a.bindsPort = true ∨ a.kind = .startNetwork ∨ a.kind = .getCurrentSettings) :
    Came (tr ++ [l]) (·.settlesProfile = true) ∧ Came (tr ++ [l]) (·.linkMux?.isSome = true) ∧
      Came (tr ++ [l]) (·.bindsPort = true) := by
  have hdue := h.due p hp
  have hanswer : a ∈ l.event.answer? := by rw [hl]; exact rfl
  cases hr : p.request with
  | bindMuxDataPort endpointType endpointIfnum muxId =>
    rw [hr] at hdue ha
    have hbinds : a.bindsPort = true := by
      rw [answers_iff.1 ha] at hkind
      simpa [Request.kind] using hkind
    exact ⟨hdue.1.snoc l, (hdue.2.imp fun b hb => by rw [hb]; rfl).snoc l,
      came_snoc.2 (Or.inr ⟨a, hanswer, hbinds⟩)⟩
  | startNetwork profileIndex =>
    rw [hr] at hdue
    exact ⟨hdue.1.snoc l, hdue.2.1.snoc l, hdue.2.2.snoc l⟩
  | getCurrentSettings =>
    rw [hr] at hdue
    exact ⟨hdue.1.snoc l, hdue.2.1.snoc l, hdue.2.2.snoc l⟩
  | _ =>
    rw [hr] at ha
    cases a with
    | bindMuxDataPort => cases ha
    | startNetwork => cases ha
    | getCurrentSettings => cases ha
    | _ => simp [Answer.bindsPort, Answer.kind] at hkind

/-- The answer to the add-link request comes after the profile. -/
theorem profile_due (h : InOrder tr s) (hp : p ∈ s.pending) (ha : a.answers p.request = true)
    (hmux : a.linkMux?.isSome = true) :
    Came tr (·.settlesProfile = true) ∧ p.request.kind = .addLink := by
  have hdue := h.due p hp
  cases a with
  | addLink link =>
    cases hr : p.request with
    | addLink =>
      rw [hr] at hdue
      exact ⟨hdue, rfl⟩
    | _ =>
      rw [hr] at ha
      cases ha
  | _ => cases hmux

/-- **What a completion keeps.** -/
theorem complete (h : InOrder tr s) {session : ℕ} {notified : Option (UInt32 × List UInt8)}
    (hp : p ∈ s.pending) (ha : a.answers p.request = true) :
    InOrder (tr ++ [⟨.complete p a, session, notified⟩]) (s.complete p a) := by
  have hanswer : ∀ q : Answer → Prop, q a →
      Came (tr ++ [⟨.complete p a, session, notified⟩]) q :=
    fun q hq => came_snoc.2 (Or.inr ⟨a, rfl, hq⟩)
  have hall := h.all_due (l := ⟨.complete p a, session, notified⟩) hp ha rfl
  have hlink := h.profile_due hp ha
  constructor
  · intro hid
    cases hsettles : a.settlesProfile with
    | true => exact hanswer _ hsettles
    | false =>
      have hid' : s.client.profileId ≠ 0 := by
        rwa [← ready_profileId s.client a hsettles]
      exact (h.profileId hid').snoc _
  · intro h2
    by_cases hle : 2 ≤ s.client.connectionReadinessStep
    · exact (h.profile hle).snoc _
    · cases ready_rises s.client a le_rfl (not_le.1 hle) h2 with
      | profile hsettles => exact hanswer _ hsettles
      | link hmux => exact (hlink hmux).1.snoc _
      | bind hbinds => exact (hall (Or.inl hbinds)).1
      | network hkind => exact (hall (Or.inr hkind)).1
  · intro h5
    by_cases hle : 5 ≤ s.client.connectionReadinessStep
    · exact (h.link hle).snoc _
    · cases ready_rises s.client a (by decide) (not_le.1 hle) h5 with
      | profile _ hn => cases hn
      | link hmux => exact hanswer _ hmux
      | bind hbinds => exact (hall (Or.inl hbinds)).2.1
      | network hkind => exact (hall (Or.inr hkind)).2.1
  · intro h8
    by_cases hle : 8 ≤ s.client.connectionReadinessStep
    · exact (h.bound hle).snoc _
    · cases ready_rises s.client a (by decide) (not_le.1 hle) h8 with
      | profile _ hn => cases hn
      | link hmux hn =>
        -- at step `7` the link has been answered already
        exact absurd (h.link (by omega)) (h.not_came_link hp (hlink hmux).2)
      | bind hbinds => exact hanswer _ hbinds
      | network hkind => exact (hall (Or.inr hkind)).2.2
  · have hasked := h.asked
    have hcount := outstanding_complete .addLink a hp RequestKind.noConfusion
    have hdone : (s.complete p a).client.setupLinkDone = s.client.setupLinkDone :=
      ready_setupLinkDone s.client a
    have hanswers : Label.answersLink ⟨.complete p a, session, notified⟩ = true ↔
        p.request.kind = .addLink := by
      rw [← answers_iff.1 ha]
      cases a <;> simp [Label.answersLink, Answer.kind]
    rw [List.countP_append, List.countP_singleton, hdone, ← hasked, ← hcount]
    split_ifs with hl hk hk
    · omega
    · exact absurd (hanswers.1 hl) hk
    · exact absurd (hanswers.2 hk) hl
    · omega
  · intro hcame
    show Came _ (·.linkMux? = some (ready s.client a).client.muxId)
    rw [ready_muxId]
    cases hmux : a.linkMux? with
    | some muxId => exact hanswer _ hmux
    | none =>
      rw [came_snoc] at hcame
      rcases hcame with hcame | ⟨b, hb, hsome⟩
      · exact (h.mux hcame).snoc _
      · obtain rfl : a = b := Option.some.inj hb
        rw [hmux] at hsome
        cases hsome
  · intro q hq
    rcases pending_complete_cases hq with hq | ⟨-, hkind⟩
    · exact (h.due q hq).snoc _
    · cases hr : q.request with
      | getProfileSettings => trivial
      | _ =>
        rw [hr] at hkind
        cases hkind

/-- **What one event keeps.** -/
theorem step (h : InOrder tr s) (hs : OwnStep s l s') : InOrder (tr ++ [l]) s' := by
  obtain ⟨hact, hs⟩ := hs
  obtain ⟨event, session, notified⟩ := l
  cases event with
  | activate simSlot => cases hact
  | tick =>
    obtain ⟨-, -, rfl, -, -⟩ := Slot.step_tick_iff.1 hs
    exact h.tick
  | complete p a =>
    obtain ⟨-, ⟨hp, ha⟩, rfl, -, -⟩ := Slot.step_complete_iff.1 hs
    exact h.complete hp ha

/-- **What a whole session keeps.** -/
theorem of_run (hr : Run Activated OwnStep unguarded tr s) : InOrder tr s :=
  hr.inv InOrder (fun _ => of_activated) fun _ _ _ _ _ h _ hs => h.step hs

end InOrder

/-- **The requests of a session come in order**, and the link is asked for once: what a tick issues
is due. -/
theorem issued_in_order {tr : List Label} {s : Slot}
    (hr : Run Activated OwnStep unguarded tr s) {r : Request}
    (h : r ∈ (getWdsReadyToConnect s.client).issued) :
    Due tr r ∧ (r = .addLink → s.outstanding .addLink = 0 ∧ tr.countP Label.answersLink = 0) := by
  have horder := InOrder.of_run hr
  refine ⟨horder.due_of_issued h, ?_⟩
  rintro rfl
  have hasked := horder.asked
  rw [(tick_issues_addLink_iff.1 ⟨_, h, rfl⟩).2, if_neg Bool.false_ne_true] at hasked
  omega

/-- The start of the network, in a bring-up that has come to it. -/
theorem issued_in_order_bringUp :
    ∃ tr, Came tr (·.linkMux? = some 1) ∧ Due tr (.startNetwork 3) := by
  have h : (simulate Slot.step (fun _ _ l => decide (l.event.activates = false)) []
      (freshSlot.activate 0) ((bringUp (.ok (some 7))).tail.take 12)).any fun r =>
        decide (r.2.client.muxId = 1 ∧ r.2.client.connectionReadinessStep = 9 ∧
          .startNetwork 3 ∈ (getWdsReadyToConnect r.2.client).issued) := by
    decide +kernel
  obtain ⟨r, hr, h⟩ := (Option.any_eq_true _ _).1 h
  obtain ⟨hmux, hstep, hissued⟩ := of_decide_eq_true h
  have hstart : Run Activated OwnStep unguarded [] (freshSlot.activate 0) :=
    .start ⟨freshSlot, 0, ⟨rfl, rfl, rfl, rfl⟩, rfl⟩
  have hrun : Run Activated OwnStep unguarded r.1 r.2 :=
    hstart.simulate hr fun _ _ _ _ _ hs hg =>
      ⟨trivial, of_decide_eq_true hg, Slot.step_of_step_eq hs⟩
  have horder := InOrder.of_run hrun
  refine ⟨r.1, ?_, (issued_in_order hrun hissued).1⟩
  rw [← hmux]
  exact horder.mux (horder.link (by omega))

end Imsd
