import Imsd.WdsOutstanding

/-!
# Which profile is an answer about?

The callback of a get-profile-settings request gets the client and nothing else, and takes for
granted that the answer is about the profile under the index of the client's profile list.  Both
belong to the list that was stored last: a second get-profile-list answer replaces them while
requests for the first list are in flight.

A `Tracked` slot records for every settings request in flight what it was issued for: the number of
the list and the index (`Tag`), and whether the list has been released.  The record does not
influence the slot: `run_slot` and `exists_tracked_run` are the two directions.

`attributed_iff`: a settings answer is taken for that of its own profile (`Attributed`) exactly
when its list is still the one stored last, as long as it was so for the answers before it.  Then
the requests for that list form a chain, with one of them in flight (`Chained`).
-/

namespace Imsd

open EventSystem

/-! ### Tracked slots -/

/-- What a settings request was issued for: the number of a profile list, and an index. -/
structure Tag where
  list : ℕ
  index : ℕ
  deriving DecidableEq

/-- A slot, the number of profile lists it has stored, whether the last of these is still there,
and the tags of the settings requests in flight. -/
structure Tracked where
  slot : Slot
  lists : ℕ
  live : Bool
  tags : List (Pending × Tag)

/-- An event, with the tag of the settings request that it completes. -/
structure TrackedLabel where
  label : Label
  tag : Tag

/-- A settings request is completed. -/
def TrackedLabel.settles (l : TrackedLabel) : Bool :=
  l.label.event.answer?.any fun a => a.kind = .getProfileSettings

/-- The answer stores a profile list. -/
def Answer.storesList : Answer → Bool
  | .getProfileList (.ok (some (_ :: _))) => true
  | _ => false

namespace Tracked

/-- Before the first activation. -/
def Idle (t : Tracked) : Prop := t.slot.Idle ∧ t.tags = []

/-- The record after a completion: the requests issued by the callback are for the list that is
stored then and its index; the end of a chain releases the list. -/
def complete (t : Tracked) (p : Pending) (a : Answer) (tag : Tag) : Tracked :=
  let e := ready t.slot.client a
  let lists := if a.storesList then t.lists + 1 else t.lists
  { slot := t.slot.complete p a
    lists
    live :=
      if a.storesList then true
      else if a.kind = .getProfileSettings then t.live && !e.issued.isEmpty
      else t.live
    tags := (if a.kind = .getProfileSettings then t.tags.erase (p, tag) else t.tags) ++
      e.issued.map fun r => (⟨p.session, r⟩, ⟨lists, e.client.profileList.i⟩) }

/-- The record after an event. -/
def next (t : Tracked) (l : TrackedLabel) : Tracked :=
  match l.label.event with
  | .activate simSlot => { t with slot := t.slot.activate simSlot }
  | .tick => { t with slot := t.slot.tick }
  | .complete p a => t.complete p a l.tag

/-- The tag of a settings request that is completed is one it has. -/
def Allows (t : Tracked) (event : SlotEvent) (tag : Tag) : Prop :=
  match event with
  | .complete p a => a.kind = .getProfileSettings → (p, tag) ∈ t.tags
  | _ => True

instance (t : Tracked) (event : SlotEvent) (tag : Tag) : Decidable (t.Allows event tag) :=
  match event with
  | .activate _ => inferInstanceAs (Decidable True)
  | .tick => inferInstanceAs (Decidable True)
  | .complete _ _ => inferInstanceAs (Decidable (_ → _))

/-- The step relation. -/
def Step (t : Tracked) (l : TrackedLabel) (t' : Tracked) : Prop :=
  t.Allows l.label.event l.tag ∧ t.slot.Step l.label t'.slot ∧ t' = t.next l

/-- One event, if it can happen. -/
def step (t : Tracked) (e : SlotEvent × Tag) : Option (Tracked × TrackedLabel) :=
  (t.slot.step e.1).bind fun r =>
    if t.Allows e.1 e.2 then some (t.next ⟨r.2, e.2⟩, ⟨r.2, e.2⟩) else none

variable {t t' : Tracked} {s' : Slot} {l : TrackedLabel}

/-- The slot goes its own way. -/
theorem slot_next {label : Label} {tag : Tag} (h : t.slot.Step label s') :
    (t.next ⟨label, tag⟩).slot = s' := by
  obtain ⟨event, session, notified⟩ := label
  cases event with
  | activate simSlot => exact (Slot.step_activate_iff.1 h).2.1.symm
  | tick => exact (Slot.step_tick_iff.1 h).2.2.1.symm
  | complete p a => exact (Slot.step_complete_iff.1 h).2.2.1.symm

/-- An event that can happen. -/
theorem exists_of_step_eq {e : SlotEvent × Tag} (h : t.step e = some (t', l)) :
    ∃ s', t.slot.step e.1 = some (s', l.label) ∧ t.Allows e.1 l.tag ∧ t' = t.next l := by
  unfold step at h
  obtain ⟨⟨s', label⟩, hs, h⟩ := Option.bind_eq_some_iff.1 h
  dsimp only at h
  split_ifs at h with hallow
  cases h
  exact ⟨s', hs, hallow, rfl⟩

theorem event_of_step_eq {e : SlotEvent × Tag} (h : t.step e = some (t', l)) :
    l.label.event = e.1 := by
  obtain ⟨s', hs, -, -⟩ := exists_of_step_eq h
  exact Slot.event_of_step_eq hs

theorem step_of_step_eq {e : SlotEvent × Tag} (h : t.step e = some (t', l)) : t.Step l t' := by
  have hevent := event_of_step_eq h
  obtain ⟨s', hs, hallow, rfl⟩ := exists_of_step_eq h
  have hstep := Slot.step_of_step_eq hs
  refine ⟨?_, ?_, rfl⟩
  · rw [hevent]
    exact hallow
  · rw [slot_next hstep]
    exact hstep

/-! ### The record and the slot -/

/-- The record only watches. -/
theorem run_slot {G : List TrackedLabel → Tracked → TrackedLabel → Prop} {tr : List TrackedLabel}
    (h : Run Idle Step G tr t) :
    Run Slot.Idle Slot.Step unguarded (tr.map TrackedLabel.label) t.slot := by
  induction h with
  | start hi => exact .start hi.1
  | snoc _ _ hs ih =>
    rw [List.map_append]
    exact .snoc ih trivial hs.2.1

/-- A request for profile settings. -/
def settings (p : Pending) : Bool := p.request.kind = .getProfileSettings

/-- The tags are those of the settings requests in flight. -/
def Complete (t : Tracked) : Prop := (t.tags.map Prod.fst).Perm (t.slot.pending.filter settings)

theorem Complete.tick (h : t.Complete) : Complete { t with slot := t.slot.tick } := by
  have hnone : ((getWdsReadyToConnect t.slot.client).issued.map
      (Pending.mk t.slot.sessions)).filter settings = [] := by
    refine List.filter_eq_nil_iff.2 fun p hp hk => ?_
    obtain ⟨r, hr, rfl⟩ := List.mem_map.1 hp
    have := tick_issues_iff.1 ⟨r, hr, (of_decide_eq_true hk).symm⟩
    simp [unguardedSteps] at this
  unfold Complete
  rw [pending_tick, List.filter_append, hnone, List.append_nil]
  exact h

theorem Complete.complete {p : Pending} {a : Answer} {tag : Tag} (h : t.Complete)
    (hp : p ∈ t.slot.pending) (ha : a.answers p.request = true)
    (htag : a.kind = .getProfileSettings → (p, tag) ∈ t.tags) : (t.complete p a tag).Complete := by
  have hk := answers_iff.1 ha
  have hissued : ((ready t.slot.client a).issued.map (Pending.mk p.session)).filter settings =
      (ready t.slot.client a).issued.map (Pending.mk p.session) := by
    refine List.filter_eq_self.2 fun q hq => ?_
    obtain ⟨r, hr, rfl⟩ := List.mem_map.1 hq
    exact decide_eq_true (ready_issued t.slot.client a r hr)
  have hslot : (t.complete p a tag).slot = t.slot.complete p a := rfl
  have htags : (t.complete p a tag).tags.map Prod.fst =
      (if a.kind = .getProfileSettings then t.tags.erase (p, tag) else t.tags).map Prod.fst ++
        (ready t.slot.client a).issued.map (Pending.mk p.session) := by
    simp only [Tracked.complete, List.map_append, List.map_map]
    rfl
  unfold Complete at h ⊢
  rw [htags, hslot, pending_complete, List.filter_append, hissued]
  refine .append_right _ ?_
  -- what is in flight, with the request that completes in front
  have hpending := (List.perm_cons_erase hp).filter settings
  split_ifs with hsettings
  · have hpos : settings p = true := decide_eq_true (hk.symm.trans hsettings)
    rw [List.filter_cons_of_pos hpos] at hpending
    have herase := (List.perm_cons_erase (htag hsettings)).map Prod.fst
    exact (herase.symm.trans (h.trans hpending)).cons_inv
  · have hneg : ¬ settings p = true := fun h => hsettings (hk.trans (of_decide_eq_true h))
    rw [List.filter_cons_of_neg hneg] at hpending
    exact h.trans hpending

theorem Complete.step (h : t.Complete) (hs : t.Step l t') : t'.Complete := by
  obtain ⟨hallow, hs, rfl⟩ := hs
  obtain ⟨⟨event, session, notified⟩, tag⟩ := l
  cases event with
  | activate simSlot => exact h
  | tick => exact h.tick
  | complete p a =>
    obtain ⟨-, ⟨hp, ha⟩, -⟩ := Slot.step_complete_iff.1 hs
    exact h.complete hp ha hallow

/-- A request that completes has a tag. -/
theorem Complete.exists_allows {label : Label} (h : t.Complete) (hs : t.slot.Step label s') :
    ∃ tag, t.Allows label.event tag := by
  obtain ⟨event, session, notified⟩ := label
  cases event with
  | activate simSlot => exact ⟨⟨0, 0⟩, trivial⟩
  | tick => exact ⟨⟨0, 0⟩, trivial⟩
  | complete p a =>
    obtain ⟨-, ⟨hp, ha⟩, -⟩ := Slot.step_complete_iff.1 hs
    by_cases hk : a.kind = .getProfileSettings
    · have hmem : p ∈ t.slot.pending.filter settings :=
        List.mem_filter.2 ⟨hp, decide_eq_true ((answers_iff.1 ha).symm.trans hk)⟩
      obtain ⟨⟨p', tag⟩, htag, rfl⟩ := List.mem_map.1 (h.mem_iff.2 hmem)
      exact ⟨tag, fun _ => htag⟩
    · exact ⟨⟨0, 0⟩, fun h => absurd h hk⟩

/-- **Every run of a slot can be tracked.** -/
theorem exists_tracked_run {tr : List Label} {s : Slot}
    (h : Run Slot.Idle Slot.Step unguarded tr s) :
    ∃ tr' t, Run Idle Step unguarded tr' t ∧ t.slot = s ∧ t.Complete ∧
      tr'.map TrackedLabel.label = tr := by
  induction h with
  | @start s hi =>
    refine ⟨[], ⟨s, 0, false, []⟩, .start ⟨hi, rfl⟩, rfl, ?_, rfl⟩
    show ([] : List Pending).Perm (s.pending.filter _)
    rw [hi.2.1]
    exact .refl _
  | @snoc tr s s' label _ _ hs ih =>
    obtain ⟨tr', t, hr, rfl, hcomplete, rfl⟩ := ih
    obtain ⟨tag, htag⟩ := hcomplete.exists_allows hs
    have hstep : t.Step ⟨label, tag⟩ (t.next ⟨label, tag⟩) :=
      ⟨htag, by rw [slot_next hs]; exact hs, rfl⟩
    exact ⟨tr' ++ [⟨label, tag⟩], t.next ⟨label, tag⟩, hr.snoc trivial hstep, slot_next hs,
      hcomplete.step hstep, by rw [List.map_append]; rfl⟩

end Tracked

/-! ### The callbacks that work on the list -/

section Ready

variable (client : WDSClient)

/-- The request for the settings of a profile. -/
def Profile.request (profile : Profile) : Request :=
  .getProfileSettings profile.profileType profile.profileIndex

/-- The next request of the chain, if there is one, is for the profile under the index. -/
theorem nextProfileSettings_spec :
    (wdsGetNextProfileSettings client).client.profileList = client.profileList ∧
    (wdsGetNextProfileSettings client).client.profileId = client.profileId ∧
    (wdsGetNextProfileSettings client).issued =
      (client.profileList.profileList[client.profileList.i]?).toList.map Profile.request := by
  unfold wdsGetNextProfileSettings
  split
  · next hnone =>
    rw [hnone]
    dsimp only
    split_ifs <;> exact ⟨rfl, rfl, rfl⟩
  · next profile hsome =>
    rw [hsome]
    exact ⟨rfl, rfl, rfl⟩

/-- The list behind the profile that is taken. -/
def ProfileList.advance (list : ProfileList) : ProfileList :=
  { list with i := (list.i + 1) % 2 ^ 32 }

/-- `inner_ctx->i++`, and the request for the next profile. -/
theorem keepOn_spec :
    (wdsGetProfileSettingsReady.keepOn client).client.profileList = client.profileList.advance ∧
    (wdsGetProfileSettingsReady.keepOn client).client.profileId = client.profileId ∧
    (wdsGetProfileSettingsReady.keepOn client).issued =
      (client.profileList.profileList[client.profileList.advance.i]?).toList.map
        Profile.request :=
  nextProfileSettings_spec { client with profileList := client.profileList.advance }

section Settings

variable {client : WDSClient} {profile : Profile}
  (hprofile : client.profileList.profileList[client.profileList.i]? = some profile)
  (reply : Reply Unit (Option UInt64))
include hprofile

/-- **What the callback of a settings request does**, when the list is there: the profile under the
index is taken, and the next one is asked for. -/
theorem settingsReady_spec :
    (ready client (.getProfileSettings reply)).client.profileList =
      client.profileList.advance ∧
    (ready client (.getProfileSettings reply)).client.profileId =
      (if reply.ims then profile.profileIndex else client.profileId) ∧
    (ready client (.getProfileSettings reply)).issued =
      (client.profileList.profileList[client.profileList.advance.i]?).toList.map
        Profile.request := by
  rw [ready_settings client hprofile]
  cases hims : reply.ims with
  | true =>
    rw [takeProfile_of_ims client hims]
    exact keepOn_spec _
  | false =>
    rw [takeProfile_of_not_ims client hims]
    exact keepOn_spec _

/-- The step that it leaves: a profile that is taken is ready, and at the end of the list the client
needs one. -/
theorem settingsReady_step :
    (ready client (.getProfileSettings reply)).client.connectionReadinessStep =
      if (client.profileList.profileList[client.profileList.advance.i]?).isNone ∧
        (ready client (.getProfileSettings reply)).client.profileId = 0
      then wdsConnectionFindProfileAddModify
      else if reply.ims then wdsConnectionStateProfileReady
      else client.connectionReadinessStep := by
  obtain ⟨-, hid, -⟩ := keepOn_spec (takeProfile client profile reply.mask)
  rw [ready_settings client hprofile, hid, keepOn_step]
  cases hims : reply.ims with
  | true =>
    rw [takeProfile_of_ims client hims]
    rfl
  | false =>
    rw [takeProfile_of_not_ims client hims]
    rfl

end Settings

/-- A list that is stored, and the first request for it. -/
theorem ready_storesList {a : Answer} (h : a.storesList = true) :
    a.kind = .getProfileList ∧ ∃ profile profiles,
      (ready client a).client.profileList = ⟨0, profile :: profiles⟩ ∧
      (ready client a).issued = [profile.request] := by
  cases a with
  | getProfileList reply =>
    rcases reply with _ | _ | (_ | _ | ⟨profile, profiles⟩)
    · cases h
    · cases h
    · cases h
    · cases h
    · obtain ⟨hlist, -, hissued⟩ :=
        nextProfileSettings_spec { client with profileList := ⟨0, profile :: profiles⟩ }
      exact ⟨rfl, profile, profiles, hlist, hissued⟩
  | _ => cases h

/-- The other callbacks leave the list alone. -/
theorem ready_keepsList {a : Answer} (hstores : a.storesList = false)
    (hkind : a.kind ≠ .getProfileSettings) :
    (ready client a).client.profileList = client.profileList ∧ (ready client a).issued = [] := by
  cases a with
  | getProfileList reply =>
    rcases reply with _ | _ | (_ | _ | ⟨profile, profiles⟩)
    · exact ⟨rfl, rfl⟩
    · exact ⟨rfl, rfl⟩
    · exact ⟨rfl, rfl⟩
    · exact ⟨rfl, rfl⟩
    · cases hstores
  | getProfileSettings reply => exact absurd rfl hkind
  | createProfile reply => rcases reply with _ | _ | (_ | _) <;> exact ⟨rfl, rfl⟩
  | modifyProfile reply => exact ⟨rfl, rfl⟩
  | addLink link => rcases link with _ | _ <;> exact ⟨rfl, rfl⟩
  | bindMuxDataPort reply => rcases reply with _ | _ | _ <;> exact ⟨rfl, rfl⟩
  | startNetwork reply => rcases reply with _ | (_ | _) | (_ | _) <;> exact ⟨rfl, rfl⟩
  | getCurrentSettings output =>
    rw [ready_getCurrentSettings]
    cases output.bind CurrentSettings.address? <;> exact ⟨rfl, rfl⟩

end Ready

/-! ### Attribution -/

/-- The answer is processed against the list and the index that its request was issued for, the
list has not been released, and a profile id that is set is the index of the profile that the
request was for. -/
structure Attributed (t : Tracked) (l : TrackedLabel) (t' : Tracked) : Prop where
  list : l.settles = true → l.tag.list = t.lists
  index : l.settles = true → l.tag.index = t.slot.client.profileList.i
  live : l.settles = true → t.live = true
  profile : ∀ p reply, l.label.event = .complete p (.getProfileSettings reply) →
    reply.ims = true → ∀ profile : Profile, p.request = profile.request →
      t'.slot.client.profileId = profile.profileIndex

/-- Nothing is said about other events. -/
theorem Attributed.of_not_settles {t t' : Tracked} {l : TrackedLabel} (h : l.settles = false) :
    Attributed t l t' := by
  have hne : l.settles ≠ true := by simp [h]
  refine ⟨fun h => absurd h hne, fun h => absurd h hne, fun h => absurd h hne, ?_⟩
  intro p reply hevent
  refine absurd ?_ hne
  unfold TrackedLabel.settles
  rw [hevent]
  rfl

/-- No list has been stored since the request was issued. -/
def ListUnreplaced (_ : List TrackedLabel) (t : Tracked) (l : TrackedLabel) : Prop :=
  l.settles = true → l.tag.list = t.lists

instance (tr : List TrackedLabel) (t : Tracked) (l : TrackedLabel) :
    Decidable (ListUnreplaced tr t l) := inferInstanceAs (Decidable (_ → _))

/-- The requests in flight for the list stored last: one at most, for the profile under the index
of the list, which has not been released. -/
structure Chained (t : Tracked) : Prop where
  stored : ∀ x ∈ t.tags, x.2.list ≤ t.lists
  chain : ∀ x ∈ t.tags, x.2.list = t.lists → x.2.index = t.slot.client.profileList.i ∧
    t.live = true ∧
    ∃ profile, t.slot.client.profileList.profileList[t.slot.client.profileList.i]? = some profile ∧
      x.1.request = profile.request
  one : t.tags.countP (fun x => x.2.list = t.lists) ≤ 1

namespace Chained

variable {t t' : Tracked} {l : TrackedLabel} {p : Pending} {a : Answer} {tag : Tag}

theorem of_idle (h : t.Idle) : Chained t := by
  have hnil := h.2
  exact ⟨by rw [hnil]; simp, by rw [hnil]; simp, by rw [hnil]; simp⟩

/-- A new list: what is in flight is for the lists before it, but for its first request. -/
theorem complete_list (h : Chained t) (ha : a.storesList = true) :
    Chained (t.complete p a tag) := by
  obtain ⟨hkind, profile, profiles, hlist, hissued⟩ := ready_storesList t.slot.client ha
  have hlists : (t.complete p a tag).lists = t.lists + 1 := if_pos ha
  have htags : (t.complete p a tag).tags =
      t.tags ++ [(⟨p.session, profile.request⟩, ⟨t.lists + 1, 0⟩)] := by
    simp only [Tracked.complete, hissued, hlist, ha, if_true, hkind]
    rfl
  have hclient : (t.complete p a tag).slot.client.profileList = ⟨0, profile :: profiles⟩ := hlist
  have hlive : (t.complete p a tag).live = true := by
    simp only [Tracked.complete, ha, if_true]
  constructor
  · intro x hx
    rw [htags] at hx
    rcases List.mem_append.1 hx with hx | hx
    · have := h.stored x hx
      omega
    · rw [List.mem_singleton.1 hx, hlists]
  · intro x hx heq
    rw [htags] at hx
    rcases List.mem_append.1 hx with hx | hx
    · have := h.stored x hx
      omega
    · rw [List.mem_singleton.1 hx, hclient]
      exact ⟨rfl, hlive, profile, rfl, rfl⟩
  · have hnone : t.tags.countP (fun x => x.2.list = t.lists + 1) = 0 := by
      refine List.countP_eq_zero.2 fun x hx => ?_
      have := h.stored x hx
      simp only [decide_eq_true_eq]
      omega
    rw [htags, hlists, List.countP_append, hnone]
    simp

/-- The next request of the chain takes the place of the one that is answered. -/
theorem complete_settings (h : Chained t) (hkind : a.kind = .getProfileSettings)
    (htag : (p, tag) ∈ t.tags) (hlist : tag.list = t.lists) : Chained (t.complete p a tag) := by
  obtain ⟨-, hlive, profile, hprofile, -⟩ := h.chain _ htag hlist
  cases a with
  | getProfileSettings reply =>
    obtain ⟨hadvance, -, hissued⟩ := settingsReady_spec hprofile reply
    generalize he : ready t.slot.client (.getProfileSettings reply) = e at hadvance hissued
    have hcomplete : t.complete p (.getProfileSettings reply) tag =
        { slot := t.slot.complete p (.getProfileSettings reply)
          lists := t.lists
          live := t.live && !e.issued.isEmpty
          tags := t.tags.erase (p, tag) ++
            e.issued.map fun r => (⟨p.session, r⟩, ⟨t.lists, e.client.profileList.i⟩) } := by
      rw [← he]
      rfl
    have hclient : (t.slot.complete p (.getProfileSettings reply)).client.profileList =
        t.slot.client.profileList.advance := by
      rw [← hadvance, ← he]
      rfl
    -- the request that is answered was the one of the chain
    have hone := h.one
    rw [(List.perm_cons_erase htag).countP_eq, List.countP_cons_of_pos (by simpa using hlist)]
      at hone
    have hzero : (t.tags.erase (p, tag)).countP (fun x => x.2.list = t.lists) = 0 := by omega
    have hold : ∀ x ∈ t.tags.erase (p, tag), x.2.list ≠ t.lists := by
      intro x hx
      simpa using List.countP_eq_zero.1 hzero x hx
    rw [hcomplete, hadvance, hissued]
    constructor
    · intro x hx
      rcases List.mem_append.1 hx with hx | hx
      · exact h.stored x (List.mem_of_mem_erase hx)
      · obtain ⟨r, -, rfl⟩ := List.mem_map.1 hx
        exact le_rfl
    · intro x hx heq
      rcases List.mem_append.1 hx with hx | hx
      · exact absurd heq (hold x hx)
      · obtain ⟨r, hr, rfl⟩ := List.mem_map.1 hx
        obtain ⟨profile, hprofile, rfl⟩ := List.mem_map.1 hr
        have hsome := Option.mem_toList.1 hprofile
        dsimp only
        rw [hclient]
        refine ⟨rfl, ?_, profile, hsome, rfl⟩
        rw [hlive, Option.mem_def.1 hsome]
        rfl
    · dsimp only
      rw [List.countP_append, hzero, Nat.zero_add]
      refine List.countP_le_length.trans ?_
      rw [List.length_map, List.length_map]
      exact Option.length_toList_le
  | _ => cases hkind

/-- Nothing but the tags, the list and its number matters. -/
theorem congr (h : Chained t) (htags : t'.tags = t.tags) (hlists : t'.lists = t.lists)
    (hlive : t'.live = t.live) (hlist : t'.slot.client.profileList = t.slot.client.profileList) :
    Chained t' := by
  constructor
  · rw [htags, hlists]
    exact h.stored
  · rw [htags, hlists, hlive, hlist]
    exact h.chain
  · rw [htags, hlists]
    exact h.one

/-- Another answer. -/
theorem complete_other (h : Chained t) (hstores : a.storesList = false)
    (hkind : a.kind ≠ .getProfileSettings) : Chained (t.complete p a tag) := by
  obtain ⟨hlist, hissued⟩ := ready_keepsList t.slot.client hstores hkind
  refine h.congr ?_ ?_ ?_ hlist
  · simp only [Tracked.complete, hissued, if_neg hkind, List.map_nil, List.append_nil]
  · simp only [Tracked.complete, hstores, Bool.false_eq_true, if_false]
  · simp only [Tracked.complete, hstores, Bool.false_eq_true, if_false, if_neg hkind]

/-- **What one event keeps**, if the list has not been replaced. -/
theorem step {tr : List TrackedLabel} (h : Chained t) (hg : ListUnreplaced tr t l)
    (hs : t.Step l t') : Chained t' := by
  obtain ⟨hallow, hs, rfl⟩ := hs
  obtain ⟨⟨event, session, notified⟩, tag⟩ := l
  cases event with
  | activate simSlot => exact h.congr rfl rfl rfl rfl
  | tick =>
    refine h.congr rfl rfl rfl ?_
    obtain ⟨step, done, endpointType, endpointIfnum, hclient⟩ := tick_client t.slot.client
    show (getWdsReadyToConnect t.slot.client).client.profileList = _
    rw [hclient]
  | complete p a =>
    by_cases hstores : a.storesList = true
    · exact h.complete_list hstores
    · rw [Bool.not_eq_true] at hstores
      by_cases hkind : a.kind = .getProfileSettings
      · exact h.complete_settings hkind (hallow hkind) (hg (decide_eq_true hkind))
      · exact h.complete_other hstores hkind

end Chained

/-- **What a whole run keeps.** -/
theorem chained_of_run {tr : List TrackedLabel} {t : Tracked}
    (h : Run Tracked.Idle Tracked.Step ListUnreplaced tr t) : Chained t := by
  induction h with
  | start hi => exact .of_idle hi
  | snoc _ hg hs ih => exact ih.step hg hs

/-- **Settings answers are taken for those of their own profiles exactly as long as no list is
stored between a request and its answer.** -/
theorem attributed_iff {tr : List TrackedLabel} {t t' : Tracked} {l : TrackedLabel}
    (hr : Run Tracked.Idle Tracked.Step ListUnreplaced tr t) (hs : t.Step l t') :
    Attributed t l t' ↔ ListUnreplaced tr t l := by
  have hchained := chained_of_run hr
  refine ⟨fun h => h.list, fun hg => ?_⟩
  obtain ⟨hallow, hs, rfl⟩ := hs
  obtain ⟨⟨event, session, notified⟩, tag⟩ := l
  cases event with
  | activate simSlot => exact .of_not_settles rfl
  | tick => exact .of_not_settles rfl
  | complete p a =>
    by_cases hkind : a.kind = .getProfileSettings
    · -- the request is the one of the chain
      have hlist : tag.list = t.lists := hg (decide_eq_true hkind)
      obtain ⟨hindex, hlive, profile', hget, hrequest⟩ := hchained.chain _ (hallow hkind) hlist
      refine ⟨fun _ => hlist, fun _ => hindex, fun _ => hlive, ?_⟩
      intro q reply hevent hims profile hprofile
      cases hevent
      obtain ⟨-, hid, -⟩ := settingsReady_spec hget reply
      have hsame : profile'.request = profile.request := hrequest.symm.trans hprofile
      have hindices : profile'.profileIndex = profile.profileIndex := by
        unfold Profile.request at hsame
        injection hsame
      refine hid.trans ?_
      rw [if_pos hims]
      exact hindices
    · exact .of_not_settles (decide_eq_false hkind)

/-- The tag of events that complete no settings request. -/
def noTag : Tag := ⟨0, 0⟩

/-- A tracked slot before its first activation. -/
def freshTracked : Tracked := ⟨freshSlot, 0, false, []⟩

/-- The runs of a fresh tracked slot that were simulated. -/
theorem trackedRun_of_simulate {ok : List TrackedLabel → Tracked → TrackedLabel → Bool}
    {G : List TrackedLabel → Tracked → TrackedLabel → Prop}
    (hok : ∀ tr t l, ok tr t l = true → G tr t l) {events : List (SlotEvent × Tag)}
    {r : List TrackedLabel × Tracked}
    (h : simulate Tracked.step ok [] freshTracked events = some r) :
    Run Tracked.Idle Tracked.Step G r.1 r.2 := by
  have hstart : Run Tracked.Idle Tracked.Step G [] freshTracked :=
    .start ⟨⟨rfl, rfl, rfl, rfl⟩, rfl⟩
  exact hstart.simulate h fun tr t _ _ l hs hl => ⟨hok tr t l hl, Tracked.step_of_step_eq hs⟩

/-- The first of two profiles has been answered. -/
def oneList : List (SlotEvent × Tag) :=
  [(.activate 0, noTag), (.tick, noTag),
    (.complete ⟨1, .getProfileList 0⟩ (.getProfileList (.ok (some [⟨0, 3⟩, ⟨0, 4⟩]))), noTag),
    (.complete ⟨1, .getProfileSettings 0 3⟩ (.getProfileSettings (.ok (some 1))), ⟨1, 0⟩)]

/-- The answer about the second. -/
def secondSettings : SlotEvent × Tag :=
  (.complete ⟨1, .getProfileSettings 0 4⟩ (.getProfileSettings (.ok (some 2))), ⟨1, 1⟩)

/-- The second profile of a list is taken for itself. -/
theorem attributed_second : ∃ t l t', Attributed t l t' ∧ l.settles = true ∧
    t'.slot.client.profileId = 4 := by
  have h : (simulate Tracked.step (fun tr t l => decide (ListUnreplaced tr t l)) [] freshTracked
      oneList).any fun r => (r.2.step secondSettings).any fun s => decide
        (ListUnreplaced r.1 r.2 s.2 ∧ s.2.settles = true ∧ s.1.slot.client.profileId = 4) := by
    decide +kernel
  obtain ⟨r, hr, h⟩ := (Option.any_eq_true _ _).1 h
  obtain ⟨s, hs, h⟩ := (Option.any_eq_true _ _).1 h
  obtain ⟨hg, hsettles, hid⟩ := of_decide_eq_true h
  have hrun := trackedRun_of_simulate (fun _ _ _ => of_decide_eq_true) hr
  exact ⟨r.2, s.2, s.1, (attributed_iff hrun (Tracked.step_of_step_eq hs)).2 hg, hsettles, hid⟩

/-- Two ticks at step `0` lead to two lists; the second comes before the settings of the profile
of the first. -/
def twoLists : List (SlotEvent × Tag) :=
  [(.activate 0, noTag), (.tick, noTag), (.tick, noTag),
    (.complete ⟨1, .getProfileList 0⟩ (.getProfileList (.ok (some [⟨0, 3⟩]))), noTag),
    (.complete ⟨1, .getProfileList 0⟩ (.getProfileList (.ok (some [⟨0, 5⟩]))), noTag)]

/-- The answer about the profile of the first list. -/
def firstSettings : SlotEvent × Tag :=
  (.complete ⟨1, .getProfileSettings 0 3⟩ (.getProfileSettings (.ok (some 2))), ⟨1, 0⟩)

/-- The settings of profile `3` are taken for those of profile `5`. -/
theorem not_attributed : ¬ ∀ tr t l t', Run Tracked.Idle Tracked.Step unguarded tr t →
    t.Step l t' → Attributed t l t' := by
  intro hall
  have h : (simulate Tracked.step (fun _ _ _ => true) [] freshTracked twoLists).any fun r =>
      (r.2.step firstSettings).any fun s => s.1.slot.client.profileId == 5 := by
    decide +kernel
  obtain ⟨r, hr, h⟩ := (Option.any_eq_true _ _).1 h
  obtain ⟨s, hs, h⟩ := (Option.any_eq_true _ _).1 h
  have hfive : s.1.slot.client.profileId = 5 := eq_of_beq h
  have hrun := trackedRun_of_simulate (fun _ _ _ _ => trivial) hr
  have hattributed := hall _ _ _ _ hrun (Tracked.step_of_step_eq hs)
  have hthree := hattributed.profile _ _ (Tracked.event_of_step_eq hs) rfl ⟨0, 3⟩ rfl
  exact absurd (hfive.symm.trans hthree) (by decide)

end Imsd
