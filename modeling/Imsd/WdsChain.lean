import Imsd.WdsProfiles

/-!
# From a list of profiles to a profile

The answer to a get-profile-list request starts a chain: `wds_get_next_profile_settings` asks for
the settings of one profile, and the callback of that request moves the index on and calls it
again, whether the request has failed or not.  At the end of the list it decides by `profile_id`
whether a profile has to be created.

* A `Chain` is a slot with the settings requests of the chain that are in flight and all that the
  chain has issued.  In a `Chain.Step` one of these requests completes, and nothing else happens.
* `Chain.At`: where a chain is after some outcomes.  `at_start` and `At.step` keep it, and
  `At.exists_step` lets the chain go on until every profile has had its turn.
* `asks_for_every_profile`: the requests are those for the profiles in their order, and at the end
  the profile of the client is the last one that is for IMS (`lastIms`).
-/

namespace Imsd

open EventSystem

/-- The outcome of a settings request. -/
abbrev Outcome := Reply Unit (Option UInt64)

/-- The index of the last profile whose outcome carries the IMS mask, `0` if there is none. -/
def lastIms (profiles : List Profile) (outcomes : List Outcome) : UInt8 :=
  (((profiles.zip outcomes).filter fun x => x.2.ims).getLast?.map
    fun x => x.1.profileIndex).getD 0

/-- One more outcome. -/
theorem lastIms_snoc {profiles : List Profile} {outcomes : List Outcome} {profile : Profile}
    (h : profiles[outcomes.length]? = some profile) (o : Outcome) :
    lastIms profiles (outcomes ++ [o]) =
      if o.ims then profile.profileIndex else lastIms profiles outcomes := by
  have hzip : profiles.zip (outcomes ++ [o]) = profiles.zip outcomes ++ [(profile, o)] := by
    induction outcomes generalizing profiles with
    | nil =>
      cases profiles with
      | nil => cases h
      | cons first rest => cases h; cases rest <;> rfl
    | cons outcome outcomes ih =>
      cases profiles with
      | nil => cases h
      | cons first rest => exact congrArg ((first, outcome) :: ·) (ih h)
  unfold lastIms
  rw [hzip, List.filter_append]
  cases hims : o.ims with
  | true => simp [hims]
  | false => simp [hims]

/-- A slot, the settings requests of a chain that are in flight, and all that the chain has
issued. -/
structure Chain where
  slot : Slot
  inFlight : List Pending
  issued : List Request

namespace Chain

/-- A request completes, and what its callback issues belongs to the chain. -/
def next (c : Chain) (p : Pending) (a : Answer) : Chain :=
  let e := ready c.slot.client a
  { slot := c.slot.complete p a
    inFlight := c.inFlight.erase p ++ e.issued.map (⟨p.session, ·⟩)
    issued := c.issued ++ e.issued }

/-- The chain behind the answer to a get-profile-list request. -/
def start (s : Slot) (p : Pending) (profiles : List Profile) : Chain :=
  next ⟨s, [], []⟩ p (.getProfileList (.ok (some profiles)))

/-- One of the chain's requests completes. -/
def Step (c : Chain) (o : Outcome) (c' : Chain) : Prop :=
  ∃ q ∈ c.inFlight,
    c.slot.Step ⟨.complete q (.getProfileSettings o), c.slot.sessions, none⟩ c'.slot ∧
    c' = c.next q (.getProfileSettings o)

/-- Every profile has been asked for, no request of the chain is left, and the last IMS profile
decides how the client goes on. -/
structure Ended (profiles : List Profile) (outcomes : List Outcome) (c : Chain) : Prop where
  issued : c.issued = profiles.map Profile.request
  inFlight : c.inFlight = []
  profileId : c.slot.client.profileId = lastIms profiles outcomes
  step : c.slot.client.connectionReadinessStep =
    if lastIms profiles outcomes = 0 then wdsConnectionFindProfileAddModify
    else wdsConnectionStateProfileReady

/-- Where a chain is after the outcomes of the first requests: the one for the next profile is in
flight, and the step is decided as soon as a profile has been taken, or the list is at its end. -/
structure At (session : ℕ) (profiles : List Profile) (outcomes : List Outcome) (c : Chain) :
    Prop where
  alive : c.slot.crashed = false
  length : outcomes.length ≤ profiles.length
  list : c.slot.client.profileList = ⟨outcomes.length, profiles⟩
  issued : c.issued = (profiles.take (outcomes.length + 1)).map Profile.request
  inFlight : c.inFlight =
    (profiles[outcomes.length]?).toList.map fun profile => ⟨session, profile.request⟩
  pending : ∀ q ∈ c.inFlight, q ∈ c.slot.pending
  profileId : c.slot.client.profileId = lastIms profiles outcomes
  taken : lastIms profiles outcomes ≠ 0 →
    c.slot.client.connectionReadinessStep = wdsConnectionStateProfileReady
  left : outcomes.length = profiles.length → lastIms profiles outcomes = 0 →
    c.slot.client.connectionReadinessStep = wdsConnectionFindProfileAddModify

variable {c c' : Chain} {o : Outcome} {outcomes : List Outcome} {profiles : List Profile}
  {session : ℕ}

/-- What the callback issues is in flight afterwards, next to what was. -/
theorem pending_next {p : Pending} {a : Answer} (h : c.inFlight.erase p = []) :
    ∀ q ∈ (c.next p a).inFlight, q ∈ (c.next p a).slot.pending := by
  intro q hq
  have hissued : (c.next p a).inFlight =
      (ready c.slot.client a).issued.map (⟨p.session, ·⟩) := by
    show c.inFlight.erase p ++ _ = _
    rw [h, List.nil_append]
  rw [hissued] at hq
  exact List.mem_append_right _ hq

/-- The first request. -/
theorem at_start {s : Slot} (p : Pending) (hne : profiles ≠ []) (hid : s.client.profileId = 0) :
    At p.session profiles [] (start s p profiles) := by
  obtain ⟨profile, rest, rfl⟩ := List.exists_cons_of_ne_nil hne
  constructor
  · rfl
  · exact Nat.zero_le _
  · rfl
  · rfl
  · rfl
  · exact pending_next rfl
  · exact hid
  · exact fun h => absurd rfl h
  · exact fun h => by cases h

/-- **What one outcome keeps.** -/
theorem At.step (h : At session profiles outcomes c) (hlen : profiles.length < 2 ^ 32)
    (hs : c.Step o c') : At session profiles (outcomes ++ [o]) c' := by
  obtain ⟨q, hq, -, rfl⟩ := hs
  -- the request in flight is the one for the profile under the index
  rw [h.inFlight] at hq
  obtain ⟨profile, hprofile, rfl⟩ := List.mem_map.1 hq
  have hget : profiles[outcomes.length]? = some profile := Option.mem_toList.1 hprofile
  have hlt : outcomes.length < profiles.length := (List.getElem?_eq_some_iff.1 hget).1
  have hlast := lastIms_snoc hget o
  have hadvance : c.slot.client.profileList.advance = ⟨outcomes.length + 1, profiles⟩ := by
    have hmod : (outcomes.length + 1) % 2 ^ 32 = outcomes.length + 1 :=
      Nat.mod_eq_of_lt (by omega)
    rw [h.list]
    exact congrArg (ProfileList.mk · profiles) hmod
  have hsnoc : (outcomes ++ [o]).length = outcomes.length + 1 := List.length_append
  have hunder : c.slot.client.profileList.profileList[c.slot.client.profileList.i]? =
      some profile := by
    rw [h.list]
    exact hget
  obtain ⟨hlist, hid, hissued⟩ := settingsReady_spec hunder o
  rw [hadvance] at hlist hissued
  rw [h.list] at hissued
  dsimp only at hissued
  have herase : c.inFlight.erase ⟨session, profile.request⟩ = [] := by
    rw [h.inFlight, hget]
    exact List.erase_cons_head _ _
  have hid' : (c.next ⟨session, profile.request⟩ (.getProfileSettings o)).slot.client.profileId =
      lastIms profiles (outcomes ++ [o]) := by
    rw [hlast, ← h.profileId]
    exact hid
  have hstep := settingsReady_step hunder o
  rw [hadvance, h.list] at hstep
  constructor
  · show (ready? c.slot.client (.getProfileSettings o)).isNone = false
    rw [ready?_isNone, Answer.survived, (ProfileList.live_iff _).2 ⟨profile, hunder⟩]
    rfl
  · rw [hsnoc]
    exact hlt
  · rw [hsnoc]
    exact hlist
  · rw [hsnoc, List.take_add_one, List.map_append, ← h.issued, ← hissued]
    rfl
  · show c.inFlight.erase _ ++ List.map _ (ready _ (.getProfileSettings o)).issued = _
    rw [herase, hissued, hsnoc, List.nil_append, List.map_map]
    rfl
  · exact pending_next herase
  · exact hid'
  · intro hne
    refine hstep.trans ((if_neg fun hend => hne (hid'.symm.trans hend.2)).trans ?_)
    cases hims : o.ims with
    | true => rfl
    | false =>
      rw [hlast, hims] at hne
      exact h.taken hne
  · intro hend h0
    have hnone : profiles[outcomes.length + 1]? = none :=
      List.getElem?_eq_none (by omega)
    exact hstep.trans (if_pos ⟨by rw [hnone]; rfl, hid'.trans h0⟩)

/-- The chain goes on with any outcome as long as a profile is left. -/
theorem At.exists_step (h : At session profiles outcomes c)
    (hlt : outcomes.length < profiles.length) (o : Outcome) : ∃ c', c.Step o c' := by
  have hmem : (⟨session, profiles[outcomes.length].request⟩ : Pending) ∈ c.inFlight := by
    rw [h.inFlight, List.getElem?_eq_getElem hlt]
    exact List.mem_singleton_self _
  exact ⟨_, _, hmem,
    Slot.step_complete_iff.2 ⟨h.alive, ⟨h.pending _ hmem, rfl⟩, rfl, rfl, rfl⟩, rfl⟩

/-- **What all outcomes keep.** -/
theorem At.path (h : At session profiles outcomes c) (hlen : profiles.length < 2 ^ 32)
    {rest : List Outcome} (hp : Path Step c rest c') :
    At session profiles (outcomes ++ rest) c' := by
  induction hp generalizing outcomes with
  | nil c => rwa [List.append_nil]
  | cons hs _ ih =>
    rw [List.append_cons]
    exact ih (h.step hlen hs)

/-- The chain goes on until every profile has had its turn. -/
theorem At.exists_path (h : At session profiles outcomes c) (hlen : profiles.length < 2 ^ 32)
    {rest : List Outcome} (hle : (outcomes ++ rest).length ≤ profiles.length) :
    ∃ c', Path Step c rest c' := by
  induction rest generalizing outcomes c with
  | nil => exact ⟨c, .nil c⟩
  | cons o rest ih =>
    have hlt : outcomes.length < profiles.length := by
      rw [List.length_append, List.length_cons] at hle
      omega
    obtain ⟨c₁, hs⟩ := h.exists_step hlt o
    rw [List.append_cons] at hle
    obtain ⟨c', hp⟩ := ih (h.step hlen hs) hle
    exact ⟨c', .cons hs hp⟩

/-- Behind the last profile the chain has ended. -/
theorem At.ended (h : At session profiles outcomes c)
    (hend : outcomes.length = profiles.length) : Ended profiles outcomes c := by
  constructor
  · rw [h.issued, List.take_of_length_le (by omega)]
  · rw [h.inFlight, List.getElem?_eq_none (by omega)]
    rfl
  · exact h.profileId
  · split_ifs with h0
    · exact h.left hend h0
    · exact h.taken h0

/-- **The settings of every profile are asked for, in the order of the list, whatever the
outcomes, and the last IMS profile is the one that is left.** -/
theorem asks_for_every_profile {s s' : Slot} {l : Label} {p : Pending} (hs : s.Step l s')
    (hl : l.event = .complete p (.getProfileList (.ok (some profiles)))) (hne : profiles ≠ [])
    (hlen : profiles.length < 2 ^ 32) (hid : s.client.profileId = 0) :
    (start s p profiles).slot = s' ∧
    (∀ outcomes, (∃ c, Path Step (start s p profiles) outcomes c) ↔
      outcomes.length ≤ profiles.length) ∧
    ∀ outcomes c, Path Step (start s p profiles) outcomes c →
      c.issued = (profiles.take (outcomes.length + 1)).map Profile.request ∧
      (outcomes.length = profiles.length → Ended profiles outcomes c) := by
  have hstart := at_start p hne hid
  refine ⟨?_, fun outcomes => ⟨?_, ?_⟩, fun outcomes c hp => ?_⟩
  · obtain ⟨event, session, notified⟩ := l
    obtain rfl : event = _ := hl
    exact (Slot.step_complete_iff.1 hs).2.2.1.symm
  · rintro ⟨c, hp⟩
    exact (hstart.path hlen hp).length
  · exact fun hle => hstart.exists_path hlen hle
  · have hat := hstart.path hlen hp
    exact ⟨hat.issued, hat.ended⟩

/-- A slot that has asked for its list of profiles. -/
def askedSlot : Slot := (freshSlot.activate 0).tick

/-- The first request fails, the second profile is for IMS, and the third request is not answered:
the three of them are asked for, and the client goes on with the second. -/
theorem asks_for_every_profile_three :
    ∃ c, Path Step (start askedSlot ⟨1, .getProfileList 0⟩ [⟨0, 3⟩, ⟨0, 4⟩, ⟨0, 5⟩])
        [.error ⟨⟩, .ok (some 2), .noOutput] c ∧
      c.issued = [.getProfileSettings 0 3, .getProfileSettings 0 4, .getProfileSettings 0 5] ∧
      c.inFlight = [] ∧ c.slot.client.profileId = 4 ∧
      c.slot.client.connectionReadinessStep = 2 := by
  have hs : askedSlot.Step ⟨.complete ⟨1, .getProfileList 0⟩
      (.getProfileList (.ok (some [⟨0, 3⟩, ⟨0, 4⟩, ⟨0, 5⟩]))), 1, none⟩ _ :=
    Slot.step_complete_iff.2 ⟨rfl, ⟨by decide, rfl⟩, rfl, rfl, rfl⟩
  obtain ⟨-, hpaths, hchain⟩ := asks_for_every_profile hs rfl (by decide) (by decide) rfl
  obtain ⟨c, hp⟩ := (hpaths [.error ⟨⟩, .ok (some 2), .noOutput]).2 le_rfl
  have hended := (hchain _ c hp).2 rfl
  exact ⟨c, hp, hended.issued, hended.inFlight, hended.profileId, hended.step⟩

end Chain

end Imsd
