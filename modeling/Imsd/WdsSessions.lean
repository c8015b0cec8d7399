import Imsd.WdsSlot

/-!
# Requests of an earlier session

A slot can be activated again while requests of its previous session are still to be completed.
Nothing cancels them, and their callbacks get the client and nothing else: they work on the new
session, or end the process.  A stale completion is harmless when its answer is `inert`, that is,
when the callback is survived and moves neither the step nor the profile list.
`stale_completions_harmless`: in a run all of whose stale completions are inert, none of them
changes the step, the profile id or the packet data handle, and at its end these are what they are
without the stale completions.

The two runs are compared by `Sim`: their clients differ at most in `link_name`, which a failed
add-link request clears and nothing reads.
-/

namespace Imsd

open EventSystem

/-- The answers whose callbacks are survived and move neither the step nor the profile list. -/
def Answer.inert : Answer → Bool
  | .getProfileList (.ok _) => false
  | .getProfileSettings _ => false
  | .createProfile (.ok (some _)) => false
  | .addLink (some _) => false
  | .bindMuxDataPort (.ok _) => false
  | .startNetwork _ => false
  | .getCurrentSettings output => output.any fun output => output.result && output.address?.isNone
  | _ => true

/-- Stale completions are inert. -/
def InertStale (_ : List Label) (_ : Slot) (l : Label) : Prop :=
  l.stale = true → ∀ a ∈ l.event.answer?, a.inert = true

instance (tr : List Label) (s : Slot) (l : Label) : Decidable (InertStale tr s l) :=
  inferInstanceAs (Decidable (_ → ∀ a ∈ l.event.answer?, _))

/-- The same step, profile id and packet data handle, in a process that is as alive. -/
structure SameSession (s t : Slot) : Prop where
  step : s.client.connectionReadinessStep = t.client.connectionReadinessStep
  profileId : s.client.profileId = t.client.profileId
  handle : s.client.packetDataHandle = t.client.packetDataHandle
  crashed : s.crashed = t.crashed

/-! ### Nothing reads the link name -/

section LinkName

variable (client : WDSClient) (name : Option String)

/-- The client with another link name. -/
def WDSClient.named (client : WDSClient) (name : Option String) : WDSClient :=
  { client with linkName := name }

/-- The effect with another link name. -/
def Effect.named (e : Effect) (name : Option String) : Effect :=
  { e with client := e.client.named name }

theorem nextProfileSettings_named :
    wdsGetNextProfileSettings (client.named name) =
      (wdsGetNextProfileSettings client).named name := by
  have hlist : (client.named name).profileList = client.profileList := rfl
  have hid : (client.named name).profileId = client.profileId := rfl
  unfold wdsGetNextProfileSettings
  rw [hlist, hid]
  split
  · split_ifs <;> rfl
  · rfl

theorem tick_named :
    (getWdsReadyToConnect (client.named name)).toEffect =
        (getWdsReadyToConnect client).toEffect.named name ∧
      (getWdsReadyToConnect (client.named name)).notified =
        (getWdsReadyToConnect client).notified ∧
      (getWdsReadyToConnect (client.named name)).keep = (getWdsReadyToConnect client).keep := by
  refine ⟨?_, by rw [tick_notified, tick_notified]; rfl, by rw [tick_keep, tick_keep]; rfl⟩
  have hstep : (client.named name).connectionReadinessStep = client.connectionReadinessStep := rfl
  have hid : (client.named name).profileId = client.profileId := rfl
  have hdone : (client.named name).setupLinkDone = client.setupLinkDone := rfl
  unfold getWdsReadyToConnect
  rw [hstep]
  generalize client.connectionReadinessStep = step
  split
  -- two steps look at other fields
  case h_2 =>
    simp only [hid]
    split_ifs <;> rfl
  case h_5 =>
    simp only [wdsConnectionSetupLink, hdone]
    split_ifs <;> rfl
  case h_20 => simp_all; rfl
  all_goals rfl

theorem keepOn_named :
    wdsGetProfileSettingsReady.keepOn (client.named name) =
      (wdsGetProfileSettingsReady.keepOn client).named name :=
  nextProfileSettings_named { client with profileList :=
    { client.profileList with i := (client.profileList.i + 1) % 2 ^ 32 } } name

theorem takeProfile_named (profile : Profile) (mask : Option UInt64) :
    takeProfile (client.named name) profile mask =
      (takeProfile client profile mask).named name := by
  unfold takeProfile
  split_ifs <;> rfl

theorem settle_named (address : Option UInt32) :
    (client.named name).settle address = (client.settle address).named name := by
  cases address <;> rfl

theorem survived_named (answer : Answer) :
    answer.survived (client.named name) = answer.survived client := by
  cases answer <;> rfl

theorem ready_named (answer : Answer) : ∃ name',
    ready (client.named name) answer = (ready client answer).named name' := by
  cases answer with
  | getProfileList reply =>
    rcases reply with _ | _ | (_ | _ | ⟨profile, profiles⟩)
    · exact ⟨name, rfl⟩
    · exact ⟨name, rfl⟩
    · exact ⟨name, rfl⟩
    · exact ⟨name, rfl⟩
    · exact ⟨name, nextProfileSettings_named
        { client with profileList := ⟨0, profile :: profiles⟩ } name⟩
  | getProfileSettings reply =>
    refine ⟨name, ?_⟩
    cases hprofile : client.profileList.profileList[client.profileList.i]? with
    | none =>
      rw [ready_released client hprofile, ready_released (client.named name) hprofile]
      rfl
    | some profile =>
      rw [ready_settings client hprofile, ready_settings (client.named name) hprofile,
        takeProfile_named, keepOn_named]
  | createProfile reply => rcases reply with _ | _ | (_ | _) <;> exact ⟨name, rfl⟩
  | modifyProfile reply => exact ⟨name, rfl⟩
  | addLink link =>
    rcases link with _ | ⟨linkName, muxId⟩
    · exact ⟨none, rfl⟩
    · exact ⟨some linkName, rfl⟩
  | bindMuxDataPort reply => rcases reply with _ | _ | _ <;> exact ⟨name, rfl⟩
  | startNetwork reply => rcases reply with _ | (_ | _) | (_ | _) <;> exact ⟨name, rfl⟩
  | getCurrentSettings output =>
    refine ⟨name, ?_⟩
    rw [ready_getCurrentSettings, ready_getCurrentSettings, settle_named]
    rfl

/-- The callback of an inert answer does nothing, or clears the link name. -/
theorem ready_of_inert {answer : Answer} (h : answer.inert = true) : ∃ name',
    ready client answer = ⟨client.named name', []⟩ := by
  have hsame : ∃ name', (⟨client, []⟩ : Effect) = ⟨client.named name', []⟩ :=
    ⟨client.linkName, rfl⟩
  cases answer with
  | getProfileList reply =>
    rcases reply with _ | _ | _
    · exact hsame
    · exact hsame
    · exact absurd h Bool.false_ne_true
  | getProfileSettings reply => exact absurd h Bool.false_ne_true
  | createProfile reply =>
    rcases reply with _ | _ | (_ | _)
    · exact hsame
    · exact hsame
    · exact hsame
    · exact absurd h Bool.false_ne_true
  | modifyProfile reply => exact hsame
  | addLink link =>
    rcases link with _ | _
    · exact ⟨none, rfl⟩
    · exact absurd h Bool.false_ne_true
  | bindMuxDataPort reply =>
    rcases reply with _ | _ | _
    · exact hsame
    · exact hsame
    · exact absurd h Bool.false_ne_true
  | startNetwork reply => exact absurd h Bool.false_ne_true
  | getCurrentSettings output =>
    cases output with
    | none => exact absurd h Bool.false_ne_true
    | some output =>
      obtain ⟨-, hnone⟩ := Bool.and_eq_true_iff.1 h
      rw [ready_getCurrentSettings, Option.bind_some, Option.isNone_iff_eq_none.1 hnone]
      exact hsame

/-- The callback of an inert answer is survived. -/
theorem survived_of_inert {answer : Answer} (h : answer.inert = true) :
    answer.survived client = true := by
  cases answer with
  | getProfileSettings reply => exact absurd h Bool.false_ne_true
  | getCurrentSettings output =>
    cases output with
    | none => exact absurd h Bool.false_ne_true
    | some output =>
      obtain ⟨hresult, -⟩ := Bool.and_eq_true_iff.1 h
      show output.survived = true
      rw [CurrentSettings.survived, hresult, Bool.true_or]
  | _ => rfl

end LinkName

/-! ### The run without the stale completions -/

/-- `t` is `s` up to the link name, and has the pending requests of `s` and perhaps more. -/
structure Sim (s t : Slot) : Prop where
  client : ∃ name, t.client = s.client.named name
  timers : t.timers = s.timers
  sessions : t.sessions = s.sessions
  pending : s.pending.Sublist t.pending
  crashed : t.crashed = s.crashed

namespace Sim

variable {s s' t : Slot} {l : Label}

theorem sameSession (h : Sim s t) : SameSession s t := by
  obtain ⟨name, hc⟩ := h.client
  exact ⟨by rw [hc]; rfl, by rw [hc]; rfl, by rw [hc]; rfl, h.crashed.symm⟩

/-- Both slots take a callback's effect. -/
theorem issue (h : Sim s t) (session : ℕ) (e : Effect) (name : Option String) :
    Sim (s.issue session e) (t.issue session (e.named name)) where
  client := ⟨name, rfl⟩
  timers := h.timers
  sessions := h.sessions
  pending := h.pending.append (List.Sublist.refl _)
  crashed := h.crashed

/-- The completion of the same request. -/
theorem erase (h : Sim s t) (p : Pending) :
    Sim { s with pending := s.pending.erase p } { t with pending := t.pending.erase p } where
  client := h.client
  timers := h.timers
  sessions := h.sessions
  pending := h.pending.erase p
  crashed := h.crashed

/-- Every event of `s` can happen in `t`. -/
theorem step (h : Sim s t) (hs : s.Step l s') : ∃ t', t.Step l t' ∧ Sim s' t' := by
  obtain ⟨name, hc⟩ := h.client
  obtain ⟨event, session, notified⟩ := l
  cases event with
  | activate simSlot =>
    obtain ⟨halive, rfl, rfl, rfl⟩ := Slot.step_activate_iff.1 hs
    refine ⟨t.activate simSlot,
      Slot.step_activate_iff.2 ⟨h.crashed.trans halive, rfl, h.sessions.symm, rfl⟩, ?_⟩
    exact ⟨⟨name, by show initiateWdsSession t.client simSlot = _; rw [hc]; rfl⟩,
      congrArg (· + 1) h.timers, congrArg (· + 1) h.sessions, h.pending, h.crashed⟩
  | tick =>
    obtain ⟨halive, hpos, rfl, rfl, rfl⟩ := Slot.step_tick_iff.1 hs
    obtain ⟨heffect, hnotified, hkeep⟩ := tick_named s.client name
    refine ⟨t.tick, Slot.step_tick_iff.2 ⟨h.crashed.trans halive, h.timers.symm ▸ hpos, rfl,
      h.sessions.symm, by rw [hc, hnotified]⟩, ?_⟩
    have hissue := h.issue s.sessions (getWdsReadyToConnect s.client).toEffect name
    unfold Slot.tick
    rw [hc, heffect, hkeep, h.timers, h.sessions]
    exact ⟨hissue.client, rfl, hissue.sessions, hissue.pending, hissue.crashed⟩
  | complete p a =>
    obtain ⟨halive, ⟨hmem, hans⟩, rfl, rfl, rfl⟩ := Slot.step_complete_iff.1 hs
    refine ⟨t.complete p a, Slot.step_complete_iff.2
      ⟨h.crashed.trans halive, ⟨h.pending.subset hmem, hans⟩, rfl, h.sessions.symm, rfl⟩, ?_⟩
    obtain ⟨name', hready⟩ := ready_named s.client name a
    have hissue := (h.erase p).issue p.session (ready s.client a) name'
    unfold Slot.complete
    rw [hc, hready, ready?_isNone, ready?_isNone, survived_named]
    exact ⟨hissue.client, hissue.timers, hissue.sessions, hissue.pending, rfl⟩

/-- A stale completion that is inert need not happen in `t`. -/
theorem stale (h : Sim s t) (halive : s.crashed = false) {p : Pending} {a : Answer}
    (ha : a.inert = true) : Sim (s.complete p a) t := by
  obtain ⟨name, hc⟩ := h.client
  obtain ⟨name', hready⟩ := ready_of_inert s.client ha
  unfold Slot.complete
  rw [hready, ready?_isNone, survived_of_inert s.client ha]
  refine ⟨⟨name, hc⟩, h.timers, h.sessions, ?_, h.crashed.trans halive⟩
  show (s.pending.erase p ++ []).Sublist t.pending
  rw [List.append_nil]
  exact List.erase_sublist.trans h.pending

end Sim

/-- A stale label is a completion. -/
theorem exists_of_stale {tr : List Label} {s s' : Slot} {l : Label} (hg : InertStale tr s l)
    (hs : s.Step l s') (hstale : l.stale = true) :
    s.crashed = false ∧ ∃ p a, a.inert = true ∧ s' = s.complete p a := by
  obtain ⟨event, session, notified⟩ := l
  cases event with
  | activate => exact absurd hstale Bool.false_ne_true
  | tick => exact absurd hstale Bool.false_ne_true
  | complete p a =>
    obtain ⟨halive, -, rfl, -, -⟩ := Slot.step_complete_iff.1 hs
    exact ⟨halive, p, a, hg hstale a rfl, rfl⟩

/-- **A run whose stale completions are inert, without them.** -/
theorem exists_run_without_stale {tr : List Label} {s : Slot}
    (h : Run Slot.Idle Slot.Step InertStale tr s) :
    ∃ t, Run Slot.Idle Slot.Step unguarded (tr.filter fun l => !l.stale) t ∧ Sim s t := by
  induction h with
  | @start s hi =>
    exact ⟨s, .start hi, ⟨s.client.linkName, rfl⟩, rfl, rfl, List.Sublist.refl _, rfl⟩
  | @snoc tr s s' l _ hg hs ih =>
    obtain ⟨t, ht, hsim⟩ := ih
    rw [List.filter_append]
    by_cases hstale : l.stale = true
    · obtain ⟨halive, p, a, hinert, rfl⟩ := exists_of_stale hg hs hstale
      refine ⟨t, ?_, hsim.stale halive hinert⟩
      rw [List.filter_cons_of_neg (by simp [hstale]), List.filter_nil, List.append_nil]
      exact ht
    · obtain ⟨t', ht', hsim'⟩ := hsim.step hs
      refine ⟨t', ?_, hsim'⟩
      rw [List.filter_cons_of_pos (by simp [hstale]), List.filter_nil]
      exact ht.snoc trivial ht'

/-- **Stale completions that are inert are harmless**: they change nothing of the session, and
without them the run ends in the same session. -/
theorem stale_completions_harmless {tr : List Label} {s : Slot}
    (h : Run Slot.Idle Slot.Step InertStale tr s) :
    (∀ l s', InertStale tr s l → s.Step l s' → l.stale = true → SameSession s s') ∧
      ∃ t, Run Slot.Idle Slot.Step unguarded (tr.filter fun l => !l.stale) t ∧
        SameSession s t := by
  refine ⟨fun l s' hg hs hstale => ?_, ?_⟩
  · obtain ⟨halive, p, a, hinert, rfl⟩ := exists_of_stale hg hs hstale
    obtain ⟨name, hready⟩ := ready_of_inert s.client hinert
    unfold Slot.complete
    rw [hready, ready?_isNone, survived_of_inert s.client hinert]
    exact ⟨rfl, rfl, rfl, halive⟩
  · obtain ⟨t, ht, hsim⟩ := exists_run_without_stale h
    exact ⟨t, ht, hsim.sameSession⟩

/-! ### Two runs -/

/-- A stale answer that reports a failure. -/
theorem stale_completions_harmless_failure :
    ∃ (tr : List Label) (s t : Slot), SameSession s t ∧ tr.any Label.stale = true ∧
      Run Slot.Idle Slot.Step unguarded (tr.filter fun l => !l.stale) t := by
  have h : (simulate Slot.step (fun tr s l => decide (InertStale tr s l)) [] freshSlot
      [.activate 0, .tick, .activate 0, .tick,
        .complete ⟨1, .getProfileList 0⟩ (.getProfileList .noOutput)]).any fun r =>
        r.1.any Label.stale := by
    decide +kernel
  obtain ⟨r, hr, hany⟩ := (Option.any_eq_true _ _).1 h
  have hrun : Run Slot.Idle Slot.Step InertStale r.1 r.2 :=
    run_of_simulate (fun _ _ _ => of_decide_eq_true) hr
  obtain ⟨t, ht, hsame⟩ := (stale_completions_harmless hrun).2
  exact ⟨r.1, r.2, t, hsame, hany, ht⟩

/-- A stale get-profile-list answer without a list moves the new session on. -/
theorem not_stale_completions_harmless :
    ¬ ∀ tr s l s', Run Slot.Idle Slot.Step unguarded tr s → s.Step l s' → l.stale = true →
      SameSession s s' := by
  intro hall
  have h : (simulate Slot.step (fun _ _ _ => true) [] freshSlot
      [.activate 0, .tick, .activate 0]).any fun r =>
        (r.2.step (.complete ⟨1, .getProfileList 0⟩ (.getProfileList (.ok none)))).any fun q =>
          q.2.stale && decide (r.2.client.connectionReadinessStep ≠
            q.1.client.connectionReadinessStep) := by
    decide +kernel
  obtain ⟨r, hr, h⟩ := (Option.any_eq_true _ _).1 h
  obtain ⟨q, hs, hne⟩ := (Option.any_eq_true _ _).1 h
  obtain ⟨hstale, hne⟩ := Bool.and_eq_true_iff.1 hne
  have hrun : Run Slot.Idle Slot.Step unguarded r.1 r.2 :=
    run_of_simulate (fun _ _ _ _ => trivial) hr
  exact of_decide_eq_true hne (hall _ _ _ _ hrun (Slot.step_of_step_eq hs) hstale).step

end Imsd
