import Imsd.QmiImsClientRuns

/-!
# The start-up of the process, and what it sets

`Startup` looks at the handles and contexts, the server and the slots alone, and takes every order
of the allocations, of `wait_for_init` and of the events of the slots.  In the process the
allocations are made by the callbacks, among requests that `Startup` does not know.

`refines_startup`: what the process can do, `Startup` can do with it, event by event
(`ClientEvent.startupEvent?`), with the same handles and contexts; and the process ends over one
that is not set at the first use that is not `Ready`, which is that of the first timer that has
come too early.
-/

namespace Imsd

open EventSystem ClientProcess

section Events

variable {tr : List ClientEvent}

theorem mem_completions {k : Completion} : k ∈ completions tr ↔ .complete k ∈ tr := by
  rw [completions, List.mem_filterMap]
  constructor
  · rintro ⟨e, he, hk⟩
    cases e with
    | complete k' => rwa [← Option.some_inj.1 hk]
    | _ => cases hk
  · exact fun h => ⟨_, h, rfl⟩

/-- What an event needs of the completions before it. -/
def Provided (ks : List Completion) : ClientEvent → Prop
  | .tick i => ∃ slot : Fin maxSimSlots, slot = i ∧ .allocateClient (.wds slot) true ∈ ks
  | .waitForInit => .allocateClient .imsa true ∈ ks
  | _ => True

/-- A timer of a slot was called before the client of the slot was allocated, or `wait_for_init`
before that of IMSA. -/
def TooEarly (tr : List ClientEvent) : Prop :=
  ∃ pre e post, tr = pre ++ e :: post ∧ ¬ Provided (completions pre) e

theorem tooEarly_snoc {e : ClientEvent} :
    TooEarly (tr ++ [e]) ↔ TooEarly tr ∨ ¬ Provided (completions tr) e := by
  constructor
  · rintro ⟨pre, e', post, h, hp⟩
    obtain ⟨rfl, rfl, -⟩ | ⟨post', -, htr⟩ := snoc_eq_split_iff.1 h
    · exact Or.inr hp
    · exact Or.inl ⟨pre, e', post', htr, hp⟩
  · rintro (⟨pre, e', post, rfl, hp⟩ | hp)
    · exact ⟨pre, e', post ++ [e], by simp, hp⟩
    · exact ⟨tr, e, [], rfl, hp⟩

variable {tr' : List StartupLabel}

theorem exists_event_iff (h : tr'.map StartupLabel.event = tr.filterMap ClientEvent.startupEvent?)
    (e' : StartupEvent) :
    (∃ l ∈ tr', l.event = e') ↔ ∃ e ∈ tr, e.startupEvent? = some e' := by
  rw [← List.mem_filterMap, ← h, List.mem_map]

theorem exists_wdsAllocated_iff
    (h : tr'.map StartupLabel.event = tr.filterMap ClientEvent.startupEvent?) (i : ℕ) :
    (∃ l ∈ tr', l.event = .wdsAllocated i) ↔
      ∃ slot : Fin maxSimSlots, slot = i ∧ .allocateClient (.wds slot) true ∈ completions tr := by
  rw [exists_event_iff h]
  constructor
  · rintro ⟨e, he, hevent⟩
    unfold ClientEvent.startupEvent? at hevent
    split at hevent <;> cases hevent
    exact ⟨_, rfl, mem_completions.2 he⟩
  · rintro ⟨slot, rfl, hslot⟩
    exact ⟨_, mem_completions.1 hslot, rfl⟩

theorem exists_imsaAllocated_iff
    (h : tr'.map StartupLabel.event = tr.filterMap ClientEvent.startupEvent?) :
    (∃ l ∈ tr', l.event = .imsaAllocated) ↔ .allocateClient .imsa true ∈ completions tr := by
  rw [exists_event_iff h, mem_completions]
  constructor
  · rintro ⟨e, he, hevent⟩
    unfold ClientEvent.startupEvent? at hevent
    split at hevent <;> cases hevent
    exact he
  · exact fun h => ⟨_, h, rfl⟩

/-- What an event needs is what its event of `Startup` needs. -/
theorem prepared_iff (h : tr'.map StartupLabel.event = tr.filterMap ClientEvent.startupEvent?)
    {e : ClientEvent} {e' : StartupEvent} (he : e.startupEvent? = some e') :
    Prepared tr' e' ↔ Provided (completions tr) e := by
  cases e with
  | waitForInit =>
    cases he
    exact exists_imsaAllocated_iff h
  | tick i =>
    cases he
    exact exists_wdsAllocated_iff h i
  | complete k =>
    cases k with
    | allocateClient service allocated =>
      cases service <;> cases allocated <;> cases he <;> exact Iff.rfl
    | _ => cases he
  | indication x => cases he
  | request r | answer i p a =>
    cases he
    exact Iff.rfl

end Events

section Matches

variable {path : DevicePath} {memory : IMSDClient} {tr : List ClientEvent}
  {s s' : ClientProcess} {tr' : List StartupLabel}

/-- The run `tr'` has the events of the start-up `tr`, and has used something unset if that is what
has ended the process. -/
structure Matches (tr : List ClientEvent) (s : ClientProcess) (tr' : List StartupLabel) :
    Prop where
  run : Run Startup.Initial Startup.Step unguarded tr' s.startup
  events : tr'.map StartupLabel.event = tr.filterMap ClientEvent.startupEvent?
  unset : s.status = .crashed .unset ↔ ¬ UsesReady tr'
  early : AllPrepared tr' ↔ ¬ TooEarly tr

/-- An event that is none of `Startup`. -/
theorem Matches.other {e : ClientEvent} (h : Matches tr s tr') (halive : s.status = .alive)
    (he : e.startupEvent? = none) (hstartup : s'.startup = s.startup)
    (hunset : s'.status ≠ .crashed .unset) : Matches (tr ++ [e]) s' tr' := by
  have hprovided : Provided (completions tr) e := by
    cases e with
    | waitForInit | tick => cases he
    | _ => trivial
  refine ⟨hstartup ▸ h.run, by simp [h.events, he], ?_, ?_⟩
  · rw [← h.unset, halive]
    exact iff_of_false hunset (by simp)
  · rw [h.early, tooEarly_snoc, or_iff_left (not_not.2 hprovided)]

/-- An event of `Startup`. -/
theorem Matches.snoc {e : ClientEvent} {e' : StartupEvent} {uses : List Use}
    (h : Matches tr s tr') (halive : s.status = .alive) (he : e.startupEvent? = some e')
    (hstep : s.startup.Step ⟨e', uses⟩ s'.startup)
    (hunset : s'.status = .crashed .unset ↔ ¬ ∀ u ∈ uses, u.Ready) :
    Matches (tr ++ [e]) s' (tr' ++ [⟨e', uses⟩]) := by
  have hready : UsesReady tr' := by
    by_contra hready
    rw [h.unset.2 hready] at halive
    cases halive
  refine ⟨h.run.snoc trivial hstep, by simp [h.events, he], ?_, ?_⟩
  · rw [usesReady_snoc, and_iff_right hready, hunset]
  · rw [allPrepared_snoc, tooEarly_snoc, h.early, prepared_iff h.events he, not_or, not_not]

/-- An allocation has not completed before. -/
theorem not_mem_completions (h : StartUp path memory tr s) {service : ServiceClient}
    (hk : .allocateClient service ∈ s.inFlight) :
    .allocateClient service true ∉ completions tr := by
  intro hmem
  have hnodup := requests_nodup h
  rw [List.filter_append] at hnodup
  have hdone : Operation.allocateClient service ∈
      (completions tr).map Completion.operation := List.mem_map.2 ⟨_, hmem, rfl⟩
  exact (List.nodup_append.1 hnodup).2.2 _ (List.mem_filter.2 ⟨hdone, rfl⟩) _
    (List.mem_filter.2 ⟨hk, rfl⟩) rfl

/-- A completion. -/
theorem Matches.complete {k : Completion} (hr : StartUp path memory tr s) (h : Matches tr s tr')
    (halive : s.status = .alive) (hk : k.operation ∈ s.inFlight) (hdoes : Completes s k s') :
    ∃ tr'', Matches (tr ++ [.complete k]) s' tr'' := by
  have hnone {uses : List Use} (huses : ∀ u ∈ uses, u.Ready) :
      s'.status = .crashed .unset ↔ ¬ ∀ u ∈ uses, u.Ready :=
    iff_of_false hdoes.unset (not_not.2 huses)
  have hother (he : ClientEvent.startupEvent? (.complete k) = none)
      (hsets : k.sets s.startup = s.startup) : ∃ tr'', Matches (tr ++ [.complete k]) s' tr'' :=
    ⟨tr', h.other halive he (hdoes.startup.trans hsets) hdoes.unset⟩
  cases k with
  | allocateClient service allocated =>
    cases allocated with
    | false => cases service <;> exact hother rfl rfl
    | true =>
      have hnot := not_mem_completions hr hk
      cases service with
      | wds slot =>
        have hwds : s.startup.wds slot = false := by
          rw [← Bool.not_eq_true, (StartupInv.of_run h.run).wds, exists_wdsAllocated_iff h.events]
          rintro ⟨slot', hslot, hmem⟩
          exact hnot (Fin.ext hslot ▸ hmem)
        have hstep : s.startup.Step ⟨.wdsAllocated slot, []⟩ s'.startup := by
          rw [hdoes.startup]
          exact if_pos ⟨slot.isLt, hwds⟩
        exact ⟨_, h.snoc halive rfl hstep (hnone (by simp))⟩
      | imsa =>
        have hctx : s.startup.imsaCtx = false := by
          rwa [← imsaCtx_iff hr, Bool.not_eq_true] at hnot
        have hstep : s.startup.Step ⟨.imsaAllocated, [.imsa true]⟩ s'.startup := by
          rw [hdoes.startup]
          exact if_pos hctx
        exact ⟨_, h.snoc halive rfl hstep (hnone (by simp [Use.Ready]))⟩
      | _ => exact hother rfl rfl
  | _ => exact hother rfl rfl

end Matches

/-- **The process refines `Startup`**, and what it uses too early is what a timer uses that has
come too early. -/
theorem refines_startup {path : DevicePath} {memory : IMSDClient} {tr : List ClientEvent}
    {s : ClientProcess} (h : StartUp path memory tr s) :
    ∃ tr', Run Startup.Initial Startup.Step unguarded tr' s.startup ∧
      tr'.map StartupLabel.event = tr.filterMap ClientEvent.startupEvent? ∧
      (s.status = .crashed .unset ↔ ¬ UsesReady tr') ∧ (UsesReady tr' ↔ ¬ TooEarly tr) := by
  suffices hmatches : ∃ tr', Matches tr s tr' by
    obtain ⟨tr', h⟩ := hmatches
    exact ⟨tr', h.run, h.events, h.unset, (StartupInv.of_run h.run).ready_iff.trans h.early⟩
  induction h using StartUp.induct with
  | start startup pdcMemory hi =>
    refine ⟨[], .start hi, rfl, ?_, ?_⟩
    · simp [initializeQmiClient, UsesReady]
    · simp [AllPrepared, TooEarly]
  | complete hr _ ih halive hk hdoes =>
    obtain ⟨tr', ih⟩ := ih
    exact ih.complete hr halive hk hdoes
  | @waitForInit tr s hr _ ih halive =>
    obtain ⟨tr', ih⟩ := ih
    have hstep : s.startup.Step
        ⟨.waitForInit, s.startup.getImsServicesState ++ s.startup.getRegistrationState⟩
        s.waitForInit.startup := rfl
    refine ⟨_, ih.snoc halive rfl hstep ?_⟩
    rw [ClientProcess.waitForInit, Startup.getImsServicesState, Startup.getRegistrationState]
    cases hctx : s.startup.imsaCtx <;> simp [Use.Ready, halive]
  | elsewhere _ _ ih halive _ _ hdoes =>
    obtain ⟨tr', ih⟩ := ih
    obtain ⟨he, hstartup, hunset⟩ | ⟨e', uses, he, -, hstep, hunset⟩ := hdoes.startup
    · exact ⟨tr', ih.other halive he hstartup hunset⟩
    · exact ⟨_, ih.snoc halive he hstep hunset⟩

/-- The handles and contexts of a start-up in order. -/
theorem refines_startup_enabling : ∃ tr' t, Run Startup.Initial Startup.Step unguarded tr' t ∧
    tr'.map StartupLabel.event = [.imsaAllocated, .waitForInit] ∧ UsesReady tr' := by
  obtain ⟨s, h, halive, -⟩ := exists_enabling
  obtain ⟨tr', hrun, hevents, hunset, -⟩ := refines_startup h
  refine ⟨tr', _, hrun, hevents, ?_⟩
  rw [halive] at hunset
  simpa using hunset

end Imsd
