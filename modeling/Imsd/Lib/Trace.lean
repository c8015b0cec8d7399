import Mathlib.Tactic

/-!
# Event systems: runs, the past of a run, and independent components

A system is a relation `Step s e s'`: in state `s` the event `e` can happen and leads to `s'`.

* `Run Init Step G tr s`: the events `tr`, in this order, lead from an initial state to `s`, and
  each of them met the condition `G` on the events before it, the state and the event itself.
  `Run.inv` is the invariant rule.
* `Since p q tr`: some event with `p` has happened after the last event with `q`; `sumSince`
  adds up a weight over the events after the last one with `q`.  Both come with the equation for
  one more event, which is all that an invariant proof needs.
* `simulate` runs a system given by a step function along a list of inputs and checks a decidable
  condition on the way; what it returns are runs (`Run.simulate`).
* `Path`: a run without a condition, from a given state.
* `LocalViews`: every event belongs to one component, leaves the views of the others alone and
  acts on its own by what that view holds.  `LocalViews.exists_path_filter` is the unwinding
  theorem (a component cannot tell a run from the run without the others' events), and
  `LocalViews.exists_path_swap_within` lets adjacent events of different components change
  places.
-/

namespace EventSystem

variable {σ ε : Type*}

/-- The events `tr` lead from an initial state to `s`, each meeting the condition `G`. -/
inductive Run (Init : σ → Prop) (Step : σ → ε → σ → Prop) (G : List ε → σ → ε → Prop) :
    List ε → σ → Prop
  | start {s : σ} : Init s → Run Init Step G [] s
  | snoc {tr : List ε} {s s' : σ} {e : ε} :
      Run Init Step G tr s → G tr s e → Step s e s' → Run Init Step G (tr ++ [e]) s'

/-- The condition met by every event. -/
def unguarded : List ε → σ → ε → Prop := fun _ _ _ => True

variable {Init : σ → Prop} {Step : σ → ε → σ → Prop} {G : List ε → σ → ε → Prop}

/-- The invariant rule. -/
theorem Run.inv (P : List ε → σ → Prop) (h0 : ∀ s, Init s → P [] s)
    (hstep : ∀ tr s e s', Run Init Step G tr s → P tr s → G tr s e → Step s e s' →
      P (tr ++ [e]) s') {tr : List ε} {s : σ} (h : Run Init Step G tr s) : P tr s := by
  induction h with
  | start hi => exact h0 _ hi
  | snoc hr hg hs ih => exact hstep _ _ _ _ hr ih hg hs

/-! ### The past of a run -/

/-- An event of a longer run is the last one, or one of the run before. -/
theorem snoc_eq_split_iff {tr pre post : List ε} {a e : ε} :
    tr ++ [a] = pre ++ e :: post ↔
      (a = e ∧ pre = tr ∧ post = []) ∨ ∃ post', post = post' ++ [a] ∧ tr = pre ++ e :: post' := by
  rcases List.eq_nil_or_concat post with rfl | ⟨post', b, rfl⟩
  · constructor
    · intro h
      obtain ⟨htr, ha⟩ := List.append_inj' h rfl
      exact Or.inl ⟨List.singleton_inj.1 ha, htr.symm, rfl⟩
    · rintro (⟨rfl, rfl, -⟩ | ⟨post', h, -⟩)
      · rfl
      · simp at h
  · rw [List.concat_eq_append, ← List.cons_append, ← List.append_assoc]
    constructor
    · intro h
      obtain ⟨htr, ha⟩ := List.append_inj' h rfl
      exact Or.inr ⟨post', by rw [List.singleton_inj.1 ha], htr⟩
    · rintro (⟨-, -, h⟩ | ⟨post'', h, rfl⟩)
      · simp at h
      · obtain ⟨rfl, hb⟩ := List.append_inj' h rfl
        rw [hb]

/-- Some event with `p` has happened after the last event with `q`. -/
def Since (p q : ε → Prop) (tr : List ε) : Prop :=
  ∃ pre e post, tr = pre ++ e :: post ∧ p e ∧ ∀ x ∈ post, ¬ q x

theorem not_since_nil (p q : ε → Prop) : ¬ Since p q [] := by
  rintro ⟨pre, e, post, h, -⟩
  simp at h

/-- One more event. -/
theorem since_snoc {p q : ε → Prop} {tr : List ε} {e : ε} :
    Since p q (tr ++ [e]) ↔ p e ∨ (Since p q tr ∧ ¬ q e) := by
  constructor
  · rintro ⟨pre, x, post, h, hp, hq⟩
    rcases snoc_eq_split_iff.1 h with ⟨rfl, -, -⟩ | ⟨post', rfl, htr⟩
    · exact Or.inl hp
    · exact Or.inr ⟨⟨pre, x, post', htr, hp, fun z hz => hq z (by simp [hz])⟩, hq e (by simp)⟩
  · rintro (hp | ⟨⟨pre, x, post, rfl, hp, hq⟩, hqe⟩)
    · exact ⟨tr, e, [], by simp, hp, by simp⟩
    · refine ⟨pre, x, post ++ [e], by simp, hp, fun z hz => ?_⟩
      rcases List.mem_append.1 hz with hz | hz
      · exact hq z hz
      · rw [List.mem_singleton.1 hz]
        exact hqe

/-- The weights of the events after the last one with `q`, added up. -/
def sumSince (w : ε → ℕ) (q : ε → Bool) (tr : List ε) : ℕ :=
  tr.foldl (fun n e => if q e then 0 else n + w e) 0

/-- One more event. -/
theorem sumSince_snoc (w : ε → ℕ) (q : ε → Bool) (tr : List ε) (e : ε) :
    sumSince w q (tr ++ [e]) = if q e then 0 else sumSince w q tr + w e := by
  simp [sumSince, List.foldl_append]

instance decidableSince (p q : ε → Prop) [DecidablePred p] [DecidablePred q] :
    DecidablePred (Since p q) := fun tr =>
  decidable_of_iff (tr.foldl (fun b e => decide (p e) || (b && !decide (q e))) false = true) (by
    induction tr using List.reverseRecOn with
    | nil => simpa using not_since_nil p q
    | append_singleton tr e ih =>
      rw [List.foldl_append, since_snoc, ← ih]
      simp)

/-! ### Simulation -/

section Simulate

variable {ι : Type*} (step : σ → ι → Option (σ × ε)) (ok : List ε → σ → ε → Bool)

/-- Take the inputs one after the other, from state `s` with the events `tr` behind it, as long as
the condition `ok` is met. -/
def simulate : List ε → σ → List ι → Option (List ε × σ)
  | tr, s, [] => some (tr, s)
  | tr, s, i :: is =>
    match step s i with
    | none => none
    | some (s', e) => if ok tr s e then simulate (tr ++ [e]) s' is else none

variable {step ok}

theorem Run.simulate {tr tr' : List ε} {s s' : σ} {is : List ι} (hr : Run Init Step G tr s)
    (h : EventSystem.simulate step ok tr s is = some (tr', s'))
    (hstep : ∀ tr s i s' e, step s i = some (s', e) → ok tr s e = true → G tr s e ∧ Step s e s') :
    Run Init Step G tr' s' := by
  induction is generalizing tr s with
  | nil =>
    cases h
    exact hr
  | cons i is ih =>
    rw [EventSystem.simulate] at h
    cases hs : step s i with
    | none => simp [hs] at h
    | some r =>
      rw [hs] at h
      dsimp only at h
      split_ifs at h with hg
      obtain ⟨hG, hS⟩ := hstep _ _ _ _ _ hs hg
      exact ih (.snoc hr hG hS) h

end Simulate

/-! ### Paths -/

/-- The events `tr` lead from `s` to `s'`. -/
inductive Path (Step : σ → ε → σ → Prop) : σ → List ε → σ → Prop
  | nil (s : σ) : Path Step s [] s
  | cons {s s' s'' : σ} {e : ε} {tr : List ε} :
      Step s e s' → Path Step s' tr s'' → Path Step s (e :: tr) s''

theorem path_nil_iff {s s' : σ} : Path Step s [] s' ↔ s' = s :=
  ⟨fun h => by cases h; rfl, fun h => by subst h; exact .nil _⟩

theorem path_cons_iff {s s'' : σ} {e : ε} {tr : List ε} :
    Path Step s (e :: tr) s'' ↔ ∃ s', Step s e s' ∧ Path Step s' tr s'' :=
  ⟨fun h => by cases h with | cons h₁ h₂ => exact ⟨_, h₁, h₂⟩, fun ⟨_, h₁, h₂⟩ => .cons h₁ h₂⟩

theorem Path.append {s s' s'' : σ} {tr tr' : List ε} (h : Path Step s tr s')
    (h' : Path Step s' tr' s'') : Path Step s (tr ++ tr') s'' := by
  induction h with
  | nil s => exact h'
  | cons h₁ _ ih => exact .cons h₁ (ih h')

/-- A weaker relation. -/
theorem Path.mono {Step' : σ → ε → σ → Prop} (himp : ∀ s e s', Step s e s' → Step' s e s')
    {s s' : σ} {tr : List ε} (h : Path Step s tr s') : Path Step' s tr s' := by
  induction h with
  | nil s => exact .nil s
  | cons hs _ ih => exact .cons (himp _ _ _ hs) ih

theorem path_append_iff {s s'' : σ} {tr tr' : List ε} :
    Path Step s (tr ++ tr') s'' ↔ ∃ s', Path Step s tr s' ∧ Path Step s' tr' s'' := by
  constructor
  · intro h
    induction tr generalizing s with
    | nil => exact ⟨s, .nil s, h⟩
    | cons e tr ih =>
      obtain ⟨s₁, h₁, h⟩ := path_cons_iff.1 h
      obtain ⟨s', h', h''⟩ := ih h
      exact ⟨s', .cons h₁ h', h''⟩
  · rintro ⟨s', h, h'⟩
    exact h.append h'

/-! ### Independent components -/

section Views

variable {ι β : Type*}

/-- Every event has an owner among the components `ι`: it leaves the views of the other
components alone, and what it does to its owner's view, and whether it can happen at all,
depends on that view only. -/
structure LocalViews (Step : σ → ε → σ → Prop) (owner : ε → ι) (view : ι → σ → β) : Prop where
  frame : ∀ {s e s'} {i : ι}, Step s e s' → owner e ≠ i → view i s' = view i s
  self : ∀ {s e s' t}, Step s e s' → view (owner e) t = view (owner e) s →
    ∃ t', Step t e t' ∧ view (owner e) t' = view (owner e) s'

variable {owner : ε → ι} {view : ι → σ → β}

/-- **Unwinding**: a component's view at the end of a run is its view at the end of the run
that keeps only the component's own events. -/
theorem LocalViews.exists_path_filter [DecidableEq ι] (hv : LocalViews Step owner view) (i : ι)
    {s s' t : σ} {tr : List ε} (h : Path Step s tr s') (ht : view i t = view i s) :
    ∃ t', Path Step t (tr.filter fun e => owner e = i) t' ∧ view i t' = view i s' := by
  induction h generalizing t with
  | nil s => exact ⟨t, .nil t, ht⟩
  | @cons s s₁ s₂ e tr hs _ ih =>
    by_cases he : owner e = i
    · subst he
      obtain ⟨t₁, ht₁, hview⟩ := hv.self hs ht
      obtain ⟨t', hp, ht'⟩ := ih hview
      exact ⟨t', by simpa using Path.cons ht₁ hp, ht'⟩
    · obtain ⟨t', hp, ht'⟩ := ih (ht.trans (hv.frame hs he).symm)
      exact ⟨t', by simpa [he] using hp, ht'⟩

/-- Adjacent events of different components can change places, with the same views after. -/
theorem LocalViews.exists_path_swap (hv : LocalViews Step owner view) {s s' : σ} {e₁ e₂ : ε}
    (hne : owner e₁ ≠ owner e₂) (h : Path Step s [e₁, e₂] s') :
    ∃ t, Path Step s [e₂, e₁] t ∧ ∀ i, view i t = view i s' := by
  obtain ⟨m, h₁, h⟩ := path_cons_iff.1 h
  obtain ⟨s₂, h₂, h⟩ := path_cons_iff.1 h
  obtain rfl := path_nil_iff.1 h
  obtain ⟨m', hm', hview₂⟩ := hv.self h₂ (hv.frame h₁ hne).symm
  obtain ⟨t, ht, hview₁⟩ := hv.self h₁ (hv.frame hm' hne.symm)
  refine ⟨t, .cons hm' (.cons ht (.nil t)), fun i => ?_⟩
  by_cases hi₁ : owner e₁ = i
  · subst hi₁
    rw [hview₁, hv.frame h₂ hne.symm]
  · by_cases hi₂ : owner e₂ = i
    · subst hi₂
      rw [hv.frame ht hi₁, hview₂]
    · rw [hv.frame ht hi₁, hv.frame hm' hi₂, hv.frame h₂ hi₂, hv.frame h₁ hi₁]

/-- States with the same views cannot be told apart by what happens from there on. -/
theorem LocalViews.exists_path_congr (hv : LocalViews Step owner view) {s s' t : σ}
    {tr : List ε} (h : Path Step s tr s') (ht : ∀ i, view i t = view i s) :
    ∃ t', Path Step t tr t' ∧ ∀ i, view i t' = view i s' := by
  induction h generalizing t with
  | nil s => exact ⟨t, .nil t, ht⟩
  | @cons s s₁ s₂ e tr hs _ ih =>
    obtain ⟨t₁, ht₁, hview⟩ := hv.self hs (ht _)
    have hviews : ∀ i, view i t₁ = view i s₁ := by
      intro i
      by_cases he : owner e = i
      · subst he
        exact hview
      · rw [hv.frame ht₁ he, hv.frame hs he, ht i]
    obtain ⟨t', hp, ht'⟩ := ih hviews
    exact ⟨t', .cons ht₁ hp, ht'⟩

/-- They can do so anywhere in a run. -/
theorem LocalViews.exists_path_swap_within (hv : LocalViews Step owner view) {s s' : σ}
    {e₁ e₂ : ε} {pre post : List ε} (hne : owner e₁ ≠ owner e₂)
    (h : Path Step s (pre ++ e₁ :: e₂ :: post) s') :
    ∃ t, Path Step s (pre ++ e₂ :: e₁ :: post) t ∧ ∀ i, view i t = view i s' := by
  obtain ⟨a, hpre, h⟩ := path_append_iff.1 h
  obtain ⟨b, hpair, hpost⟩ :=
    path_append_iff.1 (show Path Step a ([e₁, e₂] ++ post) s' from h)
  obtain ⟨b', hpair', hb⟩ := hv.exists_path_swap hne hpair
  obtain ⟨t, hpost', ht⟩ := hv.exists_path_congr hpost hb
  exact ⟨t, hpre.append (hpair'.append hpost'), ht⟩

end Views

end EventSystem
