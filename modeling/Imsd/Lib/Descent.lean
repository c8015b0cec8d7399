import Mathlib.Tactic

/-!
# Going down a tree

A node has `children`, in an order: further nodes (`Sum.inl`) and leaves (`Sum.inr`).  Nothing
says that the tree ends.

* `leaves children n a` are the leaves below `a` in depth-first order, `none` if the descent is
  deeper than the fuel `n`.
* `exists_leaves_of_rank`: a rank that falls from a node to the next is fuel enough.
* `mem_leaves_iff`: the leaves found are those of the nodes below `a` (`Reaches`), and with
  `Separated` each is found once (`nodup_leaves`).
* `leaves_perm`: the order of the children is only the order of what is found.
* `foldlM_of_gather` turns a loop over the children that goes down with an accumulator, and may end
  early, into a fold over the leaves.
-/

universe u v

namespace Descent

variable {α β : Type*} {σ : Type u}

/-! ### The children of one node -/

/-- What is found below one child, when `f` goes down. -/
def branch (f : α → Option (List β)) : α ⊕ β → Option (List β)
  | .inl a => f a
  | .inr b => some [b]

/-- What is found below some children, one after the other. -/
def gather (f : α → Option (List β)) : List (α ⊕ β) → Option (List β)
  | [] => some []
  | x :: xs => do
    let found ← branch f x
    let rest ← gather f xs
    pure (found ++ rest)

theorem gather_eq_some_iff {f : α → Option (List β)} {xs : List (α ⊕ β)} {l : List β} :
    gather f xs = some l ↔ (∀ x ∈ xs, (branch f x).isSome) ∧
      l = xs.flatMap fun x => (branch f x).getD [] := by
  induction xs generalizing l with
  | nil => exact ⟨fun h => ⟨by simp, (Option.some_inj.1 h).symm⟩, fun h => congrArg some h.2.symm⟩
  | cons x xs ih =>
    rw [gather, List.forall_mem_cons, List.flatMap_cons]
    cases branch f x with
    | none => simp
    | some found =>
      rw [Option.isSome_some, Option.getD_some, and_iff_right rfl]
      constructor
      · intro h
        have hbind : (gather f xs).bind (fun rest => pure (found ++ rest)) = some l := h
        obtain ⟨rest, hrest, h⟩ := Option.bind_eq_some_iff.1 hbind
        obtain ⟨hall, rfl⟩ := ih.1 hrest
        cases h
        exact ⟨hall, rfl⟩
      · rintro ⟨hall, rfl⟩
        rw [ih.2 ⟨hall, rfl⟩]
        rfl

/-- A loop over the children with an accumulator, when going down folds over what it finds. -/
theorem foldlM_of_gather {m : Type u → Type v} [Monad m] [LawfulMonad m] {f : α → Option (List β)}
    {g : α → σ → m σ} {step : σ → β → m σ}
    (hg : ∀ a l, f a = some l → ∀ s, g a s = l.foldlM step s) {xs : List (α ⊕ β)} {l : List β}
    (h : gather f xs = some l) (s : σ) :
    xs.foldlM (fun s x => x.elim (g · s) (step s)) s = l.foldlM step s := by
  induction xs generalizing s l with
  | nil =>
    cases h
    rfl
  | cons x xs ih =>
    obtain ⟨found, hfound, h⟩ := Option.bind_eq_some_iff.1 h
    obtain ⟨rest, hrest, h⟩ := Option.bind_eq_some_iff.1 h
    cases h
    have hx : x.elim (g · s) (step s) = found.foldlM step s := by
      cases x with
      | inl a => exact hg a found hfound s
      | inr b =>
        cases hfound
        simp
    rw [List.foldlM_cons, hx, List.foldlM_append]
    exact congrArg _ (funext fun s' => ih hrest s')

/-- A loop that gets to its end has gone down everywhere. -/
theorem isSome_gather_of_foldlM {ε : Type*} {f : α → Option (List β)} {g : α → σ → Except ε σ}
    {step : σ → β → Except ε σ} (hg : ∀ a s s', g a s = .ok s' → (f a).isSome)
    {xs : List (α ⊕ β)} {s s' : σ}
    (h : xs.foldlM (fun s x => x.elim (g · s) (step s)) s = .ok s') : (gather f xs).isSome := by
  induction xs generalizing s with
  | nil => rfl
  | cons x xs ih =>
    rw [List.foldlM_cons] at h
    cases hfirst : x.elim (g · s) (step s) with
    | error e =>
      rw [hfirst] at h
      cases h
    | ok s₁ =>
      rw [hfirst] at h
      have hbranch : (branch f x).isSome := by
        cases x with
        | inl a => exact hg a s s₁ hfirst
        | inr b => rfl
      obtain ⟨found, hfound⟩ := Option.isSome_iff_exists.1 hbranch
      obtain ⟨rest, hrest⟩ := Option.isSome_iff_exists.1 (ih h)
      rw [gather, hfound, hrest]
      rfl

/-! ### The tree -/

variable (children : α → List (α ⊕ β))

/-- The leaves below a node, depth first; `none` stands for a descent deeper than the fuel. -/
def leaves : ℕ → α → Option (List β)
  | 0, _ => none
  | n + 1, a => gather (leaves n) (children a)

/-- `c` is a node right below `a`. -/
def Child (c a : α) : Prop := .inl c ∈ children a

/-- `c` is `a` or a node below it. -/
def Reaches : α → α → Prop := Relation.ReflTransGen fun a c => Child children c a

variable {children} {n : ℕ} {a : α} {l : List β}

/-- What is found below a child with one unit of fuel less. -/
def found (children : α → List (α ⊕ β)) (n : ℕ) (x : α ⊕ β) : List β :=
  (branch (leaves children n) x).getD []

theorem found_inl {c : α} (h : leaves children n c = some l) :
    found children n (.inl c) = l := by
  rw [found, branch, h, Option.getD_some]

theorem leaves_succ_iff : leaves children (n + 1) a = some l ↔
    (∀ c, Child children c a → ∃ l', leaves children n c = some l') ∧
      l = (children a).flatMap (found children n) := by
  rw [leaves, gather_eq_some_iff]
  refine and_congr_left fun _ => ⟨fun h c hc => Option.isSome_iff_exists.1 (h _ hc), ?_⟩
  rintro h (c | b) hx
  · exact Option.isSome_iff_exists.2 (h c hx)
  · rfl

/-- **A rank that falls from a node to the next one is fuel enough.** -/
theorem exists_leaves_of_rank (rank : α → ℕ)
    (h : ∀ b, Reaches children a b → ∀ c, Child children c b → rank c < rank b) :
    ∃ l, leaves children (rank a + 1) a = some l := by
  suffices hfuel : ∀ n, rank a ≤ n → ∃ l, leaves children (n + 1) a = some l from
    hfuel _ le_rfl
  intro n
  induction n generalizing a with
  | zero =>
    refine fun hzero => ⟨_, leaves_succ_iff.2 ⟨fun c hc => ?_, rfl⟩⟩
    have hlt := h a .refl c hc
    omega
  | succ n ih =>
    refine fun hle => ⟨_, leaves_succ_iff.2 ⟨fun c hc => ?_, rfl⟩⟩
    have hlt := h a .refl c hc
    exact ih (fun b hb => h b (.head hc hb)) (by omega)

/-- **The leaves found are those of the nodes below.** -/
theorem mem_leaves_iff (h : leaves children n a = some l) {b : β} :
    b ∈ l ↔ ∃ c, Reaches children a c ∧ .inr b ∈ children c := by
  induction n generalizing a l with
  | zero => cases h
  | succ n ih =>
    obtain ⟨hall, rfl⟩ := leaves_succ_iff.1 h
    rw [List.mem_flatMap]
    constructor
    · rintro ⟨x, hx, hb⟩
      cases x with
      | inl c =>
        obtain ⟨l', hl'⟩ := hall c hx
        rw [found_inl hl', ih hl'] at hb
        obtain ⟨d, hd, hb⟩ := hb
        exact ⟨d, .head hx hd, hb⟩
      | inr b' =>
        obtain rfl := List.mem_singleton.1 hb
        exact ⟨a, .refl, hx⟩
    · rintro ⟨d, hd, hb⟩
      rcases hd.cases_head with rfl | ⟨c, hc, hd⟩
      · exact ⟨_, hb, List.mem_singleton.2 rfl⟩
      · obtain ⟨l', hl'⟩ := hall c hc
        refine ⟨_, hc, ?_⟩
        rw [found_inl hl', ih hl']
        exact ⟨d, hd, hb⟩

/-! ### No leaf twice -/

/-- `Under` bounds what lies below a child, and keeps the children of a node apart. -/
structure Separated (children : α → List (α ⊕ β)) (Under : α ⊕ β → β → Prop) : Prop where
  leaf : ∀ b, Under (.inr b) b
  up : ∀ {a x b}, x ∈ children a → Under x b → Under (.inl a) b
  apart : ∀ a, (children a).Pairwise fun x y => ∀ b, Under x b → ¬ Under y b

variable {Under : α ⊕ β → β → Prop}

theorem Separated.under_of_reaches (hs : Separated children Under) {c : α} {b : β}
    (hc : Reaches children a c) (hb : Under (.inl c) b) : Under (.inl a) b := by
  induction hc using Relation.ReflTransGen.head_induction_on with
  | refl => exact hb
  | head hchild _ ih => exact hs.up hchild ih

theorem Separated.under_of_mem (hs : Separated children Under)
    (h : leaves children n a = some l) {b : β} (hb : b ∈ l) : Under (.inl a) b := by
  obtain ⟨c, hc, hb⟩ := (mem_leaves_iff h).1 hb
  exact hs.under_of_reaches hc (hs.up hb (hs.leaf b))

theorem nodup_leaves (hs : Separated children Under) (h : leaves children n a = some l) :
    l.Nodup := by
  induction n generalizing a l with
  | zero => cases h
  | succ n ih =>
    obtain ⟨hall, rfl⟩ := leaves_succ_iff.1 h
    have hunder : ∀ x ∈ children a, ∀ b ∈ found children n x, Under x b := by
      rintro (c | b') hx b hb
      · obtain ⟨l', hl'⟩ := hall c hx
        rw [found_inl hl'] at hb
        exact hs.under_of_mem hl' hb
      · obtain rfl := List.mem_singleton.1 hb
        exact hs.leaf b
    refine List.nodup_flatMap.2 ⟨?_, ?_⟩
    · rintro (c | b) hx
      · obtain ⟨l', hl'⟩ := hall c hx
        rw [found_inl hl']
        exact ih hl'
      · exact List.nodup_singleton b
    · refine (hs.apart a).imp_of_mem fun {x y} hx hy hxy b hbx hby => ?_
      exact hxy b (hunder x hx b hbx) (hunder y hy b hby)

/-! ### The order of the children -/

/-- **The same children in other orders give the same leaves in another order.** -/
theorem leaves_perm {children' : α → List (α ⊕ β)}
    (hperm : ∀ a, (children' a).Perm (children a)) (h : leaves children n a = some l) :
    ∃ l', leaves children' n a = some l' ∧ l'.Perm l := by
  induction n generalizing a l with
  | zero => cases h
  | succ n ih =>
    obtain ⟨hall, rfl⟩ := leaves_succ_iff.1 h
    have hall' : ∀ c, Child children c a → ∃ l', leaves children' n c = some l' ∧
        l'.Perm (found children n (.inl c)) := by
      intro c hc
      obtain ⟨l, hl⟩ := hall c hc
      rw [found_inl hl]
      exact ih hl
    refine ⟨_, leaves_succ_iff.2 ⟨fun c hc => ?_, rfl⟩, ?_⟩
    · obtain ⟨l', hl', -⟩ := hall' c ((hperm a).mem_iff.1 hc)
      exact ⟨l', hl'⟩
    · refine ((hperm a).flatMap_right _).trans (List.Perm.flatMap_left _ ?_)
      rintro (c | b) hx
      · obtain ⟨l', hl', hp⟩ := hall' c hx
        rwa [found_inl hl']
      · exact .refl _

end Descent
