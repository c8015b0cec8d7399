import Imsd.Lib.Loop

/-!
# Families of computations indexed by fuel

A family `x : ℕ → Exec σ ε α` is `Fueled` when more fuel only takes the computation further: what
has ended stays as it is, what was logged stays logged.  Two properties of such a family forget
the fuel:

* `Safe P x s`: whatever the fuel, every entry logged from `s` has `P`, also while the computation
  runs for ever;
* `Returns x s s' a`: with enough fuel the computation from `s` ends in `s'` with value `a`.

`safe_bind_iff` and `returns_bind_iff` take a sequence apart, in both directions: a sequence is
safe if and only if its first part is and, wherever that returns, its second part is.
-/

universe u

/-- More fuel takes the computation further. -/
structure Fueled {σ ε α : Type u} (x : ℕ → Exec σ ε α) : Prop where
  keeps : ∀ {n s a}, (x n s).2.res = some a → ∀ k, x (n + k) s = x n s
  grows : ∀ {n s e}, e ∈ (x n s).2.log → ∀ k, e ∈ (x (n + k) s).2.log

namespace Fueled

variable {σ ε ε' α β : Type u} {x : ℕ → Exec σ ε α} {f : ℕ → α → Exec σ ε β} {s s' : σ}
  {P : ε → Prop}

/-- A computation that does not ask for fuel. -/
theorem const (x : Exec σ ε α) : Fueled fun _ => x := ⟨fun _ _ => rfl, fun h _ => h⟩

/-- A loop, with its entries renamed. -/
theorem loop {τ ρ : Type u} (body : τ → Traced ε' (τ ⊕ ρ)) (t : τ) (g : ε' → ε) :
    Fueled fun n => (Exec.lift ((WhileLoop.run body n t).mapLog g) : Exec σ ε ρ) where
  keeps {n s r} h k := by
    have hr : (WhileLoop.run body n t).res = some r := h
    rw [WhileLoop.run_mono hr k]
  grows h k := by
    obtain ⟨e, he, rfl⟩ := List.mem_map.1 h
    exact List.mem_map.2 ⟨e, WhileLoop.mem_log_run_add he k, rfl⟩

theorem bind (hx : Fueled x) (hf : ∀ a, Fueled fun n => f n a) :
    Fueled fun n => x n >>= f n where
  keeps {n s b} h k := by
    cases hr : (x n s).2.res with
    | none => rw [Exec.bind_of_none hr] at h; simp at h
    | some a =>
      -- the first part has ended: more fuel changes neither it nor the state it left
      rw [Exec.bind_of_some hr] at h
      have hk := hx.keeps hr k
      rw [Exec.bind_of_some hr, Exec.bind_of_some (hk ▸ hr), hk, (hf a).keeps h k]
  grows {n s e} h k := by
    rcases Exec.mem_log_bind.1 h with h | ⟨a, hr, h⟩
    · exact Exec.mem_log_bind.2 (Or.inl (hx.grows h k))
    · have hk := hx.keeps hr k
      refine Exec.mem_log_bind.2 (Or.inr ⟨a, hk ▸ hr, ?_⟩)
      rw [hk]
      exact (hf a).grows h k

theorem ite {p : Prop} [Decidable p] {y : ℕ → Exec σ ε α} (hx : Fueled x) (hy : Fueled y) :
    Fueled fun n => if p then x n else y n := by
  split_ifs
  · exact hx
  · exact hy

/-! ### Properties without fuel -/

/-- Every entry that is ever logged has `P`. -/
def Safe (P : ε → Prop) (x : ℕ → Exec σ ε α) (s : σ) : Prop := ∀ n, ∀ e ∈ (x n s).2.log, P e

/-- Enough fuel gives the value. -/
def Returns (x : ℕ → Exec σ ε α) (s s' : σ) (a : α) : Prop :=
  ∃ n, (x n s).1 = s' ∧ (x n s).2.res = some a

theorem safe_const_iff (x : Exec σ ε α) : Safe P (fun _ => x) s ↔ ∀ e ∈ (x s).2.log, P e :=
  ⟨fun h => h 0, fun h _ => h⟩

theorem returns_const_iff (x : Exec σ ε α) (a : α) :
    Returns (fun _ => x) s s' a ↔ (x s).1 = s' ∧ (x s).2.res = some a :=
  ⟨fun ⟨_, h⟩ => h, fun h => ⟨0, h⟩⟩

/-- **A sequence is safe when its parts are**, the second one wherever the first one returns. -/
theorem safe_bind_iff (hx : Fueled x) (hf : ∀ a, Fueled fun n => f n a) :
    Safe P (fun n => x n >>= f n) s ↔
      Safe P x s ∧ ∀ s' a, Returns x s s' a → Safe P (fun n => f n a) s' := by
  constructor
  · refine fun h => ⟨fun n e he => h n e (Exec.mem_log_bind.2 (Or.inl he)), ?_⟩
    rintro s' a ⟨n₀, rfl, hr⟩ n e he
    have hk := hx.keeps hr n
    refine h (n₀ + n) e (Exec.mem_log_bind.2 (Or.inr ⟨a, hk ▸ hr, ?_⟩))
    rw [hk, Nat.add_comm]
    exact (hf a).grows he n₀
  · rintro ⟨h₁, h₂⟩ n e he
    rcases Exec.mem_log_bind.1 he with he | ⟨a, hr, he⟩
    · exact h₁ n e he
    · exact h₂ _ a ⟨n, rfl, hr⟩ n e he

/-- **What a sequence returns.** -/
theorem returns_bind_iff (hx : Fueled x) (hf : ∀ a, Fueled fun n => f n a) {s'' : σ} {b : β} :
    Returns (fun n => x n >>= f n) s s'' b ↔
      ∃ s' a, Returns x s s' a ∧ Returns (fun n => f n a) s' s'' b := by
  constructor
  · rintro ⟨n, hs, hb⟩
    dsimp only at hs hb
    cases hr : (x n s).2.res with
    | none => rw [Exec.bind_of_none hr] at hb; simp at hb
    | some a =>
      rw [Exec.bind_of_some hr] at hs hb
      exact ⟨_, a, ⟨n, rfl, hr⟩, n, hs, hb⟩
  · rintro ⟨s', a, ⟨n₁, rfl, hr⟩, n₂, hs, hb⟩
    -- the fuel of both parts is enough for either
    have h₁ := hx.keeps hr n₂
    have h₂ := (hf a).keeps hb n₁
    refine ⟨n₁ + n₂, ?_⟩
    dsimp only at h₂ ⊢
    rw [Exec.bind_of_some (h₁ ▸ hr), h₁, Nat.add_comm, h₂]
    exact ⟨hs, hb⟩

end Fueled
