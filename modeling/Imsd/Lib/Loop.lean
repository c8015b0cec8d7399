import Imsd.Lib.Exec

/-!
# While loops

A loop body maps a loop state to the next state or to the result of the loop (`τ ⊕ ρ`), logging
what it does on the way.  `WhileLoop.run body n` makes at most `n` passes.

* `Next` and `Visits`: the states of consecutive passes, and all the states a loop gets to.
* `Ends`: some number of passes is enough.  `ends_of_variant` is the termination rule;
  `not_ends_of_keeps` shows a loop to run for ever.
* `exists_visits_of_mem_log` and `exists_visits_of_res`, with their converses: what some number of
  passes logs and returns is what the body logs and returns at the visited states.
-/

universe u

namespace WhileLoop

variable {ε τ ρ : Type u}

/-- At most `n` passes of the loop from state `t`. -/
def run (body : τ → Traced ε (τ ⊕ ρ)) : ℕ → τ → Traced ε ρ
  | 0, _ => Traced.stuck
  | n + 1, t => body t >>= fun
    | .inl t' => run body n t'
    | .inr r => pure r

variable (body : τ → Traced ε (τ ⊕ ρ))

/-- One pass at `t` goes on to `t'`. -/
def Next (t t' : τ) : Prop := (body t).res = some (.inl t')

/-- The states the loop gets to from `t`. -/
def Visits : τ → τ → Prop := Relation.ReflTransGen (Next body)

/-- The loop from `t` ends. -/
def Ends (t : τ) : Prop := ∃ n r, (run body n t).res = some r

variable {body}

theorem run_zero (t : τ) : run body 0 t = Traced.stuck := rfl

theorem run_succ_of_next {t t' : τ} (h : Next body t t') (n : ℕ) :
    run body (n + 1) t = ⟨(body t).log ++ (run body n t').log, (run body n t').res⟩ :=
  Traced.bind_of_some h _

theorem run_succ_of_return {t : τ} {r : ρ} (h : (body t).res = some (.inr r)) (n : ℕ) :
    run body (n + 1) t = ⟨(body t).log, some r⟩ := by
  refine (Traced.bind_of_some h _).trans ?_
  simp

theorem run_succ_of_stuck {t : τ} (h : (body t).res = none) (n : ℕ) :
    run body (n + 1) t = ⟨(body t).log, none⟩ :=
  Traced.bind_of_none h _

/-- A loop that has ended is not changed by more fuel. -/
theorem run_mono {n : ℕ} {t : τ} {r : ρ} (h : (run body n t).res = some r) :
    ∀ k, run body (n + k) t = run body n t := by
  intro k
  induction n generalizing t with
  | zero => simp [run_zero] at h
  | succ n ih =>
    rw [Nat.add_right_comm]
    rcases hb : (body t).res with _ | t' | r'
    · rw [run_succ_of_stuck hb] at h; simp at h
    · rw [run_succ_of_next hb] at h
      rw [run_succ_of_next hb, run_succ_of_next hb, ih h]
    · rw [run_succ_of_return hb, run_succ_of_return hb]

/-- What has been logged stays logged. -/
theorem mem_log_run_add {n : ℕ} {t : τ} {e : ε} (h : e ∈ (run body n t).log) :
    ∀ k, e ∈ (run body (n + k) t).log := by
  intro k
  induction n generalizing t with
  | zero => simp [run_zero] at h
  | succ n ih =>
    rw [Nat.add_right_comm]
    rcases hb : (body t).res with _ | t' | r
    · rw [run_succ_of_stuck hb] at h ⊢; exact h
    · rw [run_succ_of_next hb] at h ⊢
      exact List.mem_append.2 ((List.mem_append.1 h).imp_right ih)
    · rw [run_succ_of_return hb] at h ⊢; exact h

theorem ends_of_next {t t' : τ} (h : Next body t t') : Ends body t ↔ Ends body t' := by
  constructor
  · rintro ⟨n, r, hr⟩
    cases n with
    | zero => simp [run_zero] at hr
    | succ n => exact ⟨n, r, by rw [run_succ_of_next h] at hr; exact hr⟩
  · rintro ⟨n, r, hr⟩
    exact ⟨n + 1, r, by rw [run_succ_of_next h]; exact hr⟩

theorem ends_of_return {t : τ} {r : ρ} (h : (body t).res = some (.inr r)) : Ends body t :=
  ⟨1, r, by rw [run_succ_of_return h]⟩

/-- A loop all of whose visited passes end, and get on along a measure, ends. -/
theorem ends_of_variant (μ : τ → ℕ) {t : τ}
    (hres : ∀ t', Visits body t t' → (body t').res.isSome)
    (hvar : ∀ t' t'', Visits body t t' → Next body t' t'' → μ t'' < μ t') : Ends body t := by
  -- on the measure; what the next state visits, this one does, too
  induction hμ : μ t using Nat.strong_induction_on generalizing t with
  | _ m ih =>
    have h := hres t .refl
    rcases hb : (body t).res with _ | t' | r
    · rw [hb] at h; simp at h
    · rw [ends_of_next hb]
      refine ih (μ t') ?_ (fun s hs => hres s (.head hb hs))
        (fun s s' hs => hvar s s' (.head hb hs)) rfl
      rw [← hμ]
      exact hvar t t' .refl hb
    · exact ends_of_return hb

/-- A loop that can be kept going inside a set of states does not end. -/
theorem not_ends_of_keeps (P : τ → Prop) (hP : ∀ t, P t → ∃ t', Next body t t' ∧ P t') {t : τ}
    (ht : P t) : ¬ Ends body t := by
  rintro ⟨n, r, hr⟩
  induction n generalizing t with
  | zero => simp [run_zero] at hr
  | succ n ih =>
    obtain ⟨t', hn, ht'⟩ := hP t ht
    rw [run_succ_of_next hn] at hr
    exact ih ht' hr

/-- An entry logged by a loop is logged by a pass at a state it visits. -/
theorem exists_visits_of_mem_log {n : ℕ} {t : τ} {e : ε} (h : e ∈ (run body n t).log) :
    ∃ t', Visits body t t' ∧ e ∈ (body t').log := by
  induction n generalizing t with
  | zero => simp [run_zero] at h
  | succ n ih =>
    rcases hb : (body t).res with _ | t' | r
    · rw [run_succ_of_stuck hb] at h
      exact ⟨t, .refl, h⟩
    · rw [run_succ_of_next hb] at h
      rcases List.mem_append.1 h with h | h
      · exact ⟨t, .refl, h⟩
      · obtain ⟨t'', hv, he⟩ := ih h
        exact ⟨t'', .head hb hv, he⟩
    · rw [run_succ_of_return hb] at h
      exact ⟨t, .refl, h⟩

theorem exists_mem_log_of_visits {t t' : τ} {e : ε} (hv : Visits body t t')
    (he : e ∈ (body t').log) : ∃ n, e ∈ (run body n t).log := by
  induction hv using Relation.ReflTransGen.head_induction_on with
  | refl =>
    refine ⟨1, ?_⟩
    show e ∈ (body t' >>= _).log
    exact Traced.mem_log_bind.2 (Or.inl he)
  | head hn _ ih =>
    obtain ⟨n, hn'⟩ := ih
    exact ⟨n + 1, by rw [run_succ_of_next hn]; exact List.mem_append_right _ hn'⟩

/-- The value of a loop is returned by a pass at a state it visits. -/
theorem exists_visits_of_res {n : ℕ} {t : τ} {r : ρ} (h : (run body n t).res = some r) :
    ∃ t', Visits body t t' ∧ (body t').res = some (.inr r) := by
  induction n generalizing t with
  | zero => simp [run_zero] at h
  | succ n ih =>
    rcases hb : (body t).res with _ | t' | r'
    · rw [run_succ_of_stuck hb] at h; simp at h
    · rw [run_succ_of_next hb] at h
      obtain ⟨t'', hv, hr⟩ := ih h
      exact ⟨t'', .head hb hv, hr⟩
    · rw [run_succ_of_return hb] at h
      cases h
      exact ⟨t, .refl, hb⟩

theorem exists_res_of_visits {t t' : τ} {r : ρ} (hv : Visits body t t')
    (hr : (body t').res = some (.inr r)) : ∃ n, (run body n t).res = some r := by
  induction hv using Relation.ReflTransGen.head_induction_on with
  | refl => exact ⟨1, by rw [run_succ_of_return hr]⟩
  | head hn _ ih =>
    obtain ⟨n, hn'⟩ := ih
    exact ⟨n + 1, by rw [run_succ_of_next hn]; exact hn'⟩

end WhileLoop
