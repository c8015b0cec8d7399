import Mathlib.Tactic

/-!
# Computations that log what they do

A `Traced ε α` logs entries of type `ε` in order and then either ends with a value or is still
running when its fuel is used up (`res = none`); what was logged until then is kept.  An
`Exec σ ε α` is such a computation over a mutable state of type `σ`, and the state, too, is kept
when the computation does not end.

* `Traced.mem_log_bind` and `Exec.mem_log_bind` say which entries a sequence logs, whatever it
  does: the tools for safety properties of every access.
* `Exec.Keeps g x` says that `x` leaves `g` of the state alone, and `Exec.Logs P x` that all its
  entries have `P`, in the same generality.
* `Exec.Does obs x s s' out a` is the other reading, for computations that end: from `s` the
  computation ends in `s'` with value `a`, and its observable entries (those that `obs` maps to
  `some`) are `out`.  `Does.bind` composes such facts.
* `Exec.Continues obs x s out y s'` says the same of the first part of a computation, whether or
  not the rest, `y` from `s'`, ends.
* `Exec.Performs Fatal x g log a` is for computations whose course the state does not influence,
  but that a fatal entry ends (`Exec.attempt`): from every state `s` the computation logs `log` up
  to its first fatal entry, and if there is none, it ends in `g s` with value `a`.
-/

universe u

/-- A log, and the value the computation ended with, if it did. -/
structure Traced (ε α : Type u) where
  log : List ε
  res : Option α

namespace Traced

variable {ε ε' α β : Type u}

/-- Log `x`, then, if it ended, what follows it. -/
protected def bind (x : Traced ε α) (f : α → Traced ε β) : Traced ε β :=
  match x.res with
  | none => ⟨x.log, none⟩
  | some a => ⟨x.log ++ (f a).log, (f a).res⟩

instance : Monad (Traced ε) where
  pure a := ⟨[], some a⟩
  bind := Traced.bind

/-- Out of fuel. -/
def stuck : Traced ε α := ⟨[], none⟩

/-- The same computation with its entries renamed. -/
def mapLog (g : ε → ε') (x : Traced ε α) : Traced ε' α := ⟨x.log.map g, x.res⟩

@[simp] theorem log_pure (a : α) : (pure a : Traced ε α).log = [] := rfl
@[simp] theorem res_pure (a : α) : (pure a : Traced ε α).res = some a := rfl
@[simp] theorem log_stuck : (stuck : Traced ε α).log = [] := rfl
@[simp] theorem res_stuck : (stuck : Traced ε α).res = none := rfl
@[simp] theorem log_mapLog (g : ε → ε') (x : Traced ε α) : (x.mapLog g).log = x.log.map g := rfl
@[simp] theorem res_mapLog (g : ε → ε') (x : Traced ε α) : (x.mapLog g).res = x.res := rfl

theorem bind_of_some {x : Traced ε α} {a : α} (h : x.res = some a) (f : α → Traced ε β) :
    x >>= f = ⟨x.log ++ (f a).log, (f a).res⟩ := by
  show Traced.bind x f = _
  simp only [Traced.bind, h]

theorem bind_of_none {x : Traced ε α} (h : x.res = none) (f : α → Traced ε β) :
    x >>= f = ⟨x.log, none⟩ := by
  show Traced.bind x f = _
  simp only [Traced.bind, h]

@[simp] theorem res_bind (x : Traced ε α) (f : α → Traced ε β) :
    (x >>= f).res = x.res.bind fun a => (f a).res := by
  cases h : x.res with
  | none => rw [bind_of_none h]; rfl
  | some a => rw [bind_of_some h]; rfl

theorem mem_log_bind {x : Traced ε α} {f : α → Traced ε β} {e : ε} :
    e ∈ (x >>= f).log ↔ e ∈ x.log ∨ ∃ a, x.res = some a ∧ e ∈ (f a).log := by
  cases h : x.res with
  | none => simp [bind_of_none h]
  | some a => simp [bind_of_some h]

end Traced

/-- A computation over a state `σ`: the state it leaves, and its log and value. -/
def Exec (σ ε α : Type u) := σ → σ × Traced ε α

namespace Exec

variable {σ ε ω α β : Type u}

/-- Run `x`, then, if it ended, what follows it in the state `x` left. -/
protected def bind (x : Exec σ ε α) (f : α → Exec σ ε β) : Exec σ ε β := fun s =>
  match (x s).2.res with
  | none => ((x s).1, ⟨(x s).2.log, none⟩)
  | some a => ((f a (x s).1).1, ⟨(x s).2.log ++ (f a (x s).1).2.log, (f a (x s).1).2.res⟩)

instance : Monad (Exec σ ε) where
  pure a := fun s => (s, pure a)
  bind := Exec.bind

/-- The current state. -/
def get : Exec σ ε σ := fun s => (s, pure s)

/-- Change the state. -/
def modify (g : σ → σ) : Exec σ ε PUnit := fun s => (g s, pure ⟨⟩)

/-- Log the entries `es`. -/
def emitAll (es : List ε) : Exec σ ε PUnit := fun s => (s, ⟨es, some ⟨⟩⟩)

/-- Log an entry; a fatal one is the last one. -/
def attempt (Fatal : ε → Prop) [DecidablePred Fatal] (e : ε) : Exec σ ε PUnit :=
  fun s => (s, ⟨[e], if Fatal e then none else some ⟨⟩⟩)

/-- A traced computation, leaving the state as it is. -/
def lift (x : Traced ε α) : Exec σ ε α := fun s => (s, x)

theorem bind_of_some {x : Exec σ ε α} {s : σ} {a : α} (h : (x s).2.res = some a)
    (f : α → Exec σ ε β) :
    (x >>= f) s =
      ((f a (x s).1).1, ⟨(x s).2.log ++ (f a (x s).1).2.log, (f a (x s).1).2.res⟩) := by
  show Exec.bind x f s = _
  simp only [Exec.bind, h]

theorem bind_of_none {x : Exec σ ε α} {s : σ} (h : (x s).2.res = none) (f : α → Exec σ ε β) :
    (x >>= f) s = ((x s).1, ⟨(x s).2.log, none⟩) := by
  show Exec.bind x f s = _
  simp only [Exec.bind, h]

theorem res_bind_of_none {x : Exec σ ε α} {s : σ} (h : (x s).2.res = none)
    (f : α → Exec σ ε β) : ((x >>= f) s).2.res = none := by
  rw [bind_of_none h]

theorem mem_log_bind {x : Exec σ ε α} {f : α → Exec σ ε β} {s : σ} {e : ε} :
    e ∈ ((x >>= f) s).2.log ↔
      e ∈ (x s).2.log ∨ ∃ a, (x s).2.res = some a ∧ e ∈ (f a (x s).1).2.log := by
  cases h : (x s).2.res with
  | none => simp [bind_of_none h]
  | some a => simp [bind_of_some h]

/-- What a sequence leaves in the state is what its second part leaves there, or its first
part when that does not end. -/
theorem state_bind_induction {x : Exec σ ε α} {f : α → Exec σ ε β} {s : σ} (motive : σ → Prop)
    (hx : motive (x s).1) (hf : ∀ a, (x s).2.res = some a → motive (f a (x s).1).1) :
    motive ((x >>= f) s).1 := by
  cases h : (x s).2.res with
  | none => rw [bind_of_none h]; exact hx
  | some a => rw [bind_of_some h]; exact hf a h

@[simp] theorem pure_apply (a : α) (s : σ) : (pure a : Exec σ ε α) s = (s, pure a) := rfl
@[simp] theorem emitAll_apply (es : List ε) (s : σ) :
    (emitAll es : Exec σ ε PUnit) s = (s, ⟨es, some ⟨⟩⟩) := rfl
@[simp] theorem lift_apply (x : Traced ε α) (s : σ) : (lift x : Exec σ ε α) s = (s, x) := rfl

/-- What begins with `get` goes on with the state. -/
theorem get_bind (f : σ → Exec σ ε α) (s : σ) : (get >>= f) s = f s s := rfl

/-! ### What a computation leaves alone -/

/-- Whatever the computation does, and whether or not it ends, `g` of the state stays as it is. -/
def Keeps {γ : Type u} (g : σ → γ) (x : Exec σ ε α) : Prop := ∀ s, g (x s).1 = g s

namespace Keeps

variable {γ : Type u} {g : σ → γ}

theorem pure (a : α) : Keeps g (Pure.pure a : Exec σ ε α) := fun _ => rfl

theorem get : Keeps g (Exec.get : Exec σ ε σ) := fun _ => rfl

theorem emitAll (es : List ε) : Keeps g (Exec.emitAll es : Exec σ ε PUnit) := fun _ => rfl

theorem lift (x : Traced ε α) : Keeps g (Exec.lift x : Exec σ ε α) := fun _ => rfl

theorem attempt (Fatal : ε → Prop) [DecidablePred Fatal] (e : ε) :
    Keeps g (Exec.attempt Fatal e : Exec σ ε PUnit) := fun _ => rfl

theorem modify {f : σ → σ} (h : ∀ s, g (f s) = g s) :
    Keeps g (Exec.modify f : Exec σ ε PUnit) := h

theorem bind {x : Exec σ ε α} {f : α → Exec σ ε β} (hx : Keeps g x) (hf : ∀ a, Keeps g (f a)) :
    Keeps g (x >>= f) := fun s =>
  state_bind_induction (fun s' => g s' = g s) (hx s) fun a _ => (hf a _).trans (hx s)

/-- `bind` for a change of what is not looked at. -/
theorem modify_bind {f : σ → σ} {y : PUnit → Exec σ ε α} (h : ∀ s, g (f s) = g s)
    (hy : ∀ u, Keeps g (y u)) : Keeps g (Exec.modify f >>= y) :=
  (modify h).bind hy

theorem ite {p : Prop} [Decidable p] {x y : Exec σ ε α} (hx : Keeps g x) (hy : Keeps g y) :
    Keeps g (if p then x else y) := by
  split_ifs
  · exact hx
  · exact hy

end Keeps

/-! ### What a computation logs -/

/-- Whatever the computation does, and whether or not it ends, all its entries have `P`. -/
def Logs (P : ε → Prop) (x : Exec σ ε α) : Prop := ∀ s, ∀ e ∈ (x s).2.log, P e

namespace Logs

variable {P : ε → Prop}

theorem pure (a : α) : Logs P (Pure.pure a : Exec σ ε α) := fun _ _ h => absurd h List.not_mem_nil

theorem get : Logs P (Exec.get : Exec σ ε σ) := fun _ _ h => absurd h List.not_mem_nil

theorem modify (g : σ → σ) : Logs P (Exec.modify g : Exec σ ε PUnit) :=
  fun _ _ h => absurd h List.not_mem_nil

theorem emitAll {es : List ε} (h : ∀ e ∈ es, P e) : Logs P (Exec.emitAll es : Exec σ ε PUnit) :=
  fun _ => h

theorem lift {x : Traced ε α} (h : ∀ e ∈ x.log, P e) : Logs P (Exec.lift x : Exec σ ε α) :=
  fun _ => h

theorem bind {x : Exec σ ε α} {f : α → Exec σ ε β} (hx : Logs P x) (hf : ∀ a, Logs P (f a)) :
    Logs P (x >>= f) := fun s e he =>
  (mem_log_bind.1 he).elim (hx s e) fun ⟨a, _, h⟩ => hf a _ e h

theorem mono {Q : ε → Prop} {x : Exec σ ε α} (h : Logs P x) (hPQ : ∀ e, P e → Q e) : Logs Q x :=
  fun s e he => hPQ e (h s e he)

theorem ite {p : Prop} [Decidable p] {x y : Exec σ ε α} (hx : Logs P x) (hy : Logs P y) :
    Logs P (if p then x else y) := by
  split_ifs
  · exact hx
  · exact hy

/-- What can be observed of a sequence is what can be observed of its second part, or nothing when
the first part, of which nothing can be observed, does not end. -/
theorem out_bind_induction {obs : ε → Option ω} {x : Exec σ ε α} {f : α → Exec σ ε β} {s : σ}
    (hx : Logs (obs · = none) x) (motive : List ω → Prop) (hnil : motive [])
    (hf : ∀ a, (x s).2.res = some a → motive ((f a (x s).1).2.log.filterMap obs)) :
    motive (((x >>= f) s).2.log.filterMap obs) := by
  have hsilent : (x s).2.log.filterMap obs = [] := List.filterMap_eq_nil_iff.2 (hx s)
  cases h : (x s).2.res with
  | none => rwa [bind_of_none h, hsilent]
  | some a => rw [bind_of_some h, List.filterMap_append, hsilent]; exact hf a h

end Logs

/-! ### Computations that end, up to what can be observed of them -/

/-- From `s`, `x` ends in `s'` with value `a`, and logs the observations `out` in order. -/
structure Does (obs : ε → Option ω) (x : Exec σ ε α) (s s' : σ) (out : List ω) (a : α) :
    Prop where
  state : (x s).1 = s'
  res : (x s).2.res = some a
  out : (x s).2.log.filterMap obs = out

namespace Does

variable {obs : ε → Option ω}

theorem pure (a : α) (s : σ) : Does obs (Pure.pure a : Exec σ ε α) s s [] a := ⟨rfl, rfl, rfl⟩

theorem get (s : σ) : Does obs (Exec.get : Exec σ ε σ) s s [] s := ⟨rfl, rfl, rfl⟩

theorem modify (g : σ → σ) (s : σ) :
    Does obs (Exec.modify g : Exec σ ε PUnit) s (g s) [] ⟨⟩ := ⟨rfl, rfl, rfl⟩

theorem emitAll (es : List ε) (s : σ) :
    Does obs (Exec.emitAll es : Exec σ ε PUnit) s s (es.filterMap obs) ⟨⟩ := ⟨rfl, rfl, rfl⟩

/-- A traced computation none of whose entries can be observed. -/
theorem lift {x : Traced ε α} {a : α} (s : σ) (hres : x.res = some a)
    (hobs : ∀ e ∈ x.log, obs e = none) : Does obs (Exec.lift x : Exec σ ε α) s s [] a :=
  ⟨rfl, hres, by simpa [List.filterMap_eq_nil_iff] using hobs⟩

/-- What follows a computation that ends goes on in its state, with its observations in front. -/
theorem bind_apply {x : Exec σ ε α} {s s₁ : σ} {o₁ : List ω} {a : α} (hx : Does obs x s s₁ o₁ a)
    (f : α → Exec σ ε β) : ((x >>= f) s).1 = (f a s₁).1 ∧
      ((x >>= f) s).2.res = (f a s₁).2.res ∧
      ((x >>= f) s).2.log.filterMap obs = o₁ ++ (f a s₁).2.log.filterMap obs := by
  rw [bind_of_some hx.res, hx.state]
  exact ⟨rfl, rfl, by rw [List.filterMap_append, hx.out]⟩

theorem bind {x : Exec σ ε α} {f : α → Exec σ ε β} {s s₁ s₂ : σ} {o₁ o₂ : List ω} {a : α}
    {b : β} (hx : Does obs x s s₁ o₁ a) (hf : Does obs (f a) s₁ s₂ o₂ b) :
    Does obs (x >>= f) s s₂ (o₁ ++ o₂) b := by
  obtain ⟨hstate, hres, hout⟩ := hx.bind_apply f
  exact ⟨hstate.trans hf.state, hres.trans hf.res, by rw [hout, hf.out]⟩

/-- `bind` for a first part with nothing to observe. -/
theorem bind_nil {x : Exec σ ε α} {f : α → Exec σ ε β} {s s₁ s₂ : σ} {out : List ω} {a : α}
    {b : β} (hx : Does obs x s s₁ [] a) (hf : Does obs (f a) s₁ s₂ out b) :
    Does obs (x >>= f) s s₂ out b := hx.bind hf

end Does

/-- From `s`, `x` logs the observations `out` and goes on as `y` does from `s'`. -/
structure Continues (obs : ε → Option ω) (x : Exec σ ε α) (s : σ) (out : List ω) (y : Exec σ ε α)
    (s' : σ) : Prop where
  state : (x s).1 = (y s').1
  res : (x s).2.res = (y s').2.res
  out : (x s).2.log.filterMap obs = out ++ (y s').2.log.filterMap obs

section Continues

variable {obs : ε → Option ω} {x : Exec σ ε α} {f : α → Exec σ ε β} {y : Exec σ ε β}
  {s s₁ s₂ : σ} {o₁ o₂ : List ω} {a : α}

theorem Continues.refl (y : Exec σ ε β) (s : σ) : Continues obs y s [] y s := ⟨rfl, rfl, rfl⟩

theorem Continues.trans {x z : Exec σ ε β} (h : Continues obs x s o₁ y s₁)
    (h' : Continues obs y s₁ o₂ z s₂) : Continues obs x s (o₁ ++ o₂) z s₂ :=
  ⟨h.state.trans h'.state, h.res.trans h'.res, by rw [h.out, h'.out, List.append_assoc]⟩

/-- What follows a computation that ends. -/
theorem Does.continues (hx : Does obs x s s₁ o₁ a) (hf : Continues obs (f a) s₁ o₂ y s₂) :
    Continues obs (x >>= f) s (o₁ ++ o₂) y s₂ := by
  obtain ⟨hstate, hres, hout⟩ := hx.bind_apply f
  exact ⟨hstate.trans hf.state, hres.trans hf.res, by rw [hout, hf.out, List.append_assoc]⟩

/-- `Does.continues` for a first part with nothing to observe. -/
theorem Does.continues_nil (hx : Does obs x s s₁ [] a) (hf : Continues obs (f a) s₁ o₂ y s₂) :
    Continues obs (x >>= f) s o₂ y s₂ := hx.continues hf

/-- The rest ends. -/
theorem Continues.does {x : Exec σ ε β} {b : β} (h : Continues obs x s o₁ y s₁)
    (hy : Does obs y s₁ s₂ o₂ b) : Does obs x s s₂ (o₁ ++ o₂) b :=
  ⟨h.state.trans hy.state, h.res.trans hy.res, by rw [h.out, hy.out]⟩

end Continues

/-! ### Computations that take the same course from every state -/

section Fatal

variable (Fatal : ε → Prop)

/-- No entry of a log is fatal. -/
def Survived (log : List ε) : Prop := ∀ e ∈ log, ¬ Fatal e

section Survived

variable {Fatal} {l l' : List ε} {e : ε}

@[simp] theorem survived_nil : Survived Fatal ([] : List ε) := fun _ h => absurd h List.not_mem_nil

@[simp] theorem survived_cons : Survived Fatal (e :: l) ↔ ¬ Fatal e ∧ Survived Fatal l :=
  List.forall_mem_cons

@[simp] theorem survived_append :
    Survived Fatal (l ++ l') ↔ Survived Fatal l ∧ Survived Fatal l' :=
  List.forall_mem_append

end Survived

variable [DecidablePred Fatal]

instance (log : List ε) : Decidable (Survived Fatal log) :=
  inferInstanceAs (Decidable (∀ e ∈ log, ¬ Fatal e))

/-- A log up to its first fatal entry. -/
def upToFatal : List ε → List ε
  | [] => []
  | e :: es => e :: if Fatal e then [] else upToFatal es

variable {Fatal} {l l' : List ε} {e : ε}

theorem upToFatal_append_of_survived (h : Survived Fatal l) (l' : List ε) :
    upToFatal Fatal (l ++ l') = l ++ upToFatal Fatal l' := by
  induction l with
  | nil => rfl
  | cons e l ih =>
    obtain ⟨he, hl⟩ := survived_cons.1 h
    rw [List.cons_append, upToFatal, if_neg he, ih hl, List.cons_append]

theorem upToFatal_of_survived (h : Survived Fatal l) : upToFatal Fatal l = l := by
  have happend := upToFatal_append_of_survived h []
  rwa [List.append_nil, upToFatal, List.append_nil] at happend

theorem upToFatal_append_of_not_survived (h : ¬ Survived Fatal l) (l' : List ε) :
    upToFatal Fatal (l ++ l') = upToFatal Fatal l := by
  induction l with
  | nil => exact absurd survived_nil h
  | cons e l ih =>
    rw [List.cons_append, upToFatal, upToFatal]
    by_cases he : Fatal e
    · rw [if_pos he, if_pos he]
    · rw [if_neg he, if_neg he, ih fun hl => h (survived_cons.2 ⟨he, hl⟩)]

/-- What is logged is a part of the whole. -/
theorem mem_of_mem_upToFatal (h : e ∈ upToFatal Fatal l) : e ∈ l := by
  induction l with
  | nil => exact h
  | cons e' l ih =>
    rw [upToFatal, List.mem_cons] at h
    rcases h with rfl | h
    · exact List.mem_cons_self
    · split_ifs at h
      · exact absurd h List.not_mem_nil
      · exact List.mem_cons_of_mem _ (ih h)

/-- The last entry is a fatal one, if there is any. -/
theorem survived_upToFatal_iff : Survived Fatal (upToFatal Fatal l) ↔ Survived Fatal l := by
  induction l with
  | nil => rfl
  | cons e l ih =>
    rw [upToFatal, survived_cons, survived_cons]
    refine and_congr_right fun he => ?_
    rw [if_neg he, ih]

/-- What holds of all entries, and of no fatal one, can be told from what is logged. -/
theorem forall_mem_upToFatal_iff {P : ε → Prop} (hP : ∀ e, P e → ¬ Fatal e) :
    (∀ e ∈ upToFatal Fatal l, P e) ↔ ∀ e ∈ l, P e := by
  constructor
  · intro h
    have hsurvived := survived_upToFatal_iff.1 fun e he => hP e (h e he)
    rwa [upToFatal_of_survived hsurvived] at h
  · exact fun h e he => h e (mem_of_mem_upToFatal he)

end Fatal

/-- From every state `s`, `x` logs `log` up to its first fatal entry.  If there is none, it ends in
`g s` with value `a`. -/
structure Performs (Fatal : ε → Prop) [DecidablePred Fatal] (x : Exec σ ε α) (g : σ → σ)
    (log : List ε) (a : α) : Prop where
  run : ∀ s, (x s).2 = ⟨upToFatal Fatal log, if Survived Fatal log then some a else none⟩
  state : Survived Fatal log → ∀ s, (x s).1 = g s

namespace Performs

variable {Fatal : ε → Prop} [DecidablePred Fatal] {x : Exec σ ε α} {f : α → Exec σ ε β}
  {g g' : σ → σ} {l l' : List ε} {a : α} {b : β}

theorem of_survived (hl : Survived Fatal l) (h : ∀ s, x s = (g s, ⟨l, some a⟩)) :
    Performs Fatal x g l a :=
  ⟨fun s => by rw [h s, upToFatal_of_survived hl, if_pos hl], fun _ s => by rw [h s]⟩

/-- The run that no fatal entry ends. -/
theorem apply (h : Performs Fatal x g l a) (hl : Survived Fatal l) (s : σ) :
    x s = (g s, ⟨l, some a⟩) := by
  refine Prod.ext (h.state hl s) ?_
  rw [h.run s, upToFatal_of_survived hl, if_pos hl]

theorem pure (a : α) : Performs Fatal (Pure.pure a : Exec σ ε α) id [] a :=
  of_survived survived_nil fun _ => rfl

theorem modify (g : σ → σ) : Performs Fatal (Exec.modify g : Exec σ ε PUnit) g [] ⟨⟩ :=
  of_survived survived_nil fun _ => rfl

theorem emitAll {es : List ε} (h : Survived Fatal es) :
    Performs Fatal (Exec.emitAll es : Exec σ ε PUnit) id es ⟨⟩ :=
  of_survived h fun _ => rfl

theorem attempt (e : ε) :
    Performs Fatal (Exec.attempt Fatal e : Exec σ ε PUnit) id [e] ⟨⟩ where
  run s := by
    by_cases he : Fatal e
    · simp [Exec.attempt, upToFatal, he]
    · simp [Exec.attempt, upToFatal, he]
  state _ _ := rfl

theorem bind (hx : Performs Fatal x g l a) (hf : Performs Fatal (f a) g' l' b) :
    Performs Fatal (x >>= f) (g' ∘ g) (l ++ l') b := by
  by_cases hl : Survived Fatal l
  · have hbind (s : σ) : (x >>= f) s =
        ((f a (g s)).1, ⟨l ++ (f a (g s)).2.log, (f a (g s)).2.res⟩) := by
      have hres : (x s).2.res = some a := by rw [hx.apply hl s]
      rw [bind_of_some hres, hx.apply hl s]
    constructor
    · intro s
      rw [hbind, hf.run, upToFatal_append_of_survived hl]
      simp only [survived_append, hl, true_and]
    · intro hboth s
      rw [hbind]
      exact hf.state (survived_append.1 hboth).2 (g s)
  · have hnot : ¬ Survived Fatal (l ++ l') := fun h => hl (survived_append.1 h).1
    constructor
    · intro s
      have hrun := hx.run s
      rw [if_neg hl] at hrun
      have hres : (x s).2.res = none := by rw [hrun]
      rw [bind_of_none hres, hrun, upToFatal_append_of_not_survived hl, if_neg hnot]
    · exact fun h => absurd h hnot

/-- `bind` for a first part that changes nothing. -/
theorem bind_id (hx : Performs Fatal x id l a) (hf : Performs Fatal (f a) g l' b) :
    Performs Fatal (x >>= f) g (l ++ l') b :=
  hx.bind hf

/-- `bind` for a first part that logs nothing. -/
theorem bind_nil (hx : Performs Fatal x g [] a) (hf : Performs Fatal (f a) g' l b) :
    Performs Fatal (x >>= f) (g' ∘ g) l b :=
  hx.bind hf

/-- `bind` for a first part that changes nothing and a second part that logs nothing. -/
theorem bind_silent (hx : Performs Fatal x id l a) (hf : Performs Fatal (f a) g [] b) :
    Performs Fatal (x >>= f) g l b := by
  have h := hx.bind_id hf
  rwa [List.append_nil] at h

/-- What a sequence logs, whatever its second part does. -/
theorem mem_log_bind (hx : Performs Fatal x g l a) (hl : Survived Fatal l) {f : α → Exec σ ε β}
    {s : σ} {e : ε} : e ∈ ((x >>= f) s).2.log ↔ e ∈ l ∨ e ∈ (f a (g s)).2.log := by
  simp [Exec.mem_log_bind, hx.apply hl s]

/-- The state that a sequence leaves, whatever its second part does. -/
theorem state_bind (hx : Performs Fatal x g l a) (hl : Survived Fatal l) (f : α → Exec σ ε β)
    (s : σ) : ((x >>= f) s).1 = (f a (g s)).1 := by
  have hres : (x s).2.res = some a := by rw [hx.apply hl s]
  rw [bind_of_some hres, hx.apply hl s]

/-- `bind` for a second part that only returns. -/
theorem bind_pure (hx : Performs Fatal x g l a) (h : α → β) :
    Performs Fatal (x >>= fun a => Pure.pure (h a)) g l (h a) := by
  have hbind := hx.bind (f := fun a => Pure.pure (h a)) (pure (h a))
  rwa [List.append_nil] at hbind

/-- The branch of a check. -/
theorem ite_pos {p : Prop} [Decidable p] {y : Exec σ ε α} (hp : p) (hx : Performs Fatal x g l a) :
    Performs Fatal (if p then x else y) g l a := by
  rwa [if_pos hp]

@[inherit_doc ite_pos]
theorem ite_neg {p : Prop} [Decidable p] {y : Exec σ ε α} (hp : ¬ p)
    (hx : Performs Fatal x g l a) : Performs Fatal (if p then y else x) g l a := by
  rwa [if_neg hp]

theorem does (h : Performs Fatal x g l a) (hl : Survived Fatal l) (obs : ε → Option ω) (s : σ) :
    Does obs x s (g s) (l.filterMap obs) a := by
  constructor <;> rw [h.apply hl s]

end Performs

end Exec
