import Imsd.Lib.Trace

/-!
# Cascades of operations

An operation is in flight from its start to its end.  An event may end an operation in flight, and
it starts others.  Events come in any order.

* `Cascade ω κ`: which operation an event ends, and which operations it starts.  `Step` is the
  system of the operations in flight.
* `started_iff`: what is in flight or has ended is what was in flight at first, and what the events
  have started.
* `Forest`: the operations with `once` are started in one place only, by the events that end their
  parent.  Then none of them is started twice (`nodup`), whatever is started again and again
  besides.
-/

open EventSystem

/-- The operation that an event ends, if it ends one, and those that it starts. -/
structure Cascade (ω κ : Type*) where
  ends : κ → Option ω
  starts : κ → List ω

namespace Cascade

variable {ω κ : Type*}

/-- The operations with `p` are those that can be reached.  Those with `once` are in flight at
first, or started by the events that end their parent, each of them once. -/
structure Forest (c : Cascade ω κ) (roots : List ω) (p once : ω → Prop) [DecidablePred once]
    (parent : ω → Option ω) : Prop where
  nodup : (roots.filter once).Nodup
  root : ∀ w ∈ roots, p w ∧ parent w = none
  nodup_starts : ∀ k, ((c.starts k).filter once).Nodup
  child : ∀ k, (∀ v ∈ c.ends k, p v) → ∀ w ∈ c.starts k,
    p w ∧ (once w → ∃ v ∈ c.ends k, once v ∧ parent w = some v)

variable [DecidableEq ω]

/-- What is left of the operations in flight when an event has ended one. -/
def rest (c : Cascade ω κ) (inFlight : List ω) (k : κ) : List ω :=
  (c.ends k).elim inFlight inFlight.erase

/-- An event; what it ends is in flight. -/
def Step (c : Cascade ω κ) (inFlight : List ω) (k : κ) (inFlight' : List ω) : Prop :=
  (∀ v ∈ c.ends k, v ∈ inFlight) ∧ inFlight' = c.rest inFlight k ++ c.starts k

variable {c : Cascade ω κ} {roots inFlight : List ω} {ks : List κ}

/-- An event moves the operation that it ends from those in flight to those that have ended. -/
theorem perm_ended {k : κ} (h : ∀ v ∈ c.ends k, v ∈ inFlight) :
    ((ks ++ [k]).filterMap c.ends ++ (c.rest inFlight k ++ c.starts k)).Perm
      ((ks.filterMap c.ends ++ inFlight) ++ c.starts k) := by
  rw [List.filterMap_append, List.append_assoc, List.append_assoc]
  refine List.Perm.append_left _ ?_
  rw [← List.append_assoc]
  refine List.Perm.append_right _ ?_
  unfold rest
  cases hk : c.ends k with
  | none => simp [hk]
  | some v => simpa [hk] using (List.perm_cons_erase (h v hk)).symm

/-- **What was started.** -/
theorem started_iff (h : Run (· = roots) c.Step unguarded ks inFlight) (w : ω) :
    w ∈ ks.filterMap c.ends ++ inFlight ↔ w ∈ roots ∨ ∃ k ∈ ks, w ∈ c.starts k := by
  induction h with
  | start h =>
    subst h
    simp
  | @snoc ks inFlight inFlight' k _ _ hs ih =>
    obtain ⟨hk, rfl⟩ := hs
    rw [(perm_ended hk).mem_iff, List.mem_append, ih]
    simp [or_and_right, exists_or, or_assoc]

section Forest

variable {p once : ω → Prop} [DecidablePred once] {parent : ω → Option ω}

/-- Everything started can be reached. -/
theorem reached (hf : c.Forest roots p once parent)
    (h : Run (· = roots) c.Step unguarded ks inFlight) :
    ∀ w ∈ ks.filterMap c.ends ++ inFlight, p w := by
  induction h with
  | start h =>
    subst h
    exact fun w hw => (hf.root w (by simpa using hw)).1
  | @snoc ks inFlight inFlight' k _ _ hs ih =>
    obtain ⟨hk, rfl⟩ := hs
    intro w hw
    rcases List.mem_append.1 ((perm_ended hk).mem_iff.1 hw) with hw | hw
    · exact ih w hw
    · have hends : ∀ v ∈ c.ends k, p v := fun v hv => ih v (List.mem_append_right _ (hk v hv))
      exact (hf.child k hends w hw).1

/-- **Nothing is started twice**, of what is started in one place. -/
theorem nodup (hf : c.Forest roots p once parent)
    (h : Run (· = roots) c.Step unguarded ks inFlight) :
    ((ks.filterMap c.ends ++ inFlight).filter once).Nodup := by
  induction h with
  | start h =>
    subst h
    exact hf.nodup
  | @snoc ks inFlight inFlight' k hr _ hs ih =>
    obtain ⟨hk, rfl⟩ := hs
    have hreached := reached hf hr
    rw [((perm_ended hk).filter _).nodup_iff, List.filter_append]
    refine ih.append (hf.nodup_starts k) fun w hold hnew => ?_
    -- what was started before has another parent, since this one has just ended
    obtain ⟨hold, honce⟩ := List.mem_filter.1 hold
    have honce := of_decide_eq_true honce
    have hends : ∀ {k : κ}, (∀ v ∈ c.ends k, v ∈ ks.filterMap c.ends ++ inFlight) →
        ∀ v ∈ c.ends k, p v := fun hk v hv => hreached v (hk v hv)
    obtain ⟨v, hv, hvonce, hparent⟩ := (hf.child k
      (hends fun v hv => List.mem_append_right _ (hk v hv)) w (List.mem_filter.1 hnew).1).2 honce
    rcases (started_iff hr w).1 hold with hroot | ⟨k', hk', hw⟩
    · rw [(hf.root w hroot).2] at hparent
      cases hparent
    · have hended : ∀ v ∈ c.ends k', v ∈ ks.filterMap c.ends := fun v hv =>
        List.mem_filterMap.2 ⟨k', hk', hv⟩
      obtain ⟨v', hv', -, hparent'⟩ := (hf.child k'
        (hends fun v hv => List.mem_append_left _ (hended v hv)) w hw).2 honce
      obtain rfl : v' = v := Option.some_inj.1 (hparent'.symm.trans hparent)
      rw [List.filter_append] at ih
      have hfilter {l : List ω} (h : v' ∈ l) : v' ∈ l.filter once :=
        List.mem_filter.2 ⟨h, decide_eq_true hvonce⟩
      exact (List.nodup_append.1 ih).2.2 v' (hfilter (hended v' hv')) v' (hfilter (hk v' hv)) rfl

end Forest

end Cascade
