import Mathlib.Tactic

/-!
# Lock files

Processes open a file under one name, creating it if there is none, and take an exclusive lock on
what they have opened.  The lock belongs to the file, not to the name: if the name is removed,
the next one to open it gets another file, with another lock.

* `Locks π`: the file under the name, the file that each process has open, and the holder of the
  lock of each file.  Files are numbered; a number is not used twice.
* `openFile`, `tryLock`, `close` and `unlink` are the operations.
* `Valid` is kept by all of them, and says that a file is locked by a process that has it open.
  `Named` says that every open file is the one under the name; only `unlink` breaks it.
* `Named.eq_of_holds`: with `Named`, at most one process holds a lock.
-/

/-- The state of a lock file. -/
structure Locks (π : Type*) where
  name : Option ℕ
  next : ℕ
  file : π → Option ℕ
  holder : ℕ → Option π

namespace Locks

variable {π : Type*}

/-- The process has a file open whose lock it holds. -/
def Holds (s : Locks π) (p : π) : Prop := ∃ i, s.file p = some i ∧ s.holder i = some p

/-- The numbers in use are below `next`, and who holds the lock of a file has it open. -/
structure Valid (s : Locks π) : Prop where
  name_lt : ∀ i, s.name = some i → i < s.next
  file_lt : ∀ p i, s.file p = some i → i < s.next
  file_of_holder : ∀ i p, s.holder i = some p → s.file p = some i

/-- Every open file is the one under the name. -/
def Named (s : Locks π) : Prop := ∀ p i, s.file p = some i → s.name = some i

variable {s s' : Locks π} {p q : π}

/-- No file is open. -/
theorem valid_of_closed (hname : ∀ i, s.name = some i → i < s.next) (hfile : ∀ p, s.file p = none)
    (hholder : ∀ i, s.holder i = none) : s.Valid :=
  ⟨hname, fun p i h => by simp [hfile p] at h, fun i p h => by simp [hholder i] at h⟩

theorem named_of_closed (hfile : ∀ p, s.file p = none) : s.Named :=
  fun p i h => by simp [hfile p] at h

theorem Valid.holds_of_holder (h : s.Valid) {i : ℕ} (hi : s.holder i = some p) : s.Holds p :=
  ⟨i, h.file_of_holder i p hi, hi⟩

/-- The file that is opened has a number from before, or the next one. -/
theorem Valid.getD_lt (h : s.Valid) :
    s.name.getD s.next < if s.name.isSome then s.next else s.next + 1 := by
  cases hname : s.name with
  | none => exact Nat.lt_succ_self s.next
  | some i => exact h.name_lt i hname

theorem not_holds_of_closed (h : s.file p = none) : ¬ s.Holds p := by
  rintro ⟨i, hi, -⟩
  rw [h] at hi
  cases hi

/-- **One process at most holds a lock**, as long as every open file is the one under the name. -/
theorem Named.eq_of_holds (h : s.Named) (hp : s.Holds p) (hq : s.Holds q) : p = q := by
  obtain ⟨i, hpi, hp⟩ := hp
  obtain ⟨j, hqj, hq⟩ := hq
  have hij : some i = some j := (h p i hpi).symm.trans (h q j hqj)
  cases hij
  rw [hp] at hq
  exact Option.some.inj hq

/-! ### Removing the name, and taking the lock -/

/-- Remove the name. -/
def unlink (s : Locks π) : Locks π := { s with name := none }

theorem Valid.unlink (h : s.Valid) : s.unlink.Valid :=
  ⟨fun _ hi => absurd hi (by simp [Locks.unlink]), h.file_lt, h.file_of_holder⟩

/-- Take the lock of the file that the process has open, if it is free. -/
def tryLock (s : Locks π) (p : π) : Option (Locks π) :=
  match s.file p with
  | none => none
  | some i =>
    match s.holder i with
    | none => some { s with holder := Function.update s.holder i (some p) }
    | some _ => none

theorem tryLock_eq_some_iff : s.tryLock p = some s' ↔
    ∃ i, s.file p = some i ∧ s.holder i = none ∧
      s' = { s with holder := Function.update s.holder i (some p) } := by
  unfold tryLock
  cases s.file p with
  | none => simp
  | some i => cases hi : s.holder i <;> simp [hi, eq_comm]

theorem Valid.tryLock (h : s.Valid) (hs : s.tryLock p = some s') : s'.Valid := by
  obtain ⟨i, hfile, -, rfl⟩ := tryLock_eq_some_iff.1 hs
  refine ⟨h.name_lt, h.file_lt, fun j q hj => ?_⟩
  dsimp only at hj
  by_cases hji : j = i
  · subst hji
    rw [Function.update_self] at hj
    cases hj
    exact hfile
  · rw [Function.update_of_ne hji] at hj
    exact h.file_of_holder j q hj

theorem Named.tryLock (h : s.Named) (hs : s.tryLock p = some s') : s'.Named := by
  obtain ⟨i, -, -, rfl⟩ := tryLock_eq_some_iff.1 hs
  exact h

theorem holds_tryLock_iff (h : s.tryLock p = some s') : s'.Holds q ↔ q = p ∨ s.Holds q := by
  obtain ⟨i, hfile, hfree, rfl⟩ := tryLock_eq_some_iff.1 h
  constructor
  · rintro ⟨j, hj, hholder⟩
    dsimp only at hj hholder
    by_cases hji : j = i
    · subst hji
      rw [Function.update_self] at hholder
      cases hholder
      exact Or.inl rfl
    · rw [Function.update_of_ne hji] at hholder
      exact Or.inr ⟨j, hj, hholder⟩
  · rintro (rfl | ⟨j, hj, hholder⟩)
    · exact ⟨i, hfile, Function.update_self ..⟩
    · have hji : j ≠ i := by
        rintro rfl
        rw [hfree] at hholder
        cases hholder
      exact ⟨j, hj, (Function.update_of_ne hji ..).trans hholder⟩

/-- The lock of an open file is refused exactly while a process holds it. -/
theorem Valid.tryLock_eq_none_iff (h : s.Valid) {i : ℕ} (hp : s.file p = some i) :
    s.tryLock p = none ↔ ∃ q, s.file q = some i ∧ s.Holds q := by
  unfold Locks.tryLock
  rw [hp]
  dsimp only
  cases hi : s.holder i with
  | none =>
    refine iff_of_false (by simp) ?_
    rintro ⟨q, hq, j, hj, hholder⟩
    rw [hq] at hj
    cases hj
    rw [hi] at hholder
    cases hholder
  | some q =>
    exact iff_of_true rfl ⟨q, h.file_of_holder i q hi, h.holds_of_holder hi⟩

/-! ### Opening and closing -/

variable [DecidableEq π]

/-- Open the file under the name, or a new one. -/
def openFile (s : Locks π) (p : π) : Locks π :=
  { s with
    name := some (s.name.getD s.next)
    next := if s.name.isSome then s.next else s.next + 1
    file := Function.update s.file p (some (s.name.getD s.next)) }

/-- Close the file, which gives the lock back. -/
def close (s : Locks π) (p : π) : Locks π :=
  { s with
    file := Function.update s.file p none
    holder := fun i => if s.holder i = some p then none else s.holder i }

@[simp] theorem file_openFile_self (s : Locks π) (p : π) :
    (s.openFile p).file p = some (s.name.getD s.next) := Function.update_self ..

@[simp] theorem file_openFile_of_ne (s : Locks π) (h : q ≠ p) :
    (s.openFile p).file q = s.file q := Function.update_of_ne h ..

@[simp] theorem file_close_self (s : Locks π) (p : π) : (s.close p).file p = none :=
  Function.update_self ..

@[simp] theorem file_close_of_ne (s : Locks π) (h : q ≠ p) : (s.close p).file q = s.file q :=
  Function.update_of_ne h ..

theorem Valid.openFile (h : s.Valid) (hp : s.file p = none) : (s.openFile p).Valid where
  name_lt i hi := by
    cases hi
    exact h.getD_lt
  file_lt q i hi := by
    by_cases hq : q = p
    · subst hq
      rw [file_openFile_self] at hi
      cases hi
      exact h.getD_lt
    · rw [file_openFile_of_ne s hq] at hi
      refine lt_of_lt_of_le (h.file_lt q i hi) ?_
      show s.next ≤ if s.name.isSome then s.next else s.next + 1
      split_ifs
      · exact le_rfl
      · exact Nat.le_succ s.next
  file_of_holder i q hi := by
    have hfile := h.file_of_holder i q hi
    have hq : q ≠ p := by
      rintro rfl
      rw [hp] at hfile
      cases hfile
    rw [file_openFile_of_ne s hq, hfile]

theorem Named.openFile (h : s.Named) (p : π) : (s.openFile p).Named := by
  intro q i hi
  by_cases hq : q = p
  · subst hq
    rw [file_openFile_self] at hi
    exact hi
  · rw [file_openFile_of_ne s hq] at hi
    show some (s.name.getD s.next) = some i
    rw [h q i hi, Option.getD_some]

theorem Valid.close (h : s.Valid) (p : π) : (s.close p).Valid where
  name_lt := h.name_lt
  file_lt q i hi := by
    by_cases hq : q = p
    · subst hq
      rw [file_close_self] at hi
      cases hi
    · rw [file_close_of_ne s hq] at hi
      exact h.file_lt q i hi
  file_of_holder i q hi := by
    unfold Locks.close at hi
    dsimp only at hi
    split_ifs at hi with hp
    have hq : q ≠ p := by
      rintro rfl
      exact hp hi
    rw [file_close_of_ne s hq]
    exact h.file_of_holder i q hi

theorem Named.close (h : s.Named) (p : π) : (s.close p).Named := by
  intro q i hi
  by_cases hq : q = p
  · subst hq
    rw [file_close_self] at hi
    cases hi
  · rw [file_close_of_ne s hq] at hi
    exact h q i hi

theorem holds_openFile_iff (hv : s.Valid) (hp : s.file p = none) :
    (s.openFile p).Holds q ↔ s.Holds q := by
  by_cases hq : q = p
  · subst hq
    refine iff_of_false ?_ (not_holds_of_closed hp)
    -- nobody has had the lock without the file
    rintro ⟨i, -, hi⟩
    have hfile := hv.file_of_holder i q hi
    rw [hp] at hfile
    cases hfile
  · refine exists_congr fun i => and_congr_left fun _ => ?_
    rw [file_openFile_of_ne s hq]

theorem holds_close_iff : (s.close p).Holds q ↔ q ≠ p ∧ s.Holds q := by
  by_cases hq : q = p
  · subst hq
    exact iff_of_false (not_holds_of_closed (file_close_self s q)) fun h => h.1 rfl
  · rw [and_iff_right hq]
    refine exists_congr fun i => ?_
    rw [file_close_of_ne s hq]
    refine and_congr_right fun _ => ?_
    show (if s.holder i = some p then none else s.holder i) = some q ↔ _
    split_ifs with hp
    · rw [hp]
      simp [Ne.symm hq]
    · rfl

end Locks
