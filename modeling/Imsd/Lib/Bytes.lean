import Mathlib.Data.List.TakeWhile
import Mathlib.Tactic

/-!
# Bytes in little-endian order, and memory

* `toLE w n` are the `w` low bytes of `n`, the least significant first; `ofLE` reads such a list.
  `ofLE_toLE` is the round trip.
* `cString` is the string at the start of some bytes, up to its NUL.
* Memory is a function `ℕ → UInt8`.  `Holds m c bs` says that the bytes `bs` lie at address `c`,
  `bytesAt m c n` are the `n` bytes there, and `loadLE m c w` reads `w` of them as a number;
  `bytesAt_of_holds` and `loadLE_of_holds` connect them, and `bytesAt_inside` and `loadLE_inside`
  do for a part of the bytes.  `write m c bs` is the memory after a write; `holds_write` and
  `Holds.write` say what it holds.
-/

namespace Bytes

/-- The `w` low bytes of `n`, least significant first. -/
def toLE : ℕ → ℕ → List UInt8
  | 0, _ => []
  | w + 1, n => UInt8.ofNat n :: toLE w (n / 256)

/-- The number with the given bytes, least significant first. -/
def ofLE (bs : List UInt8) : ℕ := bs.foldr (fun b n => b.toNat + 256 * n) 0

@[simp] theorem ofLE_nil : ofLE [] = 0 := rfl
@[simp] theorem ofLE_cons (b : UInt8) (bs : List UInt8) :
    ofLE (b :: bs) = b.toNat + 256 * ofLE bs := rfl

@[simp] theorem length_toLE (w n : ℕ) : (toLE w n).length = w := by
  induction w generalizing n with
  | zero => rfl
  | succ w ih => simp [toLE, ih]

/-- Reading back what was written gives the number modulo the width. -/
theorem ofLE_toLE (w n : ℕ) : ofLE (toLE w n) = n % 256 ^ w := by
  induction w generalizing n with
  | zero => simp [toLE, Nat.mod_one]
  | succ w ih =>
    rw [toLE, ofLE_cons, ih, UInt8.toNat_ofNat', pow_succ' 256 w, Nat.mod_mul]

theorem ofLE_toLE_of_lt {w n : ℕ} (h : n < 256 ^ w) : ofLE (toLE w n) = n := by
  rw [ofLE_toLE, Nat.mod_eq_of_lt h]

/-- Bytes are those of the number they make up. -/
theorem toLE_ofLE (bs : List UInt8) : toLE bs.length (ofLE bs) = bs := by
  induction bs with
  | nil => rfl
  | cons b bs ih =>
    have hb : b.toNat < 256 := b.toNat_lt
    have hdiv : (b.toNat + 256 * ofLE bs) / 256 = ofLE bs := by omega
    have hmod : UInt8.ofNat (b.toNat + 256 * ofLE bs) = b := by
      apply UInt8.toNat_inj.1
      rw [UInt8.toNat_ofNat']
      omega
    rw [List.length_cons, ofLE_cons, toLE, hdiv, hmod, ih]

theorem ofLE_lt (bs : List UInt8) : ofLE bs < 256 ^ bs.length := by
  induction bs with
  | nil => simp
  | cons b bs ih =>
    have hb : b.toNat < 256 := b.toNat_lt
    rw [ofLE_cons, List.length_cons, pow_succ]
    omega

/-- The string at the start of a buffer. -/
def cString (buf : List UInt8) : List UInt8 := buf.takeWhile (· ≠ 0)

@[simp] theorem cString_nil : cString [] = [] := rfl

theorem cString_cons (b : UInt8) (bs : List UInt8) :
    cString (b :: bs) = if b = 0 then [] else b :: cString bs := by
  unfold cString
  rw [List.takeWhile_cons]
  by_cases h : b = 0 <;> simp [h]

/-- A string ends at its first zero. -/
theorem cString_append_zero {name : List UInt8} (h : ∀ b ∈ name, b ≠ 0) (rest : List UInt8) :
    cString (name ++ 0 :: rest) = name := by
  induction name with
  | nil => simp [cString_cons]
  | cons b name ih =>
    rw [List.cons_append, cString_cons, if_neg (h b List.mem_cons_self),
      ih fun b' hb' => h b' (List.mem_cons_of_mem _ hb')]

/-- Zeros behind a string do not belong to it. -/
theorem cString_append_replicate {text : List UInt8} (h : ∀ b ∈ text, b ≠ 0) (k : ℕ) :
    cString (text ++ List.replicate k 0) = text := by
  cases k with
  | zero =>
    rw [List.replicate_zero, List.append_nil]
    exact List.takeWhile_eq_self_iff.2 fun b hb => decide_eq_true (h b hb)
  | succ k => exact cString_append_zero h _

/-- Nor does anything behind the NUL. -/
theorem cString_append_of_mem {bs : List UInt8} (h : 0 ∈ bs) (rest : List UInt8) :
    cString (bs ++ rest) = cString bs := by
  induction bs with
  | nil => cases h
  | cons b bs ih =>
    rw [List.cons_append, cString_cons, cString_cons]
    split_ifs with hb
    · rfl
    · rw [ih ((List.mem_cons.1 h).resolve_left (Ne.symm hb))]

/-! ### Memory -/

/-- The bytes `bs` lie at address `c` of the memory `m`. -/
def Holds (m : ℕ → UInt8) (c : ℕ) (bs : List UInt8) : Prop :=
  ∀ i (h : i < bs.length), m (c + i) = bs[i]

/-- The little-endian number in the `w` bytes at address `c`. -/
def loadLE (m : ℕ → UInt8) (c w : ℕ) : ℕ := ofLE ((List.range w).map fun i => m (c + i))

variable {m : ℕ → UInt8} {c : ℕ}

theorem holds_append {xs ys : List UInt8} :
    Holds m c (xs ++ ys) ↔ Holds m c xs ∧ Holds m (c + xs.length) ys := by
  constructor
  · intro h
    refine ⟨fun i hi => ?_, fun i hi => ?_⟩
    · have := h i (by simp; omega)
      rwa [List.getElem_append_left hi] at this
    · have := h (xs.length + i) (by simp; omega)
      rw [List.getElem_append_right (by omega)] at this
      rw [Nat.add_assoc, this]
      congr 1
      omega
  · rintro ⟨hx, hy⟩ i hi
    rw [List.length_append] at hi
    by_cases h : i < xs.length
    · rw [List.getElem_append_left h]
      exact hx i h
    · rw [List.getElem_append_right (by omega), ← hy (i - xs.length) (by omega)]
      congr 1
      omega

theorem holds_cons {b : UInt8} {bs : List UInt8} :
    Holds m c (b :: bs) ↔ m c = b ∧ Holds m (c + 1) bs := by
  rw [show b :: bs = [b] ++ bs from rfl, holds_append]
  refine and_congr ⟨fun h => h 0 (by simp), fun h i hi => ?_⟩ Iff.rfl
  obtain rfl : i = 0 := by simpa using hi
  exact h

/-- Reading where bytes lie reads these bytes. -/
theorem loadLE_of_holds {bs : List UInt8} (h : Holds m c bs) : loadLE m c bs.length = ofLE bs := by
  unfold loadLE
  congr 1
  refine List.ext_getElem (by simp) fun i h₁ h₂ => ?_
  simpa using h i h₂

theorem loadLE_toLE {w n : ℕ} (h : Holds m c (toLE w n)) : loadLE m c w = n % 256 ^ w := by
  have := loadLE_of_holds h
  rwa [length_toLE, ofLE_toLE] at this

theorem loadLE_lt (m : ℕ → UInt8) (c w : ℕ) : loadLE m c w < 256 ^ w := by
  have := ofLE_lt ((List.range w).map fun i => m (c + i))
  simpa [loadLE] using this

/-- The `n` bytes at address `c`. -/
def bytesAt (m : ℕ → UInt8) (c n : ℕ) : List UInt8 := (List.range n).map fun i => m (c + i)

@[simp] theorem length_bytesAt (m : ℕ → UInt8) (c n : ℕ) : (bytesAt m c n).length = n := by
  simp [bytesAt]

theorem holds_bytesAt (m : ℕ → UInt8) (c n : ℕ) : Holds m c (bytesAt m c n) := by
  intro i hi
  simp [bytesAt]

theorem bytesAt_of_holds {bs : List UInt8} (h : Holds m c bs) : bytesAt m c bs.length = bs := by
  refine List.ext_getElem (by simp) fun i h₁ h₂ => ?_
  simpa [bytesAt] using h i h₂

/-- What lies inside of some bytes lies at its distance from their start. -/
theorem Holds.drop_take {bs : List UInt8} (h : Holds m c bs) (a n : ℕ) :
    Holds m (c + a) ((bs.drop a).take n) := by
  intro i hi
  rw [List.length_take, List.length_drop] at hi
  rw [List.getElem_take, List.getElem_drop, Nat.add_assoc]
  exact h (a + i) (by omega)

/-- Reading inside of some bytes. -/
theorem bytesAt_inside {bs : List UInt8} (h : Holds m c bs) {a n : ℕ} (hle : a + n ≤ bs.length) :
    bytesAt m (c + a) n = (bs.drop a).take n := by
  have hlen : ((bs.drop a).take n).length = n := by
    rw [List.length_take, List.length_drop]
    omega
  have hbytes := bytesAt_of_holds (h.drop_take a n)
  rwa [hlen] at hbytes

theorem loadLE_inside {bs : List UInt8} (h : Holds m c bs) {a w : ℕ} (hle : a + w ≤ bs.length) :
    loadLE m (c + a) w = ofLE ((bs.drop a).take w) :=
  congrArg ofLE (bytesAt_inside h hle)

/-- Memory that starts with the bytes `bs`, and holds `rest` after them. -/
def memory (bs : List UInt8) (rest : ℕ → UInt8) : ℕ → UInt8 := fun i => (bs[i]?).getD (rest i)

theorem holds_memory (bs : List UInt8) (rest : ℕ → UInt8) : Holds (memory bs rest) 0 bs := by
  intro i hi
  simp [memory, List.getElem?_eq_getElem hi]

/-- The memory after the bytes `bs` have been written at address `c`. -/
def write (m : ℕ → UInt8) (c : ℕ) (bs : List UInt8) : ℕ → UInt8 :=
  fun i => if c ≤ i then (bs[i - c]?).getD (m i) else m i

theorem write_of_lt {bs : List UInt8} {i : ℕ} (h : i < c) : write m c bs i = m i := by
  rw [write, if_neg (by omega)]

theorem write_of_le {bs : List UInt8} {i : ℕ} (h : c + bs.length ≤ i) : write m c bs i = m i := by
  rw [write, if_pos (by omega), List.getElem?_eq_none (by omega), Option.getD_none]

theorem holds_write (m : ℕ → UInt8) (c : ℕ) (bs : List UInt8) : Holds (write m c bs) c bs := by
  intro i hi
  rw [write, if_pos (by omega), Nat.add_sub_cancel_left, List.getElem?_eq_getElem hi,
    Option.getD_some]

/-- What lies before a write stays there. -/
theorem Holds.write {a : ℕ} {bs bs' : List UInt8} (h : Holds m a bs') (hc : a + bs'.length ≤ c) :
    Holds (write m c bs) a bs' := by
  intro i hi
  rw [write_of_lt (by omega)]
  exact h i hi

end Bytes
