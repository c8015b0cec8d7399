import Imsd.Lib.Bytes

/-!
# Type-length-value lists

A TLV is an id byte, a two-byte little-endian length and that many bytes.  `encodeAll` writes a
list of them, `decodeAll` is the reference decoder, and `decodeAll_encodeAll` the round trip;
`decodeAll_eq_some_iff` says that the decoder takes nothing else.
`first id ts` is the value of the first TLV with an id, and `firstOffset id c ts` the position of
its header when the list is laid out from position `c` on; `first_eq_some` says that the value
does lie three bytes after that position, and `first_perm` that the order does not matter when no
id comes twice.
-/

/-- One TLV; the length field has 16 bits. -/
structure Tlv where
  id : UInt8
  value : List UInt8
  length_lt : value.length < 65536
  deriving DecidableEq

namespace Tlv

open Bytes

/-- The bytes of a TLV. -/
def encode (t : Tlv) : List UInt8 := t.id :: (toLE 2 t.value.length ++ t.value)

/-- The number of bytes of a TLV. -/
def size (t : Tlv) : ℕ := t.value.length + 3

/-- The bytes of a list of TLVs. -/
def encodeAll (ts : List Tlv) : List UInt8 := ts.flatMap encode

@[simp] theorem length_encode (t : Tlv) : t.encode.length = t.size := by
  simp [encode, size]; omega

@[simp] theorem encodeAll_nil : encodeAll [] = [] := rfl
@[simp] theorem encodeAll_cons (t : Tlv) (ts : List Tlv) :
    encodeAll (t :: ts) = t.encode ++ encodeAll ts := rfl

theorem size_pos (t : Tlv) : 3 ≤ t.size := by simp [size]

theorem length_le_encodeAll (ts : List Tlv) : 3 * ts.length ≤ (encodeAll ts).length := by
  induction ts with
  | nil => simp
  | cons t ts ih =>
    have := t.size_pos
    simp only [encodeAll_cons, List.length_append, List.length_cons, length_encode]
    omega

/-! ### Decoding -/

/-- The reference decoder, for at most `n` TLVs: the list must be used up exactly. -/
def decodeFuel : ℕ → List UInt8 → Option (List Tlv)
  | _, [] => some []
  | n + 1, id :: l₀ :: l₁ :: rest =>
      if ofLE [l₀, l₁] ≤ rest.length then
        (decodeFuel n (rest.drop (ofLE [l₀, l₁]))).map
          (⟨id, rest.take (ofLE [l₀, l₁]),
            lt_of_le_of_lt (List.length_take_le _ _) (by simpa using ofLE_lt [l₀, l₁])⟩ :: ·)
      else none
  | _, _ => none

/-- The reference decoder. -/
def decodeAll (bs : List UInt8) : Option (List Tlv) := decodeFuel bs.length bs

theorem decodeFuel_encodeAll (ts : List Tlv) :
    ∀ n, ts.length ≤ n → decodeFuel n (encodeAll ts) = some ts := by
  induction ts with
  | nil => intro n _; cases n <;> rfl
  | cons t ts ih =>
    intro n hn
    obtain ⟨k, rfl⟩ : ∃ k, n = k + 1 := ⟨n - 1, by simp at hn; omega⟩
    obtain ⟨id, value, hv⟩ := t
    have hlen : ofLE (toLE 2 value.length) = value.length := by
      rw [ofLE_toLE]; exact Nat.mod_eq_of_lt hv
    have htoLE : toLE 2 value.length =
        [UInt8.ofNat value.length, UInt8.ofNat (value.length / 256)] := rfl
    rw [htoLE] at hlen
    simp only [encodeAll_cons, encode, htoLE, List.cons_append, List.nil_append, decodeFuel, hlen]
    rw [if_pos (by simp)]
    simp only [List.drop_left, List.take_left, ih k (by simpa using hn), Option.map_some]

/-- **The decoder gives back what was encoded.** -/
theorem decodeAll_encodeAll (ts : List Tlv) : decodeAll (encodeAll ts) = some ts :=
  decodeFuel_encodeAll ts _ (by have := length_le_encodeAll ts; omega)

theorem encodeAll_of_decodeFuel : ∀ (n : ℕ) {bs : List UInt8} {ts : List Tlv},
    decodeFuel n bs = some ts → bs = encodeAll ts := by
  intro n
  induction n with
  | zero =>
    intro bs ts h
    cases bs with
    | nil => cases h; rfl
    | cons b bs => simp [decodeFuel] at h
  | succ n ih =>
    intro bs ts h
    match bs with
    | [] => cases h; rfl
    | [_] => simp [decodeFuel] at h
    | [_, _] => simp [decodeFuel] at h
    | id :: l₀ :: l₁ :: rest =>
      rw [decodeFuel] at h
      split_ifs at h with hle
      obtain ⟨ts', hts', rfl⟩ := Option.map_eq_some_iff.1 h
      -- the two length bytes are those of the number they make up
      have hl : toLE 2 (ofLE [l₀, l₁]) = [l₀, l₁] := toLE_ofLE [l₀, l₁]
      rw [encodeAll_cons, encode, List.length_take, Nat.min_eq_left hle, hl, ← ih hts']
      simp only [List.cons_append, List.nil_append, List.take_append_drop]

/-- **The decoder takes nothing but encodings.** -/
theorem decodeAll_eq_some_iff {bs : List UInt8} {ts : List Tlv} :
    decodeAll bs = some ts ↔ bs = encodeAll ts := by
  constructor
  · exact encodeAll_of_decodeFuel _
  · rintro rfl
    exact decodeAll_encodeAll ts

/-! ### Looking up an id -/

/-- The value of the first TLV with the id. -/
def first (id : UInt8) (ts : List Tlv) : Option (List UInt8) :=
  (ts.find? fun t => t.id = id).map Tlv.value

/-- The position of the first TLV with the id, in a list laid out from position `c` on. -/
def firstOffset (id : UInt8) (c : ℕ) : List Tlv → Option ℕ
  | [] => none
  | t :: ts => if t.id = id then some c else firstOffset id (c + t.size) ts

theorem first_cons (id : UInt8) (t : Tlv) (ts : List Tlv) :
    first id (t :: ts) = if t.id = id then some t.value else first id ts := by
  unfold first
  split_ifs with h <;> simp [h]

theorem exists_of_first {id : UInt8} {ts : List Tlv} {v : List UInt8} (h : first id ts = some v) :
    ∃ t ∈ ts, t.id = id ∧ t.value = v := by
  obtain ⟨t, ht, rfl⟩ := Option.map_eq_some_iff.1 h
  exact ⟨t, List.mem_of_find?_eq_some ht, by simpa using List.find?_some ht, rfl⟩

/-- With distinct ids, the first TLV with an id is the only one. -/
theorem first_eq_some_iff_of_nodup {id : UInt8} {ts : List Tlv} (h : (ts.map Tlv.id).Nodup)
    (v : List UInt8) : first id ts = some v ↔ ∃ t ∈ ts, t.id = id ∧ t.value = v := by
  induction ts with
  | nil => simp [first]
  | cons t ts ih =>
    rw [List.map_cons, List.nodup_cons] at h
    rw [first_cons]
    by_cases ht : t.id = id
    · have hrest : ∀ x ∈ ts, x.id ≠ id := by
        intro x hx he
        exact h.1 (List.mem_map.2 ⟨x, hx, he.trans ht.symm⟩)
      rw [if_pos ht, Option.some_inj]
      constructor
      · intro hv
        exact ⟨t, List.mem_cons_self, ht, hv⟩
      · rintro ⟨x, hx, he, hv⟩
        rcases List.mem_cons.1 hx with rfl | hx
        · exact hv
        · exact absurd he (hrest x hx)
    · rw [if_neg ht, ih h.2]
      simp [ht]

/-- **Looking up an id does not depend on the order**, when the ids are distinct. -/
theorem first_perm {ts ts' : List Tlv} (hp : ts'.Perm ts) (h : (ts.map Tlv.id).Nodup)
    (id : UInt8) : first id ts' = first id ts := by
  have h' : (ts'.map Tlv.id).Nodup := (hp.map Tlv.id).nodup_iff.2 h
  apply Option.ext
  intro v
  rw [first_eq_some_iff_of_nodup h', first_eq_some_iff_of_nodup h]
  simp only [hp.mem_iff]

theorem firstOffset_ge {id : UInt8} {c p : ℕ} {ts : List Tlv} (h : firstOffset id c ts = some p) :
    c ≤ p := by
  induction ts generalizing c with
  | nil => simp [firstOffset] at h
  | cons t ts ih =>
    simp only [firstOffset] at h
    split_ifs at h
    · cases h; exact le_rfl
    · have := ih h
      omega

theorem firstOffset_isSome (id : UInt8) (c : ℕ) (ts : List Tlv) :
    (firstOffset id c ts).isSome = (first id ts).isSome := by
  induction ts generalizing c with
  | nil => rfl
  | cons t ts ih =>
    rw [first_cons, firstOffset]
    split_ifs
    · rfl
    · exact ih _

/-- An id is missing, or has a first value and a first position. -/
theorem first_cases (id : UInt8) (c : ℕ) (ts : List Tlv) :
    (first id ts = none ∧ firstOffset id c ts = none) ∨
      ∃ v p, first id ts = some v ∧ firstOffset id c ts = some p ∧ c ≤ p := by
  have h := firstOffset_isSome id c ts
  cases hv : first id ts with
  | none => exact Or.inl ⟨rfl, by rwa [hv, Option.isSome_none, Option.isSome_eq_false_iff,
      Option.isNone_iff_eq_none] at h⟩
  | some v =>
    rw [hv, Option.isSome_some] at h
    obtain ⟨p, hp⟩ := Option.isSome_iff_exists.1 h
    exact Or.inr ⟨v, p, rfl, hp, firstOffset_ge hp⟩

/-- The value found lies three bytes after the position found, inside the list. -/
theorem first_eq_some {id : UInt8} {c p : ℕ} {ts : List Tlv} {v : List UInt8} {m : ℕ → UInt8}
    (hm : Holds m c (encodeAll ts)) (hv : first id ts = some v)
    (hp : firstOffset id c ts = some p) :
    Holds m (p + 3) v ∧ p + 3 + v.length ≤ c + (encodeAll ts).length := by
  induction ts generalizing c with
  | nil => simp [firstOffset] at hp
  | cons t ts ih =>
    rw [first_cons] at hv
    rw [firstOffset] at hp
    rw [encodeAll_cons, holds_append, length_encode] at hm
    rw [encodeAll_cons, List.length_append, length_encode]
    split_ifs at hv hp
    · cases hv
      cases hp
      refine ⟨?_, by simp [size]; omega⟩
      have := hm.1
      rw [encode, holds_cons, holds_append] at this
      simpa [Nat.add_assoc] using this.2.2
    · obtain ⟨h, hle⟩ := ih hm.2 hv hp
      exact ⟨h, by omega⟩

end Tlv
