import Imsd.QmiProgress

/-!
# Do the TLV walkers stay in their buffer?

A walker compares its cursor with `len` and then reads a TLV header under it, and
`did_qmi_op_fail` a result of four bytes behind that.  Nothing checks that these bytes lie before
`len`, too.  `WholeTlvs`: each TLV that the walk comes to has the bytes that are read there.

`mem_log_tlvPass` says what one pass reads, and `readsInside_tlvWalk_iff` when a walk stays in its
buffer; `walkers_read_inside_iff` applies it to the three walkers.
-/

namespace Imsd

open Bytes WhileLoop

/-- The walker reads no byte at `len` or behind, however long it runs. -/
def ReadsInside (len : ℕ) (walker : ℕ → Traced ℕ ℕ) : Prop := ∀ n, ∀ i ∈ (walker n).log, i < len

/-- Every TLV that the walk comes to has its header and `width` bytes of its value in the
buffer. -/
def WholeTlvs (m : ℕ → UInt8) (len : ℕ) (stop : ℕ → Prop) (width : ℕ → ℕ) : Prop :=
  sizeofQmiPacket + 4 ≤ len → ∀ p, OnChain m len stop p → p < len → p + 3 + width p ≤ len

/-- A result TLV with a value of four bytes. -/
def ResultTlv (m : ℕ → UInt8) (p : ℕ) : Prop := m p = 0x02 ∧ loadLE m (p + 1) 2 = 4

instance (m : ℕ → UInt8) : DecidablePred (ResultTlv m) := fun _ =>
  inferInstanceAs (Decidable (_ ∧ _))

/-- The bytes of a value that `did_qmi_op_fail` reads. -/
def resultWidth (m : ℕ → UInt8) (p : ℕ) : ℕ := if ResultTlv m p then 4 else 0

section Generic

variable {m : ℕ → UInt8} {len : ℕ} {found : ℕ → Traced ℕ (Option ℕ)} {overrun finish : ℕ → ℕ}
  {ret : ℕ → Option ℕ} {w : Walk} {i : ℕ}

/-- What a pass over the TLV at `c` reads: what the test for the TLV does, and the length if it
goes on. -/
def passReads (found : ℕ → Traced ℕ (Option ℕ)) (ret : ℕ → Option ℕ) (c : ℕ) : Set ℕ :=
  {i | i ∈ (found c).log ∨ ret c = none ∧ c + 1 ≤ i ∧ i < c + 3}

theorem mem_log_tlvPass (hret : ∀ c, (found c).res = some (ret c)) :
    i ∈ (tlvPass m len found overrun finish w).log ↔
      w.curByte < len ∧ i ∈ passReads found ret w.curByte := by
  unfold tlvPass passReads
  by_cases hc : w.curByte < len
  · rw [if_pos hc, Traced.bind_of_some (hret w.curByte)]
    cases hr : ret w.curByte with
    | some r => simp [hc]
    | none =>
      dsimp only
      rw [Traced.bind_of_some (res_load m (w.curByte + 1) 2)]
      have hlog : ∀ b : Walk ⊕ ℕ, (pure b : Traced ℕ (Walk ⊕ ℕ)).log = [] := fun _ => rfl
      simp only [hc, true_and, apply_ite Traced.log, hlog, ite_self, List.append_nil,
        List.mem_append, mem_log_load, Set.mem_ofPred_eq]
  · simp [hc]

/-- **When a walk stays in its buffer.** -/
theorem readsInside_tlvWalk_iff (hret : ∀ c, (found c).res = some (ret c)) {width : ℕ → ℕ}
    (hwidth : ∀ c, IsGreatest (passReads found ret c) (c + 2 + width c)) (short : ℕ) :
    ReadsInside len (fun n => tlvWalk n len short (tlvPass m len found overrun finish)) ↔
      WholeTlvs m len (fun c => ret c ≠ none) width := by
  by_cases hlen : len < sizeofQmiPacket + 4
  · refine iff_of_true (fun n i hi => ?_) fun hle => absurd hle (by omega)
    simp [tlvWalk, hlen] at hi
  · simp only [ReadsInside, tlvWalk, if_neg hlen]
    constructor
    · intro h _ p hp hlt
      -- the last byte that a pass at a visited cursor reads
      obtain ⟨k, hk⟩ : ∃ k, Visits (tlvPass m len found overrun finish) Walk.start ⟨p, k⟩ :=
        (visits_iff_onChain hret p).2 hp
      obtain ⟨n, hn⟩ :=
        exists_mem_log_of_visits hk ((mem_log_tlvPass hret).2 ⟨hlt, (hwidth p).1⟩)
      have := h n _ hn
      omega
    · intro h n i hi
      obtain ⟨w, hw, hi⟩ := exists_visits_of_mem_log hi
      obtain ⟨hlt, hi⟩ := (mem_log_tlvPass hret).1 hi
      have hp := (visits_iff_onChain hret w.curByte).1 ⟨w.numTlvs, hw⟩
      have hle := (hwidth w.curByte).2 hi
      have := h (by omega) w.curByte hp hlt
      omega

end Generic

section Tests

variable {m : ℕ → UInt8} {tlvid : UInt8} {c i : ℕ}

theorem loadLE_one (m : ℕ → UInt8) (c : ℕ) : loadLE m c 1 = (m c).toNat := by simp [loadLE]

theorem mem_log_foundById :
    i ∈ (foundById m tlvid c).log ↔ i = c ∨ m c = tlvid ∧ c + 1 ≤ i ∧ i < c + 3 := by
  rw [foundById, Traced.mem_log_bind]
  simp only [mem_log_load, res_load, Option.some.injEq, exists_eq_left', loadLE_one,
    UInt8.toNat_inj]
  by_cases ht : m c = tlvid
  · simp only [ht, if_true, true_and, Traced.mem_log_bind, mem_log_load, res_load,
      Option.some.injEq, exists_eq_left', Traced.log_pure, List.not_mem_nil, or_false]
    omega
  · simp only [ht, if_false, false_and, or_false, Traced.log_pure, List.not_mem_nil]
    omega

/-- A pass of `get_tlv_offset_by_id` reads a header. -/
theorem isGreatest_foundById :
    IsGreatest (passReads (foundById m tlvid) (fun c => if m c = tlvid then some c else none) c)
      (c + 2 + 0) := by
  simp only [passReads, mem_log_foundById]
  constructor
  · by_cases ht : m c = tlvid
    · exact Or.inl (Or.inr ⟨ht, by omega, by omega⟩)
    · exact Or.inr ⟨if_neg ht, by omega, by omega⟩
  · rintro i ((rfl | ⟨-, -, hi⟩) | ⟨-, -, hi⟩) <;> omega

theorem mem_log_foundResult :
    i ∈ (foundResult m c).log ↔
      i = c ∨ m c = 0x02 ∧ c + 1 ≤ i ∧ i < c + 3 ∨ ResultTlv m c ∧ c + 3 ≤ i ∧ i < c + 7 := by
  have h2 : (m c).toNat = 2 ↔ m c = 0x02 := by rw [← UInt8.toNat_inj]; rfl
  rw [foundResult, Traced.mem_log_bind, ResultTlv]
  simp only [mem_log_load, res_load, Option.some.injEq, exists_eq_left', loadLE_one, h2]
  by_cases ht : m c = 0x02
  · simp only [ht, if_true, true_and, Traced.mem_log_bind, mem_log_load, res_load,
      Option.some.injEq, exists_eq_left']
    by_cases hs : loadLE m (c + 1) 2 = 4
    · simp only [hs, if_true, Traced.mem_log_bind, mem_log_load, res_load, Option.some.injEq,
        exists_eq_left', Traced.log_pure, List.not_mem_nil, or_false, true_and]
      omega
    · simp only [hs, if_false, Traced.log_pure, List.not_mem_nil, or_false, false_and]
      omega
  · simp only [ht, if_false, false_and, or_false, Traced.log_pure, List.not_mem_nil]
    omega

/-- A pass of `did_qmi_op_fail` reads a header, and the result and the response that it returns
at. -/
theorem isGreatest_foundResult :
    IsGreatest (passReads (foundResult m) (fun c =>
        if m c = 0x02 ∧ loadLE m (c + 1) 2 = 4 then some (loadLE m (c + 3) 2) else none) c)
      (c + 2 + resultWidth m c) := by
  simp only [passReads, mem_log_foundResult, resultWidth]
  by_cases hr : ResultTlv m c
  · rw [if_pos hr]
    constructor
    · exact Or.inl (Or.inr (Or.inr ⟨hr, by omega, by omega⟩))
    · rintro i ((rfl | ⟨-, -, hi⟩ | ⟨-, -, hi⟩) | ⟨-, -, hi⟩) <;> omega
  · rw [if_neg hr]
    constructor
    · exact Or.inr ⟨if_neg hr, by omega, by omega⟩
    · rintro i ((rfl | ⟨-, -, hi⟩ | ⟨h, -⟩) | ⟨-, -, hi⟩)
      · omega
      · omega
      · exact absurd h hr
      · omega

/-- A pass of `count_tlvs_in_message` reads a length. -/
theorem isGreatest_count :
    IsGreatest (passReads (fun _ => pure none) (fun _ => none) c) (c + 2 + 0) := by
  constructor
  · exact Or.inr ⟨rfl, by omega, by omega⟩
  · rintro i (hi | ⟨-, -, hi⟩)
    · exact absurd hi List.not_mem_nil
    · omega

end Tests

/-- **The walkers stay in their buffer exactly when no TLV header that they come to is cut, and no
four-byte result TLV either.** -/
theorem walkers_read_inside_iff (m : ℕ → UInt8) (len : ℕ) (tlvid : UInt8) :
    (ReadsInside len (fun n => getTlvOffsetById n m len tlvid) ↔
      WholeTlvs m len (fun p => m p = tlvid) fun _ => 0) ∧
    (ReadsInside len (fun n => didQmiOpFail n m len) ↔
      WholeTlvs m len (ResultTlv m) (resultWidth m)) ∧
    (ReadsInside len (fun n => countTlvsInMessage n m len) ↔
      WholeTlvs m len (fun _ => False) fun _ => 0) := by
  refine ⟨?_, ?_, ?_⟩
  · rw [← stop_foundById m tlvid]
    exact readsInside_tlvWalk_iff (res_foundById m tlvid) (fun _ => isGreatest_foundById) 0
  · rw [show ResultTlv m = _ from (stop_foundResult m).symm]
    exact readsInside_tlvWalk_iff (res_foundResult m) (fun _ => isGreatest_foundResult)
      qmiResultFailure
  · have hret : ∀ c : ℕ, (pure none : Traced ℕ (Option ℕ)).res = some ((fun _ => none) c) :=
      fun _ => rfl
    have h : ReadsInside len (fun n => countTlvsInMessage n m len) ↔ _ :=
      readsInside_tlvWalk_iff hret (fun _ => isGreatest_count) 0
    simpa using h

/-- A TLV of one byte, and the first byte of the next one. -/
def cutHeader : ℕ → UInt8 :=
  memory [0x00, 0x01, 0x00, 0x20, 0x00, 0x05, 0x00, 0x01, 0x01, 0x00, 0xFF, 0x12] fun _ => 0

/-- The walkers read a length behind its end. -/
theorem cutHeader_not_read_inside :
    ¬ ReadsInside 12 (fun n => getTlvOffsetById n cutHeader 12 0x12) ∧
    ¬ ReadsInside 12 (fun n => didQmiOpFail n cutHeader 12) ∧
    ¬ ReadsInside 12 (fun n => countTlvsInMessage n cutHeader 12) := by
  have h : ¬ 13 < 12 := by decide
  exact ⟨fun hall => h (hall 2 13 (by decide)), fun hall => h (hall 2 13 (by decide)),
    fun hall => h (hall 2 13 (by decide))⟩

end Imsd
