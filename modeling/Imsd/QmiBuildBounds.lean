import Imsd.QmiBuild

/-!
# Builders and the end of their buffer

A builder is given a buffer of `outputLen` bytes and is to write a packed structure into it, or to
refuse and leave it alone (`Builds`).  All of them are `checked` stores: they differ in what they
check first.  `builds_checked_iff`: a checked store does its job exactly when it refuses what does
not fit, and nothing else.

The check of both TLV builders is made for the four bytes of the one-byte TLV, and `offset` plus
four is computed in a `size_t`; `builders_build_iff` says for which arguments that goes well.
-/

namespace Imsd

open Bytes

/-- The builder writes the bytes at `offset` and no others if they end within the buffer, and else
leaves it alone; its value tells which. -/
structure Builds (outputLen offset : ℕ) (bs : List UInt8) (build : BuildM ℤ)
    (output : ℕ → UInt8) : Prop where
  returns_zero : (build output).2.res = some 0 ↔ offset + bs.length ≤ outputLen
  builds : offset + bs.length ≤ outputLen →
    Holds (build output).1 offset bs ∧
      ∀ i, i < offset ∨ offset + bs.length ≤ i → (build output).1 i = output i
  refuses : outputLen < offset + bs.length →
    (build output).2.res = some (-enomem) ∧ (build output).1 = output
  inside : ∀ i ∈ (build output).2.log, offset ≤ i ∧ i < offset + bs.length ∧ i < outputLen

/-- What every builder does, after its own check. -/
def checked (refuse : Prop) [Decidable refuse] (offset : ℕ) (bs : List UInt8) : BuildM ℤ :=
  if refuse then pure (-enomem)
  else do
    store offset bs
    pure 0

section Checked

variable {refuse : Prop} [Decidable refuse] {offset : ℕ} {bs : List UInt8} {output : ℕ → UInt8}

theorem checked_of_refuse (h : refuse) :
    checked refuse offset bs output = (output, pure (-enomem)) := by
  rw [checked, if_pos h]
  rfl

theorem checked_of_not_refuse (h : ¬ refuse) :
    (checked refuse offset bs output).1 = write output offset bs ∧
    (checked refuse offset bs output).2.res = some 0 ∧
    ∀ i, i ∈ (checked refuse offset bs output).2.log ↔ offset ≤ i ∧ i < offset + bs.length := by
  rw [checked, if_neg h]
  refine ⟨rfl, rfl, fun i => ?_⟩
  have hlog : ((store offset bs >>= fun _ => pure 0 : BuildM ℤ) output).2.log =
      (List.range bs.length).map (offset + ·) ++ [] ++ [] := rfl
  rw [hlog, List.append_nil, List.append_nil, List.mem_map]
  constructor
  · rintro ⟨k, hk, rfl⟩
    have := List.mem_range.1 hk
    omega
  · rintro ⟨hle, hlt⟩
    exact ⟨i - offset, List.mem_range.2 (by omega), by omega⟩

/-- **A checked store does its job when its check refuses what does not fit.** -/
theorem builds_checked_iff {outputLen : ℕ} :
    Builds outputLen offset bs (checked refuse offset bs) output ↔
      (refuse ↔ outputLen < offset + bs.length) := by
  have hne : (some (-enomem) : Option ℤ) ≠ some 0 := by decide
  by_cases hr : refuse
  · have heq := @checked_of_refuse refuse _ offset bs output hr
    constructor
    · intro h
      have hz := h.returns_zero
      rw [heq] at hz
      exact iff_of_true hr (not_le.1 fun hle => hne (hz.2 hle))
    · intro h
      have hlt := h.1 hr
      refine ⟨?_, fun hle => absurd hle (by omega), fun _ => ?_, fun i hi => ?_⟩
      · rw [heq]
        exact iff_of_false hne (by omega)
      · rw [heq]
        exact ⟨rfl, rfl⟩
      · rw [heq] at hi
        exact absurd hi List.not_mem_nil
  · obtain ⟨hs, hres, hlog⟩ := @checked_of_not_refuse refuse _ offset bs output hr
    constructor
    · intro h
      exact iff_of_false hr (not_lt.2 (h.returns_zero.1 hres))
    · intro h
      have hle : offset + bs.length ≤ outputLen := not_lt.1 (mt h.2 hr)
      refine ⟨iff_of_true hres hle, fun _ => ?_, fun hlt => absurd hle (by omega), fun i hi => ?_⟩
      · rw [hs]
        exact ⟨holds_write output offset bs, fun i hi => hi.elim write_of_lt write_of_le⟩
      · have := (hlog i).1 hi
        omega

end Checked

theorem length_encode_uint8 (id data : UInt8) :
    (qmiGenericUint8TTlv id data).encode.length = 4 := by
  simp [qmiGenericUint8TTlv, Tlv.size]

theorem length_encode_uint32 (id : UInt8) (data : UInt32) :
    (qmiGenericUint32TTlv id data).encode.length = 7 := by
  simp [qmiGenericUint32TTlv, Tlv.size]

/-- `offset` plus four does not wrap, or wraps to more than the buffer has. -/
def RoomForUint8 (outputLen offset : ℕ) : Prop :=
  offset + sizeofQmiGenericUint8TTlv < sizeT ∨
    outputLen < (offset + sizeofQmiGenericUint8TTlv) % sizeT

/-- The buffer does not end in the last three bytes of the four-byte TLV. -/
def NotCutShort (outputLen offset : ℕ) : Prop :=
  ¬ (offset + sizeofQmiGenericUint8TTlv ≤ outputLen ∧ outputLen < offset + 7)

/-- **Which builders keep to their buffer**: that of the header always does, that of the one-byte
TLV does unless the offset wraps past the check, and that of the four-byte TLV unless the offset
does or the buffer ends in the last three bytes of the TLV. -/
theorem builders_build_iff (output : ℕ → UInt8) (outputLen offset : UInt64) (messageType : UInt8)
    (transactionId messageId : UInt16) (id data : UInt8) (data' : UInt32) :
    Builds outputLen.toNat 0 (QmiPacket.encode ⟨messageType, transactionId, messageId,
        UInt16.ofNat (outputLen.toNat - sizeofQmiPacket)⟩)
      (buildQmiHeader outputLen.toNat messageType transactionId messageId) output ∧
    (Builds outputLen.toNat offset.toNat (qmiGenericUint8TTlv id data).encode
        (buildU8Tlv outputLen.toNat offset.toNat id data) output ↔
      RoomForUint8 outputLen.toNat offset.toNat) ∧
    (Builds outputLen.toNat offset.toNat (qmiGenericUint32TTlv id data').encode
        (buildU32Tlv outputLen.toNat offset.toNat id data') output ↔
      RoomForUint8 outputLen.toNat offset.toNat ∧ NotCutShort outputLen.toNat offset.toNat) := by
  have hlen : outputLen.toNat < 2 ^ 64 := outputLen.toNat_lt
  have hoffset : offset.toNat < 2 ^ 64 := offset.toNat_lt
  refine ⟨?_, ?_, ?_⟩
  · refine builds_checked_iff.2 ?_
    rw [QmiPacket.length_encode, Nat.zero_add]
  · refine builds_checked_iff.trans ?_
    simp only [length_encode_uint8, RoomForUint8, sizeofQmiGenericUint8TTlv, sizeT]
    omega
  · refine builds_checked_iff.trans ?_
    simp only [length_encode_uint32, RoomForUint8, NotCutShort, sizeofQmiGenericUint8TTlv, sizeT]
    omega

/-- A four-byte TLV at offset `7` of a buffer of `11` bytes, of which it takes `14`. -/
theorem not_builds_cut_short :
    ¬ Builds 11 7 (qmiGenericUint32TTlv 0x11 1).encode (buildU32Tlv 11 7 0x11 1) fun _ => 0 := by
  intro h
  have hinside := h.inside 13
  rw [length_encode_uint32] at hinside
  have hmem : 13 ∈ (buildU32Tlv 11 7 0x11 1 fun _ => 0).2.log := by decide
  have := hinside hmem
  omega

end Imsd
