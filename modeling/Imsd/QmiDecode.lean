import Imsd.QmiMessage

/-!
# The walkers and the reference decoder

`MessageAt m len ts` says that the `len` bytes at address `0` are a header, whatever it says, and
the TLVs `ts`, and that the message is neither too small for the walkers nor too long for their
16-bit cursor.  On such memory each walker is a function of `ts` (`tlvWalk`, and one theorem for
each of the three), and `walkers_agree_with_decodeAll` puts them together for the list that the
reference decoder reads out of the bytes.
-/

namespace Imsd

open Bytes Tlv

/-- A header and the TLVs `ts`, filling the `len` bytes of a message. -/
structure MessageAt (m : ℕ → UInt8) (len : ℕ) (ts : List Tlv) : Prop where
  holds : Holds m sizeofQmiPacket (encodeAll ts)
  length_eq : sizeofQmiPacket + (encodeAll ts).length = len
  ge : sizeofQmiPacket + 4 ≤ len
  lt : len < 65536

/-- The TLVs in the bytes behind the header, by the reference decoder. -/
def messageTlvs (m : ℕ → UInt8) (len : ℕ) : Option (List Tlv) :=
  decodeAll (bytesAt m sizeofQmiPacket (len - sizeofQmiPacket))

/-- The result field of the first TLV `0x02` of four bytes. -/
def firstResult (ts : List Tlv) : Option ℕ :=
  (ts.find? fun t => t.id = 0x02 ∧ t.value.length = 4).map fun t => ofLE (t.value.take 2)

theorem messageAt_of_messageTlvs {m : ℕ → UInt8} {len : ℕ} {ts : List Tlv}
    (hts : messageTlvs m len = some ts) (hmin : 11 ≤ len) (hmax : len ≤ 65535) :
    MessageAt m len ts := by
  have hs : sizeofQmiPacket = 7 := rfl
  have hbytes := decodeAll_eq_some_iff.1 hts
  refine ⟨hbytes ▸ holds_bytesAt _ _ _, ?_, by omega, by omega⟩
  rw [← hbytes, length_bytesAt]
  omega

theorem QmiMessage.messageAt {q : QmiMessage} {m : ℕ → UInt8} {len : ℕ} (hm : Holds m 0 q.encode)
    (hlen : len = q.encode.length) (hmin : sizeofQmiPacket + 4 ≤ len) (hmax : len < 65536) :
    MessageAt m len q.tlvs :=
  ⟨holds_tlvs hm, by rw [hlen, q.length_encode], hmin, hmax⟩

theorem loadLE_take {m : ℕ → UInt8} {c w : ℕ} {v : List UInt8} (h : Holds m c v)
    (hw : w ≤ v.length) : loadLE m c w = ofLE (v.take w) := by
  rw [← List.take_append_drop w v, holds_append] at h
  have := loadLE_of_holds h.1
  rwa [List.length_take, Nat.min_eq_left hw] at this

/-- `count_tlvs_in_message` counts. -/
theorem walkValue_count {ρ : Type} (finish : ℕ → ρ) (c k : ℕ) (ts : List Tlv) :
    walkValue (fun _ => none) finish c k ts = finish (k + ts.length) := by
  induction ts generalizing c k with
  | nil => rfl
  | cons t ts ih =>
    rw [walkValue, Option.getD_none, ih, List.length_cons]
    congr 1
    omega

/-- `did_qmi_op_fail` finds the first result. -/
theorem walkValue_result {m : ℕ → UInt8} (ts : List Tlv) : ∀ {c k : ℕ}, Holds m c (encodeAll ts) →
    walkValue (fun c => if m c = 0x02 ∧ loadLE m (c + 1) 2 = 4 then some (loadLE m (c + 3) 2)
      else none) (fun _ => qmiResultUnknown) c k ts = (firstResult ts).getD qmiResultUnknown := by
  induction ts with
  | nil => intro c k _; rfl
  | cons t ts ih =>
    intro c k hm
    obtain ⟨hid, hlen, hval, hrest⟩ := holds_head hm
    by_cases ht : t.id = 0x02 ∧ t.value.length = 4
    · simp [walkValue, firstResult, hid, hlen, ht, loadLE_take hval (by omega : 2 ≤ _)]
    · have hfirst : firstResult (t :: ts) = firstResult ts := by
        rw [firstResult, List.find?_cons_of_neg (by simpa using ht), firstResult]
      rw [hfirst, walkValue, hid, hlen, if_neg ht, Option.getD_none]
      exact ih hrest

namespace MessageAt

variable {m : ℕ → UInt8} {len n : ℕ} {ts : List Tlv}

/-- The decoder reads these TLVs. -/
theorem messageTlvs_eq (h : MessageAt m len ts) : messageTlvs m len = some ts := by
  have hlen : len - sizeofQmiPacket = (encodeAll ts).length := by
    have := h.length_eq
    omega
  rw [messageTlvs, hlen, bytesAt_of_holds h.holds, decodeAll_encodeAll]

/-- A walk over a message. -/
theorem tlvWalk {ρ : Type} {found : ℕ → Traced ℕ (Option ρ)} {overrun finish : ℕ → ρ} {short : ρ}
    {ret : ℕ → Option ρ} (h : MessageAt m len ts) (hn : len ≤ n)
    (hret : ∀ c, (found c).res = some (ret c)) :
    (tlvWalk n len short (tlvPass m len found overrun finish)).res =
      some (walkValue ret finish sizeofQmiPacket 0 ts) := by
  have hsz := length_le_encodeAll ts
  have hs : sizeofQmiPacket = 7 := rfl
  have hlen := h.length_eq
  have hlt := h.lt
  rw [Imsd.tlvWalk, if_neg (by have := h.ge; omega), Walk.start]
  exact run_of_holds hret hlt ts h.holds hlen (by omega) (by omega)

theorem getTlvOffsetById (h : MessageAt m len ts) (hn : len ≤ n) (tlvid : UInt8) :
    (getTlvOffsetById n m len tlvid).res =
      some ((firstOffset tlvid sizeofQmiPacket ts).getD 0) := by
  rw [Imsd.getTlvOffsetById, tlvOffsetPass, h.tlvWalk hn (res_foundById m tlvid),
    walkValue_byId tlvid ts h.holds]

theorem countTlvsInMessage (h : MessageAt m len ts) (hn : len ≤ n) :
    (countTlvsInMessage n m len).res = some ts.length := by
  rw [Imsd.countTlvsInMessage, countPass, h.tlvWalk hn (fun _ => rfl), walkValue_count,
    Nat.zero_add]
  rfl

theorem didQmiOpFail (h : MessageAt m len ts) (hn : len ≤ n) :
    (didQmiOpFail n m len).res = some ((firstResult ts).getD qmiResultUnknown) := by
  rw [Imsd.didQmiOpFail, qmiOpPass, h.tlvWalk hn (res_foundResult m), walkValue_result ts h.holds]

end MessageAt

/-- **The three walkers read the TLVs that the reference decoder reads**, in every message of 11
to 65535 bytes that the decoder accepts. -/
theorem walkers_agree_with_decodeAll {m : ℕ → UInt8} {len : ℕ} {ts : List Tlv}
    (hts : messageTlvs m len = some ts) (hmin : 11 ≤ len) (hmax : len ≤ 65535) {n : ℕ}
    (hn : len ≤ n) (tlvid : UInt8) :
    (countTlvsInMessage n m len).res = some ts.length ∧
      (getTlvOffsetById n m len tlvid).res =
        some ((firstOffset tlvid sizeofQmiPacket ts).getD 0) ∧
      (didQmiOpFail n m len).res = some ((firstResult ts).getD qmiResultUnknown) := by
  have h := messageAt_of_messageTlvs hts hmin hmax
  exact ⟨h.countTlvsInMessage hn, h.getTlvOffsetById hn tlvid, h.didQmiOpFail hn⟩

/-- An empty TLV, a TLV `0x02` of another length, and a result. -/
def sampleMessage : List UInt8 :=
  [0x02, 1, 0, 0x20, 0, 14, 0, 0x10, 0, 0, 0x02, 1, 0, 9, 0x02, 4, 0, 1, 0, 5, 0]

theorem walkers_agree_on_sampleMessage :
    (countTlvsInMessage 21 (memory sampleMessage fun _ => 0) 21).res = some 3 ∧
      (getTlvOffsetById 21 (memory sampleMessage fun _ => 0) 21 0x02).res = some 10 ∧
      (didQmiOpFail 21 (memory sampleMessage fun _ => 0) 21).res = some 1 :=
  @walkers_agree_with_decodeAll _ _
    [⟨0x10, [], by decide⟩, ⟨0x02, [9], by decide⟩, ⟨0x02, [1, 0, 5, 0], by decide⟩]
    rfl (by norm_num) (by norm_num) 21 (le_refl 21) 0x02

end Imsd
