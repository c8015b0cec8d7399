import Imsd.QmiUtil

/-!
# Well-formed QMI messages

A `QmiMessage` is a header and a list of TLVs; `encode` lays it out.  On memory that holds such a
message the walkers do what the TLV list says: `run_of_holds` is the common statement, for the
list still ahead of the cursor.  In the other direction `QmiMessage.tlv` reads a TLV out of the
bytes of a message with the reference decoder.
-/

namespace Imsd

open Bytes Tlv

/-- A header and the TLVs that follow it. -/
structure QmiMessage where
  header : QmiPacket
  tlvs : List Tlv
  deriving DecidableEq

namespace QmiMessage

/-- The bytes of a message. -/
def encode (q : QmiMessage) : List UInt8 := q.header.encode ++ encodeAll q.tlvs

@[simp] theorem length_encode (q : QmiMessage) :
    q.encode.length = sizeofQmiPacket + (encodeAll q.tlvs).length := by
  simp [encode]

/-- The value of the first TLV with the id, in the bytes of a message. -/
def tlv (id : UInt8) (bs : List UInt8) : Option (List UInt8) :=
  (decodeAll (bs.drop sizeofQmiPacket)).bind (first id)

@[simp] theorem tlv_encode (id : UInt8) (q : QmiMessage) : tlv id q.encode = first id q.tlvs := by
  have h : q.encode.drop sizeofQmiPacket = encodeAll q.tlvs := by
    rw [encode, ← q.header.length_encode, List.drop_left]
  rw [tlv, h, decodeAll_encodeAll, Option.bind_some]

/-! ### Reading the header -/

section Header

variable {q : QmiMessage} {m : ℕ → UInt8}

theorem holds_header (h : Holds m 0 q.encode) :
    m 0 = q.header.messageType ∧ Holds m 1 (toLE 2 q.header.transactionId.toNat) ∧
      Holds m 3 (toLE 2 q.header.msgid.toNat) ∧ Holds m 5 (toLE 2 q.header.length.toNat) := by
  rw [encode, holds_append, QmiPacket.encode, holds_cons, holds_append, holds_append] at h
  simpa [and_assoc] using h.1

theorem holds_tlvs (h : Holds m 0 q.encode) : Holds m sizeofQmiPacket (encodeAll q.tlvs) := by
  rw [encode, holds_append, q.header.length_encode, Nat.zero_add] at h
  exact h.2

theorem res_getQmiMessageType (h : Holds m 0 q.encode) :
    (getQmiMessageType m).res = some q.header.messageType.toNat := by
  simp [getQmiMessageType, loadLE, (holds_header h).1]

theorem res_getQmiMessageId (h : Holds m 0 q.encode) :
    (getQmiMessageId m).res = some q.header.msgid.toNat := by
  rw [getQmiMessageId, res_load, loadLE_toLE (holds_header h).2.2.1]
  simp [Nat.mod_eq_of_lt, q.header.msgid.toNat_lt]

theorem res_getQmiTransactionId (h : Holds m 0 q.encode) :
    (getQmiTransactionId m).res = some q.header.transactionId.toNat := by
  rw [getQmiTransactionId, res_load, loadLE_toLE (holds_header h).2.1]
  simp [Nat.mod_eq_of_lt, q.header.transactionId.toNat_lt]

end Header

end QmiMessage

/-! ### The walkers on a list of TLVs -/

section Walk

variable {ρ : Type} {m : ℕ → UInt8}

/-- What a walk returns, from offset `c` and with `k` TLVs behind it, when the TLVs `ts` and
nothing else lie ahead of it. -/
def walkValue (ret : ℕ → Option ρ) (finish : ℕ → ρ) (c k : ℕ) : List Tlv → ρ
  | [] => finish k
  | t :: ts => (ret c).getD (walkValue ret finish (c + t.size) (k + 1) ts)

/-- The header of the TLV under the cursor. -/
theorem holds_head {t : Tlv} {ts : List Tlv} {c : ℕ} (h : Holds m c (encodeAll (t :: ts))) :
    m c = t.id ∧ loadLE m (c + 1) 2 = t.value.length ∧ Holds m (c + 3) t.value ∧
      Holds m (c + t.size) (encodeAll ts) := by
  rw [encodeAll_cons, holds_append, Tlv.length_encode, Tlv.encode, holds_cons, holds_append] at h
  obtain ⟨⟨hid, hlen, hval⟩, hrest⟩ := h
  refine ⟨hid, ?_, by simpa [Nat.add_assoc] using hval, hrest⟩
  rw [loadLE_toLE hlen]
  exact Nat.mod_eq_of_lt t.length_lt

/-- **A walk over a well-formed list.** -/
theorem run_of_holds {len : ℕ} {found : ℕ → Traced ℕ (Option ρ)} {overrun finish : ℕ → ρ}
    {ret : ℕ → Option ρ} (hret : ∀ c, (found c).res = some (ret c)) (hlen : len < 65536)
    (ts : List Tlv) : ∀ {c k n : ℕ}, Holds m c (encodeAll ts) → c + (encodeAll ts).length = len →
      ts.length < n → k + ts.length < 65536 →
      (WhileLoop.run (tlvPass m len found overrun finish) n ⟨c, k⟩).res =
        some (walkValue ret finish c k ts) := by
  induction ts with
  | nil =>
    intro c k n _ hc hn _
    obtain ⟨n, rfl⟩ : ∃ i, n = i + 1 := ⟨n - 1, by simp at hn; omega⟩
    rw [WhileLoop.run_succ_of_return (by rw [res_tlvPass hret, if_neg (by simp at hc ⊢; omega)])]
    rfl
  | cons t ts ih =>
    intro c k n hm hc hn hk
    obtain ⟨n, rfl⟩ : ∃ i, n = i + 1 := ⟨n - 1, by simp at hn; omega⟩
    obtain ⟨-, hlen', -, hrest⟩ := holds_head hm
    simp only [encodeAll_cons, List.length_append, Tlv.length_encode, List.length_cons] at hc hn hk
    have hsize := t.size_pos
    have hnext : nextByte m c = c + t.size := by
      rw [nextByte, hlen']
      exact Nat.mod_eq_of_lt (by unfold Tlv.size at *; omega)
    cases hr : ret c with
    | some r =>
      rw [WhileLoop.run_succ_of_return
          (by rw [res_tlvPass hret, if_pos (by dsimp only; omega), hr])]
      simp [walkValue, hr]
    | none =>
      have hpass : WhileLoop.Next (tlvPass m len found overrun finish) ⟨c, k⟩
          ⟨c + t.size, k + 1⟩ := by
        refine (next_tlvPass_iff hret).2 ⟨by dsimp only; omega, hr, ?_, ?_⟩
        · rw [hnext]; omega
        · rw [hnext, Nat.mod_eq_of_lt (by dsimp only; omega)]
      rw [WhileLoop.run_succ_of_next hpass]
      simp only [walkValue, hr, Option.getD_none]
      exact ih hrest (by omega) (by omega) (by omega)

/-- `get_tlv_offset_by_id` finds the first TLV with the id, and `0` is no offset. -/
theorem walkValue_byId (tlvid : UInt8) (ts : List Tlv) : ∀ {c k : ℕ}, Holds m c (encodeAll ts) →
    walkValue (fun c => if m c = tlvid then some c else none) (fun _ => 0) c k ts =
      (firstOffset tlvid c ts).getD 0 := by
  induction ts with
  | nil => intro c k _; rfl
  | cons t ts ih =>
    intro c k hm
    obtain ⟨hid, -, -, hrest⟩ := holds_head hm
    simp only [walkValue, firstOffset, hid]
    split_ifs
    · rfl
    · simpa using ih hrest

end Walk

end Imsd
