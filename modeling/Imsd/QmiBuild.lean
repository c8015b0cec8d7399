import Imsd.QmiDecode

/-!
# `qmi-util.c`: building QMI messages

The builders write into a buffer: they are computations over its memory that log every address
they write to, and their value is the `int` they return.

`buildMessage` is the sequence of calls that makes a message out of `(id, value)` pairs: the header
on a buffer of exactly the size of the message, then one call for each pair, at the end of what was
built before.  `buildMessage_holds` says what then lies in the buffer, and `read_buildMessage` that
the readers get everything back.
-/

namespace Imsd

open Bytes Tlv Exec

/-- `ENOMEM`. -/
def enomem : ℤ := 12

/-- The number of values of `size_t`. -/
def sizeT : ℕ := 2 ^ 64

/-- `sizeof(struct qmi_generic_uint8_t_tlv)`. -/
def sizeofQmiGenericUint8TTlv : ℕ := 4

/-! ### The builders -/

/-- A computation over the memory from `output` on. -/
abbrev BuildM (α : Type) := Exec (ℕ → UInt8) ℕ α

/-- Write the fields of a packed structure at an offset. -/
def store (offset : ℕ) (bs : List UInt8) : BuildM PUnit := do
  Exec.emitAll ((List.range bs.length).map (offset + ·))
  Exec.modify fun output => write output offset bs

def buildQmiHeader (outputLen : ℕ) (messageType : UInt8) (transactionId messageId : UInt16) :
    BuildM ℤ :=
  if outputLen < sizeofQmiPacket then pure (-enomem)
  else do
    store 0 (QmiPacket.encode ⟨messageType, transactionId, messageId,
      UInt16.ofNat (outputLen - sizeofQmiPacket)⟩)
    pure 0

def buildU8Tlv (outputLen offset : ℕ) (id data : UInt8) : BuildM ℤ :=
  if outputLen < (offset + sizeofQmiGenericUint8TTlv) % sizeT then pure (-enomem)
  else do
    store offset (qmiGenericUint8TTlv id data).encode
    pure 0

/-- The size checked is that of the one-byte TLV here, too. -/
def buildU32Tlv (outputLen offset : ℕ) (id : UInt8) (data : UInt32) : BuildM ℤ :=
  if outputLen < (offset + sizeofQmiGenericUint8TTlv) % sizeT then pure (-enomem)
  else do
    store offset (qmiGenericUint32TTlv id data).encode
    pure 0

/-! ### A message out of pairs -/

/-- An id with a value of either width. -/
inductive TlvPair
  | u8 (id data : UInt8)
  | u32 (id : UInt8) (data : UInt32)
  deriving DecidableEq

namespace TlvPair

def id : TlvPair → UInt8
  | u8 id _ => id
  | u32 id _ => id

/-- The number of bytes of the value. -/
def width : TlvPair → ℕ
  | u8 _ _ => 1
  | u32 _ _ => 4

/-- The value as a number. -/
def data : TlvPair → ℕ
  | u8 _ data => data.toNat
  | u32 _ data => data.toNat

/-- The TLV of the pair. -/
def toTlv : TlvPair → Tlv
  | u8 id data => qmiGenericUint8TTlv id data
  | u32 id data => qmiGenericUint32TTlv id data

/-- The call for the pair. -/
def build (outputLen offset : ℕ) : TlvPair → BuildM ℤ
  | u8 id data => buildU8Tlv outputLen offset id data
  | u32 id data => buildU32Tlv outputLen offset id data

@[simp] theorem id_toTlv (p : TlvPair) : p.toTlv.id = p.id := by cases p <;> rfl

theorem size_toTlv (p : TlvPair) : p.toTlv.size = p.width + 3 := by
  cases p <;> simp [toTlv, qmiGenericUint8TTlv, qmiGenericUint32TTlv, Tlv.size, width]

theorem width_pos (p : TlvPair) : 1 ≤ p.width := by cases p <;> simp [width]

/-- The value is read back at its width. -/
theorem loadLE_value {p : TlvPair} {m : ℕ → UInt8} {c : ℕ} (h : Holds m c p.toTlv.value) :
    loadLE m c p.width = p.data := by
  cases p with
  | u8 id data => simpa [width, TlvPair.data, toTlv, qmiGenericUint8TTlv] using loadLE_of_holds h
  | u32 id data =>
    rw [show width (u32 id data) = 4 from rfl, loadLE_toLE h]
    exact Nat.mod_eq_of_lt data.toNat_lt

end TlvPair

/-- The offset behind the pairs. -/
def endOffset (pairs : List TlvPair) : ℕ :=
  sizeofQmiPacket + (encodeAll (pairs.map TlvPair.toTlv)).length

/-- The calls for the pairs, the first one at `offset`; their values. -/
def buildTlvs (outputLen : ℕ) : ℕ → List TlvPair → BuildM (List ℤ)
  | _, [] => pure []
  | offset, p :: pairs => do
    let ret ← p.build outputLen offset
    let rets ← buildTlvs outputLen (offset + p.toTlv.size) pairs
    pure (ret :: rets)

/-- The calls for a message, on a buffer of exactly its size; their values. -/
def buildMessage (messageType : UInt8) (transactionId messageId : UInt16)
    (pairs : List TlvPair) : BuildM (List ℤ) := do
  let ret ← buildQmiHeader (endOffset pairs) messageType transactionId messageId
  let rets ← buildTlvs (endOffset pairs) sizeofQmiPacket pairs
  pure (ret :: rets)

/-- The message that these calls are to make. -/
def pairsMessage (messageType : UInt8) (transactionId messageId : UInt16)
    (pairs : List TlvPair) : QmiMessage :=
  ⟨⟨messageType, transactionId, messageId, UInt16.ofNat (endOffset pairs - sizeofQmiPacket)⟩,
    pairs.map TlvPair.toTlv⟩

/-! ### What the calls leave in the buffer -/

/-- Nothing of a build is observed but its value and the buffer. -/
def unobserved : ℕ → Option PUnit := fun _ => none

theorem store_does (offset : ℕ) (bs : List UInt8) (m : ℕ → UInt8) :
    Does unobserved (store offset bs) m (write m offset bs) [] ⟨⟩ := by
  have hlog : ((List.range bs.length).map (offset + ·)).filterMap unobserved = [] :=
    List.filterMap_eq_nil_iff.2 fun _ _ => rfl
  have h : Does unobserved (Exec.emitAll ((List.range bs.length).map (offset + ·))) m m _ ⟨⟩ :=
    Does.emitAll _ m
  rw [hlog] at h
  exact h.bind_nil (Does.modify _ m)

theorem buildQmiHeader_does {outputLen : ℕ} (h : sizeofQmiPacket ≤ outputLen)
    (messageType : UInt8) (transactionId messageId : UInt16) (m : ℕ → UInt8) :
    Does unobserved (buildQmiHeader outputLen messageType transactionId messageId) m
      (write m 0 (QmiPacket.encode ⟨messageType, transactionId, messageId,
        UInt16.ofNat (outputLen - sizeofQmiPacket)⟩)) [] 0 := by
  rw [buildQmiHeader, if_neg (by omega)]
  exact (store_does 0 _ m).bind_nil (Does.pure _ _)

/-- A call for a pair, with room for its TLV. -/
theorem TlvPair.build_does {p : TlvPair} {outputLen offset : ℕ}
    (h : offset + p.toTlv.size ≤ outputLen) (hlen : outputLen < sizeT) (m : ℕ → UInt8) :
    Does unobserved (p.build outputLen offset) m (write m offset p.toTlv.encode) [] 0 := by
  have hsize := p.size_toTlv
  have hwidth := p.width_pos
  have hs : sizeofQmiGenericUint8TTlv = 4 := rfl
  have hcheck : ¬ outputLen < (offset + sizeofQmiGenericUint8TTlv) % sizeT := by
    rw [Nat.mod_eq_of_lt (by omega)]
    omega
  cases p with
  | u8 id data =>
    rw [build, buildU8Tlv, if_neg hcheck]
    exact (store_does offset _ m).bind_nil (Does.pure _ _)
  | u32 id data =>
    rw [build, buildU32Tlv, if_neg hcheck]
    exact (store_does offset _ m).bind_nil (Does.pure _ _)

/-- The calls for the pairs leave what was built before, and put the pairs behind it. -/
theorem buildTlvs_does {outputLen : ℕ} (hlen : outputLen < sizeT) (pairs : List TlvPair) :
    ∀ {built : List UInt8} {m : ℕ → UInt8}, Holds m 0 built →
      built.length + (encodeAll (pairs.map TlvPair.toTlv)).length ≤ outputLen →
      ∃ m', Does unobserved (buildTlvs outputLen built.length pairs) m m' []
          (List.replicate pairs.length 0) ∧
        Holds m' 0 (built ++ encodeAll (pairs.map TlvPair.toTlv)) := by
  induction pairs with
  | nil =>
    intro built m hm _
    exact ⟨m, Does.pure _ m, by simpa using hm⟩
  | cons p pairs ih =>
    intro built m hm hle
    rw [List.map_cons, encodeAll_cons, List.length_append, Tlv.length_encode] at hle
    -- one more TLV is built, right behind the others
    have hbuilt : Holds (write m built.length p.toTlv.encode) 0 (built ++ p.toTlv.encode) := by
      rw [holds_append]
      refine ⟨hm.write (by omega), ?_⟩
      rw [Nat.zero_add]
      exact holds_write m built.length p.toTlv.encode
    have hend : (built ++ p.toTlv.encode).length = built.length + p.toTlv.size := by
      rw [List.length_append, Tlv.length_encode]
    obtain ⟨m', hdoes, hholds⟩ := ih hbuilt (by rw [hend]; omega)
    rw [hend] at hdoes
    refine ⟨m', ?_, by simpa using hholds⟩
    exact (TlvPair.build_does (by omega) hlen m).bind_nil (hdoes.bind_nil (Does.pure _ _))

/-- **What the calls for a message leave in the buffer.** -/
theorem buildMessage_does {pairs : List TlvPair} (hlen : endOffset pairs ≤ 65535)
    (messageType : UInt8) (transactionId messageId : UInt16) (m : ℕ → UInt8) :
    ∃ m', Does unobserved (buildMessage messageType transactionId messageId pairs) m m' []
        (List.replicate (pairs.length + 1) 0) ∧
      Holds m' 0 (pairsMessage messageType transactionId messageId pairs).encode := by
  have hs : sizeofQmiPacket = 7 := rfl
  have hT : endOffset pairs < sizeT := by unfold sizeT; omega
  have hheader := @buildQmiHeader_does (endOffset pairs) (by unfold endOffset; omega) messageType
    transactionId messageId m
  obtain ⟨m', htlvs, hholds⟩ := buildTlvs_does hT pairs
    (holds_write m 0 (pairsMessage messageType transactionId messageId pairs).header.encode)
    (by rw [QmiPacket.length_encode]; exact le_rfl)
  rw [QmiPacket.length_encode] at htlvs
  exact ⟨m', hheader.bind_nil (htlvs.bind_nil (Does.pure _ _)), hholds⟩

/-! ### Reading it back -/

/-- The first pair with an id lies behind the pairs before it. -/
theorem firstOffset_of_split {pre post : List TlvPair} {p : TlvPair}
    (hpre : ∀ x ∈ pre, x.id ≠ p.id) (c : ℕ) :
    firstOffset p.id c ((pre ++ p :: post).map TlvPair.toTlv) =
      some (c + (encodeAll (pre.map TlvPair.toTlv)).length) := by
  induction pre generalizing c with
  | nil => simp [firstOffset]
  | cons x pre ih =>
    have hx : x.toTlv.id ≠ p.id := by
      rw [TlvPair.id_toTlv]
      exact hpre x (by simp)
    rw [List.cons_append, List.map_cons, firstOffset, if_neg hx,
      ih fun y hy => hpre y (List.mem_cons_of_mem _ hy), List.map_cons, encodeAll_cons,
      List.length_append, Tlv.length_encode]
    congr 1
    omega

/-- **The readers get back what was built**: every call returns `0`, the header fields and the
number of TLVs are the ones given, and each id is found at its first pair, with its value. -/
theorem read_buildMessage (messageType : UInt8) (transactionId messageId : UInt16)
    (pairs : List TlvPair) (hlen : endOffset pairs ≤ 65535) (output : ℕ → UInt8) :
    ∃ m, (buildMessage messageType transactionId messageId pairs output).1 = m ∧
      (buildMessage messageType transactionId messageId pairs output).2.res =
        some (List.replicate (pairs.length + 1) 0) ∧
      (getQmiMessageType m).res = some messageType.toNat ∧
      (getQmiTransactionId m).res = some transactionId.toNat ∧
      (getQmiMessageId m).res = some messageId.toNat ∧
      loadLE m 5 2 = endOffset pairs - sizeofQmiPacket ∧
      ∀ n, endOffset pairs ≤ n →
        (countTlvsInMessage n m (endOffset pairs)).res = some pairs.length ∧
        ∀ pre p post, pairs = pre ++ p :: post → (∀ x ∈ pre, x.id ≠ p.id) →
          (getTlvOffsetById n m (endOffset pairs) p.id).res = some (endOffset pre) ∧
          loadLE m (endOffset pre + 3) p.width = p.data := by
  obtain ⟨m, hdoes, hm⟩ := buildMessage_does hlen messageType transactionId messageId output
  have hs : sizeofQmiPacket = 7 := rfl
  have hsize : (pairsMessage messageType transactionId messageId pairs).encode.length =
      endOffset pairs := by
    rw [QmiMessage.length_encode]
    rfl
  refine ⟨m, hdoes.state, hdoes.res, QmiMessage.res_getQmiMessageType hm,
    QmiMessage.res_getQmiTransactionId hm, QmiMessage.res_getQmiMessageId hm, ?_, ?_⟩
  · rw [loadLE_toLE (QmiMessage.holds_header hm).2.2.2]
    simp only [pairsMessage, UInt16.toNat_ofNat']
    omega
  intro n hn
  cases pairs with
  | nil =>
    -- no room for a TLV: the walker does not start
    refine ⟨?_, fun pre p post h => by simp at h⟩
    rw [countTlvsInMessage, tlvWalk, if_pos (by simp [endOffset])]
    rfl
  | cons q pairs =>
    have hmin : sizeofQmiPacket + 4 ≤ endOffset (q :: pairs) := by
      have := q.size_toTlv
      have := q.width_pos
      rw [endOffset, List.map_cons, encodeAll_cons, List.length_append, Tlv.length_encode]
      omega
    have hat := QmiMessage.messageAt hm hsize.symm hmin (by omega)
    refine ⟨by simpa [pairsMessage] using hat.countTlvsInMessage hn, ?_⟩
    intro pre p post hsplit hpre
    have hoffset : firstOffset p.id sizeofQmiPacket ((q :: pairs).map TlvPair.toTlv) =
        some (endOffset pre) := by
      rw [hsplit, firstOffset_of_split hpre, endOffset]
    have hfound := hat.getTlvOffsetById hn p.id
    rw [show (pairsMessage messageType transactionId messageId (q :: pairs)).tlvs =
      (q :: pairs).map TlvPair.toTlv from rfl, hoffset, Option.getD_some] at hfound
    refine ⟨hfound, ?_⟩
    have htlvs := hat.holds
    rw [pairsMessage, hsplit, List.map_append, encodeAll, List.flatMap_append,
      holds_append] at htlvs
    exact TlvPair.loadLE_value (holds_head htlvs.2).2.2.1

/-- Two widths, and an id that comes twice. -/
def samplePairs : List TlvPair := [.u8 0x10 7, .u32 0x11 0x01020304, .u8 0x10 9]

theorem read_buildMessage_samplePairs :
    ∃ m, (buildMessage 0x02 99 0x20 samplePairs fun _ => 0xff).1 = m ∧
      (countTlvsInMessage 22 m 22).res = some 3 ∧
      (getTlvOffsetById 22 m 22 0x10).res = some 7 ∧ loadLE m 10 1 = 7 ∧
      (getTlvOffsetById 22 m 22 0x11).res = some 11 ∧ loadLE m 14 4 = 0x01020304 := by
  obtain ⟨m, hm, -, -, -, -, -, h⟩ := read_buildMessage 0x02 99 0x20 samplePairs
    (by simp [samplePairs, endOffset, sizeofQmiPacket, TlvPair.size_toTlv, TlvPair.width])
    fun _ => 0xff
  obtain ⟨hcount, hfirst⟩ := h 22 (le_refl 22)
  obtain ⟨h₁, hv₁⟩ := hfirst [] _ _ rfl (by simp)
  obtain ⟨h₂, hv₂⟩ := hfirst [.u8 0x10 7] (.u32 0x11 0x01020304) _ rfl (by decide)
  exact ⟨m, hm, hcount, h₁, hv₁, h₂, hv₂⟩

end Imsd
