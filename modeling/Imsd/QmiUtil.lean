import Imsd.Lib.Loop
import Imsd.Lib.Tlv

/-!
# `qmi-util.c`: reading QMI messages

A message lies at address `0` of a memory `m : ℕ → UInt8`; the functions get its length `len`, but
nothing stops them from reading past it, so every byte they read is logged with its offset.

The three walkers (`get_tlv_offset_by_id`, `did_qmi_op_fail`, `count_tlvs_in_message`) share one
loop, `tlvPass`: a 16-bit cursor goes from TLV to TLV, and is checked against `len` only after it
has moved.  They differ in the TLV they return at (`found`) and in what they return when the
cursor leaves the message (`overrun`) or reaches its end (`finish`).

`OnChain m len stop p` says, in terms of the bytes alone, that the cursor gets to offset `p` when
the walk returns at the TLVs with `stop`; `visits_iff_onChain` connects it to the loop.
-/

namespace Imsd

open Bytes

/-- `EINVAL`. -/
def einval : ℕ := 22

/-- `QMI_RESULT_SUCCESS`, `QMI_RESULT_FAILURE`, `QMI_RESULT_UNKNOWN`. -/
def qmiResultSuccess : ℕ := 0
@[inherit_doc qmiResultSuccess] def qmiResultFailure : ℕ := 1
@[inherit_doc qmiResultSuccess] def qmiResultUnknown : ℕ := 2

/-! ### Packed structures -/

/-- `struct qmi_packet`. -/
structure QmiPacket where
  messageType : UInt8
  transactionId : UInt16
  msgid : UInt16
  length : UInt16
  deriving DecidableEq

/-- `sizeof(struct qmi_packet)`. -/
def sizeofQmiPacket : ℕ := 7

def QmiPacket.encode (p : QmiPacket) : List UInt8 :=
  p.messageType :: (toLE 2 p.transactionId.toNat ++ toLE 2 p.msgid.toNat ++ toLE 2 p.length.toNat)

@[simp] theorem QmiPacket.length_encode (p : QmiPacket) : p.encode.length = sizeofQmiPacket := by
  simp [encode, sizeofQmiPacket]

/-- `struct qmi_generic_result_ind` as the code fills it: a TLV with result and response. -/
def qmiGenericResultInd (result response : UInt16) : Tlv :=
  ⟨0x02, toLE 2 result.toNat ++ toLE 2 response.toNat, by simp⟩

/-- `struct qmi_generic_uint8_t_tlv`. -/
def qmiGenericUint8TTlv (id : UInt8) (data : UInt8) : Tlv := ⟨id, [data], by simp⟩

/-- `struct qmi_generic_uint32_t_tlv`. -/
def qmiGenericUint32TTlv (id : UInt8) (data : UInt32) : Tlv := ⟨id, toLE 4 data.toNat, by simp⟩

/-! ### Reading -/

/-- Read the `w`-byte little-endian field at offset `i`. -/
def load (m : ℕ → UInt8) (i w : ℕ) : Traced ℕ ℕ :=
  ⟨(List.range w).map (i + ·), some (loadLE m i w)⟩

@[simp] theorem res_load (m : ℕ → UInt8) (i w : ℕ) : (load m i w).res = some (loadLE m i w) := rfl

theorem mem_log_load {m : ℕ → UInt8} {i w a : ℕ} :
    a ∈ (load m i w).log ↔ i ≤ a ∧ a < i + w := by
  simp only [load, List.mem_map, List.mem_range]
  constructor
  · rintro ⟨k, hk, rfl⟩; omega
  · rintro ⟨h₁, h₂⟩; exact ⟨a - i, by omega, by omega⟩

def getQmiMessageType (m : ℕ → UInt8) : Traced ℕ ℕ := load m 0 1

def getQmiTransactionId (m : ℕ → UInt8) : Traced ℕ ℕ := load m 1 2

def getQmiMessageId (m : ℕ → UInt8) : Traced ℕ ℕ := load m 3 2

/-! ### The walk over the TLVs -/

/-- The cursor of a walk, and the number of TLVs it has passed, both of 16 bits. -/
structure Walk where
  curByte : ℕ
  numTlvs : ℕ

/-- The walk starts behind the header. -/
def Walk.start : Walk := ⟨sizeofQmiPacket, 0⟩

/-- Where the cursor goes from the TLV at `c`: past its length field and its value, in 16 bits. -/
def nextByte (m : ℕ → UInt8) (c : ℕ) : ℕ := (c + (loadLE m (c + 1) 2 + 3)) % 65536

section Walkers

variable {ρ : Type}

/-- One pass of a walk. -/
def tlvPass (m : ℕ → UInt8) (len : ℕ) (found : ℕ → Traced ℕ (Option ρ)) (overrun finish : ℕ → ρ)
    (w : Walk) : Traced ℕ (Walk ⊕ ρ) :=
  if w.curByte < len then do
    match ← found w.curByte with
    | some r => pure (.inr r)
    | none =>
      let size ← load m (w.curByte + 1) 2
      let curByte := (w.curByte + (size + 3)) % 65536
      let numTlvs := (w.numTlvs + 1) % 65536
      -- checked only now: `curByte` may have wrapped, and the header read may cross `len`
      if curByte ≤ 0 ∨ curByte > len then pure (.inr (overrun numTlvs))
      else pure (.inl ⟨curByte, numTlvs⟩)
  else pure (.inr (finish w.numTlvs))

/-- A walk of at most `n` passes; messages without room for a TLV give `short`. -/
def tlvWalk (n len : ℕ) (short : ρ) (pass : Walk → Traced ℕ (Walk ⊕ ρ)) : Traced ℕ ρ :=
  if len < sizeofQmiPacket + 4 then pure short else WhileLoop.run pass n Walk.start

end Walkers

/-- `get_tlv_offset_by_id` returns at the TLV with the id, after logging its length. -/
def foundById (m : ℕ → UInt8) (tlvid : UInt8) (c : ℕ) : Traced ℕ (Option ℕ) := do
  let id ← load m c 1
  if id = tlvid.toNat then
    let _ ← load m (c + 1) 2
    pure (some c)
  else pure none

def tlvOffsetPass (m : ℕ → UInt8) (len : ℕ) (tlvid : UInt8) : Walk → Traced ℕ (Walk ⊕ ℕ) :=
  tlvPass m len (foundById m tlvid) (fun _ => 65536 - einval) (fun _ => 0)

/-- The offset of the TLV; `-EINVAL`, in 16 bits, when the cursor leaves the message. -/
def getTlvOffsetById (n : ℕ) (m : ℕ → UInt8) (len : ℕ) (tlvid : UInt8) : Traced ℕ ℕ :=
  tlvWalk n len 0 (tlvOffsetPass m len tlvid)

/-- `did_qmi_op_fail` returns at the first four-byte TLV `0x02`, with its result field. -/
def foundResult (m : ℕ → UInt8) (c : ℕ) : Traced ℕ (Option ℕ) := do
  let type ← load m c 1
  if type = 0x02 then
    let size ← load m (c + 1) 2
    if size = 0x04 then
      let result ← load m (c + 3) 2
      let _ ← load m (c + 5) 2
      pure (some result)
    else pure none
  else pure none

def qmiOpPass (m : ℕ → UInt8) (len : ℕ) : Walk → Traced ℕ (Walk ⊕ ℕ) :=
  tlvPass m len (foundResult m) (fun _ => qmiResultFailure) (fun _ => qmiResultUnknown)

def didQmiOpFail (n : ℕ) (m : ℕ → UInt8) (len : ℕ) : Traced ℕ ℕ :=
  tlvWalk n len qmiResultFailure (qmiOpPass m len)

def countPass (m : ℕ → UInt8) (len : ℕ) : Walk → Traced ℕ (Walk ⊕ ℕ) :=
  tlvPass m len (fun _ => pure none) id id

def countTlvsInMessage (n : ℕ) (m : ℕ → UInt8) (len : ℕ) : Traced ℕ ℕ :=
  tlvWalk n len 0 (countPass m len)

/-! ### What a pass does -/

theorem res_foundById (m : ℕ → UInt8) (tlvid : UInt8) (c : ℕ) :
    (foundById m tlvid c).res = some (if m c = tlvid then some c else none) := by
  have h : loadLE m c 1 = (m c).toNat := by simp [loadLE]
  simp only [foundById, Traced.res_bind, res_load, Option.bind_some, h, UInt8.toNat_inj]
  split_ifs <;> simp

theorem stop_foundById (m : ℕ → UInt8) (tlvid : UInt8) :
    (fun c => (if m c = tlvid then some c else none) ≠ none) = fun c => m c = tlvid := by
  funext c
  by_cases h : m c = tlvid <;> simp [h]

theorem res_foundResult (m : ℕ → UInt8) (c : ℕ) :
    (foundResult m c).res =
      some (if m c = 0x02 ∧ loadLE m (c + 1) 2 = 4 then some (loadLE m (c + 3) 2) else none) := by
  have h : loadLE m c 1 = (m c).toNat := by simp [loadLE]
  have h2 : ((m c).toNat = 2) ↔ m c = 0x02 := by rw [← UInt8.toNat_inj]; rfl
  simp only [foundResult, Traced.res_bind, res_load, Option.bind_some, h, h2]
  by_cases ht : m c = 0x02
  · by_cases hs : loadLE m (c + 1) 2 = 4 <;> simp [ht, hs]
  · simp [ht]

section Pass

variable {ρ : Type} {m : ℕ → UInt8} {len : ℕ} {found : ℕ → Traced ℕ (Option ρ)}
  {overrun finish : ℕ → ρ} {w w' : Walk} {ret : ℕ → Option ρ}

theorem nextByte_lt (m : ℕ → UInt8) (c : ℕ) : nextByte m c < 65536 := Nat.mod_lt _ (by norm_num)

/-- The value of a pass, for walkers that return by `ret`. -/
theorem res_tlvPass (hret : ∀ c, (found c).res = some (ret c)) :
    (tlvPass m len found overrun finish w).res =
      some (if w.curByte < len then
        match ret w.curByte with
        | some r => .inr r
        | none =>
          if nextByte m w.curByte ≤ 0 ∨ nextByte m w.curByte > len then
            .inr (overrun ((w.numTlvs + 1) % 65536))
          else .inl ⟨nextByte m w.curByte, (w.numTlvs + 1) % 65536⟩
      else .inr (finish w.numTlvs)) := by
  unfold tlvPass
  by_cases hc : w.curByte < len
  · simp only [if_pos hc, Traced.res_bind, hret, Option.bind_some]
    cases ret w.curByte with
    | some r => rfl
    | none =>
      simp only [Traced.res_bind, res_load, Option.bind_some]
      rw [show (w.curByte + (loadLE m (w.curByte + 1) 2 + 3)) % 65536 = nextByte m w.curByte
        from rfl]
      split_ifs <;> rfl
  · simp [hc]

/-- **When a walk goes on**, and where. -/
theorem next_tlvPass_iff (hret : ∀ c, (found c).res = some (ret c)) :
    WhileLoop.Next (tlvPass m len found overrun finish) w w' ↔
      w.curByte < len ∧ ret w.curByte = none ∧
      (0 < nextByte m w.curByte ∧ nextByte m w.curByte ≤ len) ∧
      w' = ⟨nextByte m w.curByte, (w.numTlvs + 1) % 65536⟩ := by
  unfold WhileLoop.Next
  rw [res_tlvPass hret]
  by_cases hc : w.curByte < len
  · cases hr : ret w.curByte with
    | some r => simp [hc]
    | none =>
      by_cases hn : nextByte m w.curByte ≤ 0 ∨ nextByte m w.curByte > len
      · simp only [hc, hn, if_true]
        constructor
        · intro h; simp at h
        · rintro ⟨-, -, h, -⟩; omega
      · simp only [hc, hn, if_true, if_false, Option.some.injEq, Sum.inl.injEq]
        constructor
        · intro h; exact ⟨trivial, trivial, by omega, h.symm⟩
        · rintro ⟨-, -, -, h⟩; exact h.symm
  · simp [hc]

/-- Every pass ends. -/
theorem isSome_tlvPass (hret : ∀ c, (found c).res = some (ret c)) :
    (tlvPass m len found overrun finish w).res.isSome := by
  rw [res_tlvPass hret]; rfl

end Pass

/-! ### The chain of TLVs in the bytes -/

/-- The walk that returns at the TLVs with `stop` gets to offset `p`. -/
inductive OnChain (m : ℕ → UInt8) (len : ℕ) (stop : ℕ → Prop) : ℕ → Prop
  | start : OnChain m len stop sizeofQmiPacket
  | next {p : ℕ} : OnChain m len stop p → p < len → ¬ stop p →
      0 < nextByte m p → nextByte m p ≤ len → OnChain m len stop (nextByte m p)

theorem OnChain.lt {m : ℕ → UInt8} {len : ℕ} {stop : ℕ → Prop} {p : ℕ}
    (h : OnChain m len stop p) : p < 65536 := by
  cases h with
  | start => decide
  | next => exact nextByte_lt _ _

/-- The cursors of a walk are the offsets on the chain. -/
theorem visits_iff_onChain {ρ : Type} {m : ℕ → UInt8} {len : ℕ}
    {found : ℕ → Traced ℕ (Option ρ)} {overrun finish : ℕ → ρ} {ret : ℕ → Option ρ}
    (hret : ∀ c, (found c).res = some (ret c)) (p : ℕ) :
    (∃ k, WhileLoop.Visits (tlvPass m len found overrun finish) Walk.start ⟨p, k⟩) ↔
      OnChain m len (fun c => ret c ≠ none) p := by
  constructor
  · rintro ⟨k, hv⟩
    -- each pass is a link of the chain, whatever the number of TLVs
    generalize hw : (⟨p, k⟩ : Walk) = w at hv
    induction hv generalizing p k with
    | refl => cases hw; exact .start
    | @tail b _ _ hn ih =>
      subst hw
      obtain ⟨hc, hr, ⟨h0, hle⟩, hw⟩ := (next_tlvPass_iff hret).1 hn
      cases hw
      exact .next (ih b.curByte b.numTlvs rfl) hc (by simpa using hr) h0 hle
  · intro h
    induction h with
    | start => exact ⟨0, .refl⟩
    | @next p _ hc hs h0 hle ih =>
      obtain ⟨k, hk⟩ := ih
      exact ⟨(k + 1) % 65536,
        hk.tail ((next_tlvPass_iff hret).2 ⟨hc, by simpa using hs, ⟨h0, hle⟩, rfl⟩)⟩

end Imsd
