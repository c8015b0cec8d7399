import Imsd.DcmSearch

/-!
# What an offset is good for

The callers of `get_tlv_offset_by_id` take every offset but `0` for the place of a TLV
(`OffsetUsable`).  But the function also returns `-EINVAL`, which is `65514` in 16 bits; it finds
an id in the last two bytes of a message, without a length behind it; and a TLV that ends behind
the message may lead it, by a cursor that wraps, to an id that is found there.

`SearchSound` excludes the three.  `offset_usable_iff`: for messages of the handler's size, the
offset is usable exactly when the search is sound.  What a search returns is known from
`SearchReturns`; what is left is to compare the chain of the cursor with the TLVs as they lie in
the message (`TlvAt`).
-/

namespace Imsd

open Bytes

section

variable (m : ℕ → UInt8) (len : ℕ) (tlvid : UInt8)

/-- Where the TLV at `p` ends. -/
def tlvEnd (p : ℕ) : ℕ := p + 3 + loadLE m (p + 1) 2

/-- The TLVs of a message up to the one with the id: each begins where the one before ends. -/
inductive TlvAt : ℕ → Prop
  | first : TlvAt sizeofQmiPacket
  | next {p : ℕ} : TlvAt p → m p ≠ tlvid → tlvEnd m p ≤ len → TlvAt (tlvEnd m p)

/-- A TLV header or a length runs past the end of the message before the id is found. -/
def Malformed : Prop :=
  ∃ p, TlvAt m len tlvid p ∧ p < len ∧ (len < p + 3 ∨ m p ≠ tlvid ∧ len < tlvEnd m p)

/-- Wherever the search returns, an offset other than `0` is that of a TLV header with the id, and
for a malformed message it is `0`. -/
def OffsetUsable : Prop :=
  ∀ n offset, (getTlvOffsetById n m len tlvid).res = some offset →
    (offset ≠ 0 → sizeofQmiPacket ≤ offset ∧ offset + 3 ≤ len ∧ m offset = tlvid) ∧
    (Malformed m len tlvid → offset = 0)

/-- No TLV that is passed takes the cursor to `0` or behind the message, and where the id is found
there is a header, and all that was passed ended in the message. -/
structure SearchSound : Prop where
  passes : ∀ p, SearchAt m len tlvid p → p < len → m p ≠ tlvid →
    0 < nextByte m p ∧ nextByte m p ≤ len
  finds : ∀ p, FoundAt m len tlvid p → p + 3 ≤ len ∧
    ∀ q, SearchAt m len tlvid q → q < len → m q ≠ tlvid → tlvEnd m q ≤ len

end

section

variable {m : ℕ → UInt8} {len : ℕ} {tlvid : UInt8}

/-- A TLV that ends in the message does not wrap the cursor. -/
theorem nextByte_of_tlvEnd_le {p : ℕ} (hmax : len < 65536) (h : tlvEnd m p ≤ len) :
    nextByte m p = tlvEnd m p := by
  unfold nextByte tlvEnd at *
  omega

theorem TlvAt.le {p : ℕ} (h : TlvAt m len tlvid p) : sizeofQmiPacket ≤ p := by
  induction h with
  | first => exact le_rfl
  | next _ _ _ ih => unfold tlvEnd; omega

/-- The search comes to all these TLVs. -/
theorem TlvAt.searchAt {p : ℕ} (hlen : sizeofQmiPacket + 4 ≤ len) (hmax : len < 65536)
    (h : TlvAt m len tlvid p) : SearchAt m len tlvid p := by
  refine ⟨hlen, ?_⟩
  induction h with
  | first => exact .start
  | @next p hp hne hle ih =>
    have hnext := nextByte_of_tlvEnd_le hmax hle
    have hlt : p < len := by unfold tlvEnd at hle; omega
    have h0 : 0 < tlvEnd m p := by unfold tlvEnd; omega
    rw [← hnext] at hle h0 ⊢
    exact .next ih hlt hne h0 hle

/-- Where the TLVs end in the message, the search comes to nothing else. -/
theorem tlvAt_of_searchAt (hmax : len < 65536)
    (hends : ∀ p, TlvAt m len tlvid p → p < len → m p ≠ tlvid → tlvEnd m p ≤ len) {p : ℕ}
    (h : SearchAt m len tlvid p) : TlvAt m len tlvid p := by
  obtain ⟨-, h⟩ := h
  induction h with
  | start => exact .first
  | @next p _ hlt hne _ _ ih =>
    have hle := hends p ih hlt hne
    rw [nextByte_of_tlvEnd_le hmax hle]
    exact .next ih hne hle

theorem OffsetUsable.searchSound (hmax : len ≤ 1023) (h : OffsetUsable m len tlvid) :
    SearchSound m len tlvid := by
  have husable : ∀ offset, SearchReturns m len tlvid offset →
      (offset ≠ 0 → sizeofQmiPacket ≤ offset ∧ offset + 3 ≤ len ∧ m offset = tlvid) ∧
      (Malformed m len tlvid → offset = 0) := by
    intro offset hoff
    obtain ⟨n, hn⟩ := exists_res_getTlvOffsetById_iff.2 hoff
    exact h n offset hn
  constructor
  · intro p hp hlt hne
    by_contra hbad
    -- `-EINVAL` lies behind every message
    have hret := hp.searchReturns_einval hlt hne hbad
    have he : einval = 22 := rfl
    obtain ⟨-, hle, -⟩ := (husable _ hret).1 (by decide)
    omega
  · intro p hp
    obtain ⟨hsome, hnone⟩ := husable p hp.searchReturns
    have h0 : p ≠ 0 := hp.1.pos.ne'
    refine ⟨(hsome h0).2.1, fun q hq hlt hne => ?_⟩
    have hwell : ¬ Malformed m len tlvid := fun hm => h0 (hnone hm)
    have hends : ∀ q, TlvAt m len tlvid q → q < len → m q ≠ tlvid → tlvEnd m q ≤ len :=
      fun q hq hlt hne => not_lt.1 fun hbad => hwell ⟨q, hq, hlt, Or.inr ⟨hne, hbad⟩⟩
    exact hends q (tlvAt_of_searchAt (by omega) hends hq) hlt hne

/-- A message in which a sound search finds the id is well-formed up to there. -/
theorem SearchSound.found (h : SearchSound m len tlvid) (hmax : len ≤ 1023) {p : ℕ}
    (hp : FoundAt m len tlvid p) :
    sizeofQmiPacket ≤ p ∧ p + 3 ≤ len ∧ ¬ Malformed m len tlvid := by
  obtain ⟨hle, hends⟩ := h.finds p hp
  have hlen := hp.1.1
  have hsearch : ∀ q, TlvAt m len tlvid q → SearchAt m len tlvid q :=
    fun q hq => hq.searchAt hlen (by omega)
  refine ⟨?_, hle, ?_⟩
  · have hat : TlvAt m len tlvid p :=
      tlvAt_of_searchAt (by omega) (fun q hq => hends q (hsearch q hq)) hp.1
    exact hat.le
  · rintro ⟨q, hq, hlt, hbad⟩
    by_cases ht : m q = tlvid
    · have := (h.finds q ⟨hsearch q hq, hlt, ht⟩).1
      rcases hbad with hbad | ⟨hne, -⟩
      · omega
      · exact hne ht
    · have := hends q (hsearch q hq) hlt ht
      unfold tlvEnd at hbad this
      omega

theorem SearchSound.offsetUsable (h : SearchSound m len tlvid) (hmax : len ≤ 1023) :
    OffsetUsable m len tlvid := by
  intro n offset hres
  rcases exists_res_getTlvOffsetById_iff.1 ⟨n, hres⟩ with ⟨-, rfl⟩ | ⟨p, hp, hoff, hbad⟩
  · exact ⟨fun h0 => absurd rfl h0, fun _ => rfl⟩
  · split_ifs at hoff with hlt ht
    · subst hoff
      obtain ⟨hge, hle, hwell⟩ := h.found hmax ⟨hp, hlt, ht⟩
      exact ⟨fun _ => ⟨hge, hle, ht⟩, fun hm => absurd hm hwell⟩
    · exact absurd (h.passes p hp hlt ht) (hbad hlt ht)
    · exact ⟨fun h0 => absurd hoff h0, fun _ => hoff⟩

end

/-- **Offsets are usable exactly when the search is sound.** -/
theorem offset_usable_iff (m : ℕ → UInt8) (len : ℕ) (hmax : len ≤ 1023) (tlvid : UInt8) :
    OffsetUsable m len tlvid ↔ SearchSound m len tlvid :=
  ⟨fun h => h.searchSound hmax, fun h => h.offsetUsable hmax⟩

/-- A message with one TLV. -/
def oneTlv : ℕ → UInt8 :=
  memory [0x00, 0x01, 0x00, 0x20, 0x00, 0x04, 0x00, 0x12, 0x01, 0x00, 0x07] fun _ => 0

/-- Its TLV is found. -/
theorem offset_usable_oneTlv : OffsetUsable oneTlv 11 0x12 := by
  have hchain : ∀ p, SearchAt oneTlv 11 0x12 p → p = 7 := by
    rintro p ⟨-, hp⟩
    induction hp with
    | start => rfl
    | next _ _ hne _ _ ih =>
      subst ih
      exact absurd (by decide) hne
  refine (offset_usable_iff oneTlv 11 (by decide) 0x12).2 ⟨fun p hp _ hne => ?_, fun p hp => ?_⟩
  · obtain rfl := hchain p hp
    exact absurd (by decide) hne
  · obtain rfl := hchain p hp.1
    refine ⟨by decide, fun q hq _ hne => ?_⟩
    obtain rfl := hchain q hq
    exact absurd (by decide) hne

/-- A message whose TLV claims more bytes than it has. -/
def overrun : ℕ → UInt8 :=
  memory [0x00, 0x01, 0x00, 0x20, 0x00, 0x04, 0x00, 0x01, 0x10, 0x00, 0x07] fun _ => 0

/-- The offset found in it is `65514`. -/
theorem overrun_not_usable : ¬ OffsetUsable overrun 11 0x12 := by
  intro h
  obtain ⟨-, hle, -⟩ := (h 1 65514 (by decide)).1 (by decide)
  omega

end Imsd
