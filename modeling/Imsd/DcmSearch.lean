import Imsd.Lib.Fuel
import Imsd.Dcm

/-!
# Searching a datagram for a TLV

A datagram holds whatever its sender put there.  Where a search looks (`SearchAt`) and what it
finds (`FoundAt`) are told from the bytes.  A search for a TLV fits (`SearchFits`) when every TLV
header it comes to lies in the datagram, the value of the TLV it finds does, too, and every TLV
that it passes ends in the datagram: else `get_tlv_offset_by_id` returns `-EINVAL`, which its
caller takes for an offset.

`safe_search_iff` and `returns_search_iff` are the specification of a search on arbitrary bytes:
when it reads the datagram only, and what it can return.  It need not return at all.
-/

namespace Imsd

open Bytes Exec Fueled WhileLoop

/-- An access within a datagram of `len` bytes and within the two arrays. -/
def Access.InBounds (len : ℕ) : Access → Prop
  | .read i => i < len
  | .session i => i < maxSimSlots
  | .out (.networkStart slot) => slot.toNat < maxSimSlots
  | .out (.sendto _ _) => True

/-! ### Where a search looks -/

section Condition

variable (m : ℕ → UInt8) (len : ℕ)

/-- The search for the TLV looks at offset `p`. -/
def SearchAt (tlvid : UInt8) (p : ℕ) : Prop :=
  sizeofQmiPacket + 4 ≤ len ∧ OnChain m len (fun c => m c = tlvid) p

/-- The search finds the TLV at offset `p`. -/
def FoundAt (tlvid : UInt8) (p : ℕ) : Prop := SearchAt m len tlvid p ∧ p < len ∧ m p = tlvid

/-- The search finds the TLV, or comes to the end of the message. -/
def SearchEnds (tlvid : UInt8) : Prop :=
  len < sizeofQmiPacket + 4 ∨ (∃ p, FoundAt m len tlvid p) ∨ SearchAt m len tlvid len

/-- The search stays in the message, and `width` bytes of the value it finds do. -/
def SearchFits (tlvid : UInt8) (width : ℕ) : Prop :=
  ∀ p, SearchAt m len tlvid p → p < len →
    p + 3 ≤ len ∧
      if m p = tlvid then p + 3 + width ≤ len else 0 < nextByte m p ∧ nextByte m p ≤ len

end Condition

section Search

variable {m : ℕ → UInt8} {len : ℕ} {tlvid : UInt8}

theorem SearchAt.le {p : ℕ} (h : SearchAt m len tlvid p) : p ≤ len := by
  obtain ⟨hlen, h⟩ := h
  cases h with
  | start => omega
  | next _ _ _ _ hle => exact hle

theorem SearchAt.pos {p : ℕ} (h : SearchAt m len tlvid p) : 0 < p := by
  obtain ⟨-, h⟩ := h
  cases h with
  | start => decide
  | next _ _ _ h0 _ => exact h0

theorem log_load (i w : ℕ) : (load m i w).log = (List.range w).map (i + ·) := rfl

theorem log_foundById (c : ℕ) :
    (foundById m tlvid c).log = c :: if m c = tlvid then [c + 1, c + 2] else [] := by
  have h : loadLE m c 1 = (m c).toNat := by simp [loadLE]
  rw [foundById, Traced.bind_of_some (res_load m c 1), h]
  by_cases ht : m c = tlvid
  · rw [if_pos ht, if_pos (congrArg UInt8.toNat ht), Traced.bind_of_some (res_load m (c + 1) 2)]
    rfl
  · rw [if_neg ht, if_neg (mt UInt8.toNat_inj.1 ht)]
    rfl

/-- A pass reads the header under its cursor. -/
theorem log_tlvOffsetPass (w : Walk) :
    (tlvOffsetPass m len tlvid w).log =
      if w.curByte < len then [w.curByte, w.curByte + 1, w.curByte + 2] else [] := by
  unfold tlvOffsetPass tlvPass
  by_cases hc : w.curByte < len
  · rw [if_pos hc, if_pos hc, Traced.bind_of_some (res_foundById m tlvid w.curByte),
      log_foundById]
    by_cases ht : m w.curByte = tlvid
    · simp [ht]
    · simp only [if_neg ht]
      rw [Traced.bind_of_some (res_load m (w.curByte + 1) 2), log_load]
      split_ifs <;> rfl
  · rw [if_neg hc, if_neg hc]
    rfl

/-- The cursors of the loop are where the search looks. -/
theorem visits_iff_searchAt (hlen : sizeofQmiPacket + 4 ≤ len) (p : ℕ) :
    (∃ k, Visits (tlvOffsetPass m len tlvid) Walk.start ⟨p, k⟩) ↔ SearchAt m len tlvid p := by
  have h : (∃ k, Visits (tlvOffsetPass m len tlvid) Walk.start ⟨p, k⟩) ↔ OnChain m len _ p :=
    visits_iff_onChain (res_foundById m tlvid) p
  rw [stop_foundById] at h
  exact h.trans (iff_and_self.2 fun _ => hlen)

/-- What a search returns: where it found the TLV, `-EINVAL` when a TLV it passed does not end in
the message, and `0` at the end. -/
def SearchReturns (m : ℕ → UInt8) (len : ℕ) (tlvid : UInt8) (offset : ℕ) : Prop :=
  (len < sizeofQmiPacket + 4 ∧ offset = 0) ∨
    ∃ p, SearchAt m len tlvid p ∧
      (offset = if p < len then (if m p = tlvid then p else 65536 - einval) else 0) ∧
      (p < len → m p ≠ tlvid → ¬ (0 < nextByte m p ∧ nextByte m p ≤ len))

/-- Where the TLV is found, its offset is returned. -/
theorem FoundAt.searchReturns {p : ℕ} (h : FoundAt m len tlvid p) :
    SearchReturns m len tlvid p := by
  obtain ⟨hp, hlt, ht⟩ := h
  exact Or.inr ⟨p, hp, by rw [if_pos hlt, if_pos ht], fun _ hne => absurd ht hne⟩

/-- Where the cursor leaves the message, `-EINVAL` is. -/
theorem SearchAt.searchReturns_einval {p : ℕ} (h : SearchAt m len tlvid p) (hlt : p < len)
    (hne : m p ≠ tlvid) (hbad : ¬ (0 < nextByte m p ∧ nextByte m p ≤ len)) :
    SearchReturns m len tlvid (65536 - einval) :=
  Or.inr ⟨p, h, by rw [if_pos hlt, if_neg hne], fun _ _ => hbad⟩

/-- The passes that return. -/
theorem return_tlvOffsetPass_iff {w : Walk} {offset : ℕ} :
    (tlvOffsetPass m len tlvid w).res = some (.inr offset) ↔
      (offset = if w.curByte < len then (if m w.curByte = tlvid then w.curByte else 65536 - einval)
        else 0) ∧
      (w.curByte < len → m w.curByte ≠ tlvid →
        ¬ (0 < nextByte m w.curByte ∧ nextByte m w.curByte ≤ len)) := by
  rw [tlvOffsetPass, res_tlvPass (res_foundById m tlvid)]
  by_cases hc : w.curByte < len
  · by_cases ht : m w.curByte = tlvid
    · simp [hc, ht, eq_comm]
    · have hbad : (nextByte m w.curByte ≤ 0 ∨ nextByte m w.curByte > len) ↔
          ¬ (0 < nextByte m w.curByte ∧ nextByte m w.curByte ≤ len) := by omega
      by_cases hn : 0 < nextByte m w.curByte ∧ nextByte m w.curByte ≤ len
      · simp only [hc, ht, if_true, if_false, hbad]
        simp [hn, ht]
      · simp only [hc, ht, if_true, if_false, hbad]
        simp [hn, eq_comm]
  · simp [hc, eq_comm]

/-- **What a search returns.** -/
theorem exists_res_getTlvOffsetById_iff {offset : ℕ} :
    (∃ n, (getTlvOffsetById n m len tlvid).res = some offset) ↔
      SearchReturns m len tlvid offset := by
  by_cases hlen : len < sizeofQmiPacket + 4
  · simp only [getTlvOffsetById, tlvWalk, if_pos hlen]
    constructor
    · rintro ⟨-, hr⟩
      exact Or.inl ⟨hlen, (Option.some.inj hr).symm⟩
    · rintro (⟨-, rfl⟩ | ⟨p, hp, -⟩)
      · exact ⟨0, rfl⟩
      · exact absurd hp.1 (by omega)
  · simp only [getTlvOffsetById, tlvWalk, if_neg hlen]
    constructor
    · rintro ⟨n, hr⟩
      obtain ⟨w, hw, hr⟩ := exists_visits_of_res hr
      exact Or.inr ⟨w.curByte, (visits_iff_searchAt (by omega) _).1 ⟨w.numTlvs, hw⟩,
        return_tlvOffsetPass_iff.1 hr⟩
    · rintro (⟨hshort, -⟩ | ⟨p, hp, hr⟩)
      · exact absurd hshort hlen
      · obtain ⟨k, hk⟩ := (visits_iff_searchAt (by omega) p).2 hp
        exact exists_res_of_visits hk (return_tlvOffsetPass_iff.2 hr)

end Search

section Datagram

variable (d : Datagram) {tlvid : UInt8} {server server' : QRTRServer}

theorem search_of_long (hlen : sizeofQmiPacket + 4 ≤ d.inbuffLen) (tlvid : UInt8) :
    (fun n => recv (getTlvOffsetById n d.inbuff d.inbuffLen tlvid)) = fun n =>
      Exec.lift ((run (tlvOffsetPass d.inbuff d.inbuffLen tlvid) n Walk.start).mapLog
        Access.read) := by
  funext n
  rw [getTlvOffsetById, tlvWalk, if_neg (by omega)]
  rfl

theorem search_of_short (hlen : d.inbuffLen < sizeofQmiPacket + 4) (tlvid : UInt8) :
    (fun n => recv (getTlvOffsetById n d.inbuff d.inbuffLen tlvid)) = fun _ => pure 0 := by
  funext n
  rw [getTlvOffsetById, tlvWalk, if_pos hlen]
  rfl

theorem fueled_search (tlvid : UInt8) :
    Fueled fun n => recv (getTlvOffsetById n d.inbuff d.inbuffLen tlvid) := by
  by_cases hlen : d.inbuffLen < sizeofQmiPacket + 4
  · rw [search_of_short d hlen]
    exact .const _
  · rw [search_of_long d (by omega)]
    exact .loop _ _ _

/-- **When a search stays in the datagram.** -/
theorem safe_search_iff :
    Safe (Access.InBounds d.inbuffLen)
        (fun n => recv (getTlvOffsetById n d.inbuff d.inbuffLen tlvid)) server ↔
      ∀ p, SearchAt d.inbuff d.inbuffLen tlvid p → p < d.inbuffLen → p + 3 ≤ d.inbuffLen := by
  by_cases hlen : d.inbuffLen < sizeofQmiPacket + 4
  · rw [search_of_short d hlen, safe_const_iff]
    exact iff_of_true (by simp) fun p hp => absurd hp.1 (by omega)
  · rw [search_of_long d (by omega)]
    constructor
    · intro h p hp hlt
      -- the last byte of the header under a visited cursor is read
      obtain ⟨k, hk⟩ := (visits_iff_searchAt (by omega) p).2 hp
      have hread : p + 2 ∈ (tlvOffsetPass d.inbuff d.inbuffLen tlvid ⟨p, k⟩).log := by
        rw [log_tlvOffsetPass, if_pos hlt]
        simp
      obtain ⟨n, hn⟩ := exists_mem_log_of_visits hk hread
      exact h n _ (List.mem_map_of_mem hn)
    · intro h n e he
      obtain ⟨a, ha, rfl⟩ := List.mem_map.1 he
      obtain ⟨w, hw, ha⟩ := exists_visits_of_mem_log ha
      rw [log_tlvOffsetPass] at ha
      split_ifs at ha with hlt
      · have := h w.curByte ((visits_iff_searchAt (by omega) _).1 ⟨w.numTlvs, hw⟩) hlt
        show a < d.inbuffLen
        simp at ha
        omega
      · simp at ha

/-- What a search of the datagram returns; it leaves the server alone. -/
theorem returns_search_iff {offset : ℕ} :
    Returns (fun n => recv (getTlvOffsetById n d.inbuff d.inbuffLen tlvid)) server server' offset ↔
      server' = server ∧ SearchReturns d.inbuff d.inbuffLen tlvid offset := by
  rw [← exists_res_getTlvOffsetById_iff]
  constructor
  · rintro ⟨n, hs, hr⟩
    exact ⟨hs.symm, n, hr⟩
  · rintro ⟨rfl, n, hr⟩
    exact ⟨n, rfl, hr⟩

/-! ### Searches that fit -/

/-- A search that fits returns the offset it found, or `0`. -/
theorem SearchFits.returns_iff {width offset : ℕ}
    (hfits : SearchFits d.inbuff d.inbuffLen tlvid width) :
    SearchReturns d.inbuff d.inbuffLen tlvid offset ↔
      FoundAt d.inbuff d.inbuffLen tlvid offset ∨
        offset = 0 ∧ (d.inbuffLen < sizeofQmiPacket + 4 ∨
          SearchAt d.inbuff d.inbuffLen tlvid d.inbuffLen) := by
  constructor
  · rintro (⟨hshort, rfl⟩ | ⟨p, hp, hoff, hbad⟩)
    · exact Or.inr ⟨rfl, Or.inl hshort⟩
    · by_cases hlt : p < d.inbuffLen
      · rw [if_pos hlt] at hoff
        by_cases ht : d.inbuff p = tlvid
        · rw [if_pos ht] at hoff
          subst hoff
          exact Or.inl ⟨hp, hlt, ht⟩
        · have := (hfits p hp hlt).2
          rw [if_neg ht] at this
          exact absurd this (hbad hlt ht)
      · rw [if_neg hlt] at hoff
        obtain rfl : p = d.inbuffLen := le_antisymm hp.le (by omega)
        exact Or.inr ⟨hoff, Or.inr hp⟩
  · rintro (hfound | ⟨rfl, hshort | hp⟩)
    · exact hfound.searchReturns
    · exact Or.inl ⟨hshort, rfl⟩
    · exact Or.inr ⟨d.inbuffLen, hp, by rw [if_neg (lt_irrefl _)],
        fun hlt => absurd hlt (lt_irrefl _)⟩

/-- A search fits when its reads lie in the datagram, and the bytes at the offset it returns
do. -/
theorem searchFits_iff (width : ℕ) :
    SearchFits d.inbuff d.inbuffLen tlvid width ↔
      (∀ p, SearchAt d.inbuff d.inbuffLen tlvid p → p < d.inbuffLen → p + 3 ≤ d.inbuffLen) ∧
      ∀ offset, SearchReturns d.inbuff d.inbuffLen tlvid offset → 0 < offset →
        offset + 3 + width ≤ d.inbuffLen := by
  constructor
  · refine fun h => ⟨fun p hp hlt => (h p hp hlt).1, fun offset hoff h0 => ?_⟩
    rcases (SearchFits.returns_iff d h).1 hoff with ⟨hp, hlt, ht⟩ | ⟨rfl, -⟩
    · have := (h offset hp hlt).2
      rwa [if_pos ht] at this
    · exact absurd h0 (lt_irrefl 0)
  · rintro ⟨hreads, hvalue⟩ p hp hlt
    refine ⟨hreads p hp hlt, ?_⟩
    split_ifs with ht
    · exact hvalue p (FoundAt.searchReturns ⟨hp, hlt, ht⟩) hp.pos
    · by_contra hbad
      -- the search returns `-EINVAL`, which lies behind every datagram
      have := hvalue _ (hp.searchReturns_einval hlt ht hbad) (by decide)
      have hmax := d.inbuffLen_le
      have he : einval = 22 := rfl
      omega

/-- What the searches of the handler return to, with the state left out. -/
theorem exists_returns_iff {width : ℕ} (hfits : SearchFits d.inbuff d.inbuffLen tlvid width) :
    (∃ offset, SearchReturns d.inbuff d.inbuffLen tlvid offset) ↔
      SearchEnds d.inbuff d.inbuffLen tlvid := by
  simp only [SearchFits.returns_iff d hfits, SearchEnds, exists_or, exists_eq_left]
  tauto

theorem exists_pos_returns_iff {width : ℕ} (hfits : SearchFits d.inbuff d.inbuffLen tlvid width) :
    (∃ offset, SearchReturns d.inbuff d.inbuffLen tlvid offset ∧ 0 < offset) ↔
      ∃ p, FoundAt d.inbuff d.inbuffLen tlvid p := by
  simp only [SearchFits.returns_iff d hfits]
  constructor
  · rintro ⟨offset, h | ⟨rfl, -⟩, h0⟩
    · exact ⟨offset, h⟩
    · exact absurd h0 (lt_irrefl 0)
  · rintro ⟨p, hp⟩
    exact ⟨p, Or.inl hp, hp.1.pos⟩

end Datagram

end Imsd
