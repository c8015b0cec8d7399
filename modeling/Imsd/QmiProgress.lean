import Imsd.QmiUtil

/-!
# Do the TLV walkers get on?

The cursor of a walk has 16 bits, and the length it moves by comes from the wire.  A TLV at `p`
whose length field `L` satisfies `65533 - p < L ≤ 65533` sends the cursor round to where it was,
or before that (`LengthAdvances` excludes these, and `L = 65535` at `p = 65535`).  The check
`cur_byte <= 0 || cur_byte > len` does not see it.

`walkProgresses_iff`: a walk returns, with every pass that does not return increasing the cursor,
exactly when no TLV it passes has such a length.  `lengthLoop` is a datagram of 11 bytes on which
the three walkers never return.
-/

namespace Imsd

open WhileLoop

/-- The length field at `p` does not send the 16-bit cursor back to `p` or before it. -/
def LengthAdvances (m : ℕ → UInt8) (p : ℕ) : Prop :=
  ¬ (65533 < p + Bytes.loadLE m (p + 1) 2 ∧ Bytes.loadLE m (p + 1) 2 ≤ 65533) ∧
  ¬ (p = 65535 ∧ Bytes.loadLE m (p + 1) 2 = 65535)

/-- Every TLV that the walk passes has a length field that advances the cursor. -/
def LengthsAdvance (m : ℕ → UInt8) (len : ℕ) (stop : ℕ → Prop) : Prop :=
  sizeofQmiPacket + 4 ≤ len →
    ∀ p, OnChain m len stop p → p < len → ¬ stop p → LengthAdvances m p

/-- The function returns, and every pass of its loop that does not return increases the
cursor. -/
def WalkProgresses (len : ℕ) (walker : ℕ → Traced ℕ ℕ) (pass : Walk → Traced ℕ (Walk ⊕ ℕ)) :
    Prop :=
  (∃ n r, (walker n).res = some r) ∧
  (sizeofQmiPacket + 4 ≤ len →
    ∀ w w', Visits pass Walk.start w → Next pass w w' → w.curByte < w'.curByte)

/-- The arithmetic of one pass: the cursor fails to advance, without leaving the message, exactly
when the length field is one of the excluded ones. -/
theorem lengthAdvances_iff (m : ℕ → UInt8) {p : ℕ} (hp : p < 65536) :
    LengthAdvances m p ↔ (0 < nextByte m p → p < nextByte m p) := by
  have hL := Bytes.loadLE_lt m (p + 1) 2
  unfold LengthAdvances nextByte
  generalize Bytes.loadLE m (p + 1) 2 = L at *
  omega

section Generic

variable {m : ℕ → UInt8} {len : ℕ} {found : ℕ → Traced ℕ (Option ℕ)} {overrun finish : ℕ → ℕ}
  {ret : ℕ → Option ℕ}

/-- A cursor that advances on every pass ends the walk: it stays below the message's end. -/
theorem ends_of_advances (hret : ∀ c, (found c).res = some (ret c))
    (hadv : ∀ w w', Visits (tlvPass m len found overrun finish) Walk.start w →
      Next (tlvPass m len found overrun finish) w w' → w.curByte < w'.curByte) :
    Ends (tlvPass m len found overrun finish) Walk.start := by
  refine ends_of_variant (fun w => len - w.curByte) (fun _ _ => isSome_tlvPass hret) ?_
  intro w w' hv hn
  have hlt := hadv w w' hv hn
  have hc := ((next_tlvPass_iff hret).1 hn).1
  show len - w'.curByte < len - w.curByte
  omega

/-- **When a walk progresses.** -/
theorem walkProgresses_iff (hret : ∀ c, (found c).res = some (ret c)) (short : ℕ) :
    WalkProgresses len (fun n => tlvWalk n len short (tlvPass m len found overrun finish))
        (tlvPass m len found overrun finish) ↔
      LengthsAdvance m len (fun c => ret c ≠ none) := by
  constructor
  · rintro ⟨-, hadv⟩ hlen p hp hpl hs
    obtain ⟨k, hk⟩ : ∃ k, Visits (tlvPass m len found overrun finish) Walk.start ⟨p, k⟩ :=
      (visits_iff_onChain hret p).2 hp
    rw [lengthAdvances_iff m hp.lt]
    intro h0
    by_contra hle
    -- the walk stays in the message, so the pass goes on without advancing
    have hnext : Next (tlvPass m len found overrun finish) ⟨p, k⟩ ⟨nextByte m p, (k + 1) % 65536⟩ :=
      (next_tlvPass_iff hret).2 ⟨hpl, by simpa using hs, ⟨h0, by dsimp only; omega⟩, rfl⟩
    exact hle (hadv hlen _ _ hk hnext)
  · intro hL
    have hadv : sizeofQmiPacket + 4 ≤ len →
        ∀ w w', Visits (tlvPass m len found overrun finish) Walk.start w →
          Next (tlvPass m len found overrun finish) w w' → w.curByte < w'.curByte := by
      intro hlen w w' hv hn
      obtain ⟨hc, hr, ⟨h0, -⟩, rfl⟩ := (next_tlvPass_iff hret).1 hn
      have hp := (visits_iff_onChain hret w.curByte).1 ⟨w.numTlvs, hv⟩
      exact (lengthAdvances_iff m hp.lt).1 (hL hlen w.curByte hp hc (by simpa using hr)) h0
    refine ⟨?_, hadv⟩
    by_cases hlen : len < sizeofQmiPacket + 4
    · exact ⟨0, short, by simp [tlvWalk, hlen]⟩
    · obtain ⟨n, r, hr⟩ := ends_of_advances hret (hadv (by omega))
      exact ⟨n, r, by simpa [tlvWalk, hlen] using hr⟩

/-- A walk that passes a TLV leading back to its own offset never ends. -/
theorem not_ends_of_self (hret : ∀ c, (found c).res = some (ret c)) {k : ℕ}
    {p : ℕ} (hp : p < len) (hs : ret p = none) (h0 : 0 < p) (hn : nextByte m p = p) :
    ¬ Ends (tlvPass m len found overrun finish) ⟨p, k⟩ :=
  not_ends_of_keeps (fun w => w.curByte = p)
    (fun w hw => ⟨_, (next_tlvPass_iff hret).2
      ⟨by omega, by rw [hw]; exact hs, by rw [hw, hn]; omega, rfl⟩, by rw [hw]; exact hn⟩) rfl

end Generic

theorem stop_foundResult (m : ℕ → UInt8) :
    (fun c => (if m c = 0x02 ∧ Bytes.loadLE m (c + 1) 2 = 4 then
      some (Bytes.loadLE m (c + 3) 2) else none) ≠ none) =
      fun c => m c = 0x02 ∧ Bytes.loadLE m (c + 1) 2 = 4 := by
  funext c
  by_cases h : m c = 0x02 ∧ Bytes.loadLE m (c + 1) 2 = 4
  · simp only [if_pos h, eq_iff_iff, iff_true_right h]; simp
  · simp only [if_neg h, eq_iff_iff, iff_false_right h]; simp

/-- **The three walkers progress exactly when no TLV they pass has a length field that wraps the
cursor to its own offset or before it.** -/
theorem walkers_progress_iff (m : ℕ → UInt8) (len : ℕ) (tlvid : UInt8) :
    (WalkProgresses len (fun n => getTlvOffsetById n m len tlvid) (tlvOffsetPass m len tlvid) ↔
      LengthsAdvance m len fun p => m p = tlvid) ∧
    (WalkProgresses len (fun n => didQmiOpFail n m len) (qmiOpPass m len) ↔
      LengthsAdvance m len fun p => m p = 0x02 ∧ Bytes.loadLE m (p + 1) 2 = 4) ∧
    (WalkProgresses len (fun n => countTlvsInMessage n m len) (countPass m len) ↔
      LengthsAdvance m len fun _ => False) := by
  refine ⟨?_, ?_, ?_⟩
  · rw [← stop_foundById m tlvid]
    exact walkProgresses_iff (res_foundById m tlvid) 0
  · rw [← stop_foundResult m]
    exact walkProgresses_iff (res_foundResult m) qmiResultFailure
  · have hret : ∀ c : ℕ, (pure none : Traced ℕ (Option ℕ)).res = some ((fun _ => none) c) :=
      fun _ => rfl
    have h : WalkProgresses len (fun n => countTlvsInMessage n m len) (countPass m len) ↔ _ :=
      walkProgresses_iff hret 0
    simpa using h

/-- A request whose only TLV claims `0xFFFD` bytes. -/
def lengthLoop : ℕ → UInt8 :=
  Bytes.memory [0x00, 0x01, 0x00, 0x20, 0x00, 0x04, 0x00, 0x01, 0xFD, 0xFF, 0x00] fun _ => 0

/-- The walkers never return from it. -/
theorem lengthLoop_never_returns :
    ¬ (∃ n r, (getTlvOffsetById n lengthLoop 11 0x12).res = some r) ∧
    ¬ (∃ n r, (didQmiOpFail n lengthLoop 11).res = some r) ∧
    ¬ (∃ n r, (countTlvsInMessage n lengthLoop 11).res = some r) := by
  have hn : nextByte lengthLoop 7 = 7 := by decide
  refine ⟨?_, ?_, ?_⟩
  · exact not_ends_of_self (res_foundById lengthLoop 0x12) (by decide) (by decide) (by decide) hn
  · exact not_ends_of_self (res_foundResult lengthLoop) (by decide) (by decide) (by decide) hn
  · have hret : ∀ c : ℕ, (pure none : Traced ℕ (Option ℕ)).res = some ((fun _ => none) c) :=
      fun _ => rfl
    exact not_ends_of_self hret (by decide) rfl (by decide) hn

end Imsd
