import Imsd.McfgWalk

/-!
# What is recorded of a footer

`analyze_footer` records each section of the footer in `footer_items`.  Where the walk stops does
not depend on the sections themselves: it is computed from the length of the footer and the marker
at its end, and the padding has a part in it.  `records_sections` is for any list of sections and
any padding: nothing is left out, nothing of the padding is taken for a section, and the records
behind the last section are clear.
-/

namespace Imsd

open Bytes Exec

variable {buf : FileBuffer} {c : ℕ} {rest : List UInt8}

/-- The record of a section in a cleared one. -/
def McfgSection.record (t : McfgSection) : McfgFooterSection :=
  ⟨UInt8.ofNat t.id.code, UInt16.ofNat t.encode.length,
    t.encode ++ List.replicate (maxObjSize - t.encode.length) 0⟩

/-! ### Records -/

/-- A section lies where the walk makes its record from. -/
theorem sectionRecord_of_holds {t : McfgSection} (h : Holds buf.byte c (t.encode ++ rest)) :
    buf.sectionRecord c McfgFooterSection.zero = t.record := by
  have hid : loadLE buf.byte c 1 = (UInt8.ofNat t.id.code).toNat := by
    rw [McfgSection.encode, List.cons_append] at h
    exact loadLE_byte h
  have hbytes : bytesAt buf.byte c t.encode.length = t.encode :=
    bytesAt_of_holds (holds_append.1 h).1
  rw [FileBuffer.sectionRecord, sectionEnd_of_holds h, Nat.add_sub_cancel_left, hid, hbytes,
    UInt8.ofNat_toNat, McfgFooterSection.zero, copyInto, List.drop_replicate, McfgSection.record]

namespace FileBuffer

variable (buf : FileBuffer)

/-- What the `switch` changes is no record. -/
theorem footerItems_switchSection (a : ℕ) (s : LocateState) :
    (buf.switchSection a s).footerItems = s.footerItems := by
  unfold switchSection
  cases buf.sectionId a with
  | none => rfl
  | some id => cases id <;> rfl

/-- The records of sections, in order: the others stay as they are. -/
theorem footerItems_takeSections (as : List ℕ) : ∀ (k : ℕ) (s : LocateState),
    (∀ j < k, (buf.takeSections as k s).footerItems j = s.footerItems j) ∧
      ∀ j, (buf.takeSections as k s).footerItems (k + j) =
        (as[j]?.elim id buf.sectionRecord) (s.footerItems (k + j)) := by
  induction as with
  | nil => exact fun k s => ⟨fun _ _ => rfl, fun _ => rfl⟩
  | cons a as ih =>
    intro k s
    let s' := buf.recordSection k a (buf.switchSection a s)
    have hitems : s'.footerItems =
        Function.update s.footerItems k (buf.sectionRecord a (s.footerItems k)) := by
      simp only [s', recordSection, footerItems_switchSection]
    obtain ⟨hbefore, hrecords⟩ := ih (k + 1) s'
    refine ⟨fun j hj => ?_, fun j => ?_⟩
    · rw [takeSections, hbefore j (by omega), hitems, Function.update_of_ne (by omega)]
    · cases j with
      | zero =>
        show (buf.takeSections as (k + 1) s').footerItems k = buf.sectionRecord a (s.footerItems k)
        rw [hbefore k (by omega), hitems, Function.update_self]
      | succ j =>
        have hindex : k + (j + 1) = k + 1 + j := by omega
        rw [takeSections, hindex, hrecords j, hitems, Function.update_of_ne (by omega),
          List.getElem?_cons_succ]

end FileBuffer

/-! ### Sections -/

/-- The sections lie one behind the other. -/
theorem iterate_sectionEnd_of_holds {sections : List McfgSection} :
    ∀ {c : ℕ}, Holds buf.byte c (encodeSections sections ++ rest) → ∀ n ≤ sections.length,
      buf.sectionEnd^[n] c = c + (encodeSections (sections.take n)).length := by
  induction sections with
  | nil =>
    intro c _ n hn
    obtain rfl : n = 0 := by simpa using hn
    rfl
  | cons t sections ih =>
    intro c h n hn
    rw [encodeSections_cons, List.append_assoc] at h
    cases n with
    | zero => rfl
    | succ n =>
      rw [Function.iterate_succ_apply, sectionEnd_of_holds h,
        ih (holds_append.1 h).2 n (by simpa using hn), List.take_succ_cons, encodeSections_cons,
        List.length_append]
      omega

/-- The records of sections, by their data. -/
theorem sectionRecords_of_holds {as : List ℕ} {sections : List McfgSection}
    (h : List.Forall₂ (fun a (t : McfgSection) => ∃ tail, Holds buf.byte a (t.encode ++ tail))
      as sections) (k : ℕ) :
    (as[k]?.elim id buf.sectionRecord) McfgFooterSection.zero =
      (sections[k]?.map McfgSection.record).getD McfgFooterSection.zero := by
  induction h generalizing k with
  | nil => rfl
  | cons hfirst hrest ih =>
    cases k with
    | zero =>
      obtain ⟨tail, hfirst⟩ := hfirst
      exact sectionRecord_of_holds hfirst
    | succ k => simpa using ih k

/-- The footer is accepted if the walk comes to its last section. -/
theorem footerResult_of_holds {footer : McfgFooter} (h : Holds buf.byte c (footer.encode ++ rest))
    (hlt : footer.size < 65536) :
    buf.footerResult c footer.size =
      if footer.sections.length ≤ maxFooterSections then 0 else -(enospc : ℤ) := by
  obtain ⟨hheader, hstop, tail, hsections⟩ := footer_of_holds h hlt
  have hpadding := footer.padding_le
  have hiterate := iterate_sectionEnd_of_holds hsections
  by_cases hlen : footer.sections.length ≤ maxFooterSections
  · have haccepted : buf.FooterAccepted c footer.size := by
      refine ⟨hheader, ?_⟩
      have hend := hiterate footer.sections.length le_rfl
      have hle := buf.le_iterate_sectionEnd (maxFooterSections - footer.sections.length)
        (buf.sectionEnd^[footer.sections.length] (c + 20))
      rw [← Function.iterate_add_apply, Nat.sub_add_cancel hlen, hend, List.take_length] at hle
      rw [hstop]
      omega
    rw [if_pos hlen, FileBuffer.footerResult, if_pos haccepted]
  · have hrefused : ¬ buf.FooterAccepted c footer.size := by
      rintro ⟨-, hle⟩
      have hmore : footer.sections.drop maxFooterSections ≠ [] := by
        simpa [List.drop_eq_nil_iff] using hlen
      have hpos := length_encodeSections_pos hmore
      have hsplit : (encodeSections footer.sections).length =
          (encodeSections (footer.sections.take maxFooterSections)).length +
            (encodeSections (footer.sections.drop maxFooterSections)).length := by
        rw [← List.length_append, encodeSections, encodeSections, encodeSections,
          ← List.flatMap_append, List.take_append_drop]
      rw [hstop, hiterate maxFooterSections (Nat.le_of_not_le hlen)] at hle
      omega
    rw [if_neg hlen, FileBuffer.footerResult, if_neg hrefused, if_pos hheader]

/-- **What is recorded of a footer**, and what is returned: for up to 16 sections, all of them and
zero, and for more, the first 16 and an error. -/
theorem records_sections (buf : FileBuffer) (f : ℕ) (footer : McfgFooter) (s : LocateState)
    (hholds : Holds buf.byte f footer.encode) (hne : footer.sections ≠ [])
    (hsize : footer.size ≤ 65535) :
    (analyzeFooter buf f footer.size s).2.res =
        some (if footer.sections.length ≤ maxFooterSections then 0 else -(enospc : ℤ)) ∧
      ∀ k, (analyzeFooter buf f footer.size s).1.footerItems k =
        (((footer.sections.take maxFooterSections)[k]?).map McfgSection.record).getD
          McfgFooterSection.zero := by
  have hlt : footer.size < 65536 := Nat.lt_succ_of_le hsize
  rw [← List.append_nil footer.encode] at hholds
  have hsurvived := footerSurvived_of_holds hholds hlt hne
  rw [(analyzeFooter_performs f footer.size).apply
    ((FileBuffer.survived_footerLog f footer.size).2 hsurvived) s]
  refine ⟨congrArg some (footerResult_of_holds hholds hlt), fun k => ?_⟩
  have hmet := footerSectionsMet_of_holds hholds hlt hne
  obtain ⟨-, hrecords⟩ := buf.footerItems_takeSections (buf.footerSectionsMet f footer.size) 0
    { s with footerItems := fun _ => McfgFooterSection.zero }
  rw [← sectionRecords_of_holds hmet k, FileBuffer.takeFooter]
  have hrecord := hrecords k
  rwa [Nat.zero_add] at hrecord

/-- A footer with two sections, and three bytes of padding. -/
def paddedFooter : McfgFooter where
  sizeTrimmed := 20
  sections := [.version1 256, .profileName [0x52, 0x4f, 0x57] [] (by simp) (by decide)]
  padding := [7, 7, 7]
  padding_le := by decide

theorem records_sections_paddedFooter :
    (analyzeFooter (.read paddedFooter.encode []) 0 paddedFooter.size .initial).2.res = some 0 ∧
      (analyzeFooter (.read paddedFooter.encode []) 0 paddedFooter.size .initial).1.footerItems 1 =
        ⟨3, 7, [3, 4, 0, 0x52, 0x4f, 0x57, 0] ++ List.replicate 57 0⟩ ∧
      (analyzeFooter (.read paddedFooter.encode []) 0 paddedFooter.size .initial).1.footerItems 2 =
        McfgFooterSection.zero := by
  obtain ⟨hres, hrecords⟩ := records_sections (.read paddedFooter.encode []) 0 paddedFooter
    .initial (FileBuffer.holds_read (by decide) []) (by decide) (by decide)
  exact ⟨hres, hrecords 1, hrecords 2⟩

end Imsd
