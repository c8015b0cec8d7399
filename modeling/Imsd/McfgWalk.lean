import Imsd.McfgFormat
import Imsd.PdcLocateWalk

/-!
# Walking well-formed files

Where a structure of the format lies in the buffer, the walk reads its fields and gets to its end:
`itemEnd_of_holds` for an item, `sectionEnd_of_holds` for a section of the footer.  The items of a
segment are therefore found one behind the other (`itemOffset_of_holds`), the sections that the walk
over a footer meets are those of the footer (`footerSectionsMet_of_holds`), and what they leave is
what their data say (`foldl_store_footer`).  All of them fit where they are copied to
(`itemSurvived_itemOffset` and `footerSurvived_of_holds`).
-/

namespace Imsd

open Bytes

variable {buf : FileBuffer} {c : ℕ}

/-- A field of `w` bytes with others behind it. -/
theorem loadLE_field {m : ℕ → UInt8} {w n : ℕ} {rest : List UInt8}
    (h : Holds m c (toLE w n ++ rest)) (hn : n < 256 ^ w) : loadLE m c w = n := by
  rw [loadLE_toLE (holds_append.1 h).1, Nat.mod_eq_of_lt hn]

/-- What lies behind a field. -/
theorem holds_behind {m : ℕ → UInt8} {w n : ℕ} {rest : List UInt8}
    (h : Holds m c (toLE w n ++ rest)) : Holds m (c + w) rest := by
  have hrest := (holds_append.1 h).2
  rwa [length_toLE] at hrest

theorem loadLE_byte {m : ℕ → UInt8} {b : UInt8} {rest : List UInt8} (h : Holds m c (b :: rest)) :
    loadLE m c 1 = b.toNat := by
  have hb := (holds_cons.1 h).1
  simp [loadLE, hb]

/-! ### Items -/

theorem McfgItemType.ofCode_code (type : McfgItemType) :
    McfgItemType.ofCode (UInt8.ofNat type.code).toNat = some type := by
  cases type <;> rfl

theorem McfgFooterSectionId.ofCode_code (id : McfgFooterSectionId) :
    McfgFooterSectionId.ofCode (UInt8.ofNat id.code).toNat = some id := by
  cases id <;> rfl

theorem itemType_of_holds {header : McfgItemHeader} {type : McfgItemType} {rest : List UInt8}
    (h : Holds buf.byte c (header.encode type ++ rest)) : buf.itemType c = some type := by
  rw [McfgItemHeader.encode, List.append_assoc] at h
  rw [FileBuffer.itemType, loadLE_byte (holds_behind h), McfgItemType.ofCode_code]

theorem partEnd_of_holds {part : McfgNvfilePart} {rest : List UInt8}
    (h : Holds buf.byte c (part.encode ++ rest)) :
    buf.partEnd c = c + part.encode.length := by
  have hlt := part.length_bytes_lt
  rw [part.length_encode]
  rw [McfgNvfilePart.encode, List.append_assoc, List.append_assoc] at h
  have hkind : loadLE buf.byte c 2 = part.fileSection := loadLE_field h (by
    cases part <;> simp [McfgNvfilePart.fileSection, efsFilename, efsFilecontents])
  have hknown : loadLE buf.byte c 2 = efsFilename ∨ loadLE buf.byte c 2 = efsFilecontents := by
    rw [hkind]
    cases part with
    | filename bytes h => exact Or.inl rfl
    | filecontents bytes h => exact Or.inr rfl
  rw [FileBuffer.partEnd, if_pos hknown, loadLE_field (holds_behind h) hlt]
  omega

/-- The type of an item. -/
def McfgItem.type : McfgItem → McfgItemType
  | nv _ type _ _ _ _ => type
  | file _ type _ _ _ => type

theorem McfgItem.type_ne_foot (item : McfgItem) : item.type ≠ .foot := by
  cases item with
  | nv header type hmem id payload h =>
    rintro rfl
    simp [McfgItemType.nvTypes] at hmem
  | file header type hmem first second =>
    rintro rfl
    simp [McfgItemType.fileTypes] at hmem

theorem McfgItem.itemType_of_holds {item : McfgItem} {rest : List UInt8}
    (h : Holds buf.byte c (item.encode ++ rest)) : buf.itemType c = some item.type := by
  cases item with
  | nv header type hmem id payload hlen =>
    rw [McfgItem.encode, List.append_assoc] at h
    exact Imsd.itemType_of_holds h
  | file header type hmem first second =>
    rw [McfgItem.encode, List.append_assoc] at h
    exact Imsd.itemType_of_holds h

/-- **The walk gets from an item to its end.** -/
theorem itemEnd_of_holds {item : McfgItem} {rest : List UInt8}
    (h : Holds buf.byte c (item.encode ++ rest)) :
    buf.itemEnd c = c + item.encode.length := by
  have htype := McfgItem.itemType_of_holds h
  unfold FileBuffer.itemEnd
  rw [htype]
  cases item with
  | nv header type hmem id payload hlen =>
    rw [McfgItem.encode, List.append_assoc, holds_append, McfgItemHeader.length_encode,
      List.append_assoc, List.append_assoc] at h
    have hpayload : loadLE buf.byte (c + 8 + 2) 2 = payload.length :=
      loadLE_field (holds_behind h.2) (by norm_num; omega)
    have hend : c + 12 + loadLE buf.byte (c + 10) 2 =
        c + (McfgItem.nv header type hmem id payload hlen).encode.length := by
      rw [show c + 10 = c + 8 + 2 from rfl, hpayload]
      simp [McfgItem.encode]
      omega
    simp only [McfgItemType.nvTypes, List.mem_cons, List.not_mem_nil, or_false] at hmem
    rcases hmem with rfl | rfl
    · exact hend
    · exact hend
  | file header type hmem first second =>
    rw [McfgItem.encode, List.append_assoc, holds_append, McfgItemHeader.length_encode,
      List.append_assoc] at h
    have hsecond := holds_append.1 h.2
    have hend : buf.partEnd (buf.partEnd (c + 8)) =
        c + (McfgItem.file header type hmem first second).encode.length := by
      rw [partEnd_of_holds h.2, partEnd_of_holds hsecond.2]
      simp [McfgItem.encode]
      omega
    simp only [McfgItemType.fileTypes, List.mem_cons, List.not_mem_nil, or_false] at hmem
    rcases hmem with rfl | rfl
    · exact hend
    · exact hend

/-- The recorded size of an item, in 16 bits. -/
theorem itemSize_of_holds {item : McfgItem} {rest : List UInt8}
    (h : Holds buf.byte c (item.encode ++ rest)) :
    buf.itemSize c = item.encode.length % 65536 := by
  rw [FileBuffer.itemSize, itemEnd_of_holds h, nvItemSize]
  omega

/-- The name of a file fits. -/
theorem partFits_of_holds {part : McfgNvfilePart} {rest : List UInt8}
    (h : Holds buf.byte c (part.encode ++ rest)) : buf.PartFits c := by
  rw [McfgNvfilePart.encode, List.append_assoc, List.append_assoc] at h
  intro hname
  rw [loadLE_field (holds_behind h) part.length_bytes_lt]
  cases part with
  | filename bytes hle => exact hle.trans (by decide)
  | filecontents bytes hlt =>
    have hkind : loadLE buf.byte c 2 = efsFilecontents := loadLE_field h (by decide)
    rw [hkind] at hname
    exact absurd hname (by decide)

/-- **The process survives an item.** -/
theorem itemSurvived_of_holds {item : McfgItem} {rest : List UInt8}
    (h : Holds buf.byte c (item.encode ++ rest)) : buf.ItemSurvived c := by
  have htype := McfgItem.itemType_of_holds h
  have hsize := itemSize_of_holds h
  unfold FileBuffer.ItemSurvived
  rw [htype, hsize]
  cases item with
  | nv header type hmem id payload hlen =>
    have hle : (McfgItem.nv header type hmem id payload hlen).encode.length % 65536 ≤
        maxObjSize := by
      simp [McfgItem.encode, maxObjSize]
      omega
    simp only [McfgItemType.nvTypes, List.mem_cons, List.not_mem_nil, or_false] at hmem
    rcases hmem with rfl | rfl
    · exact hle
    · exact hle
  | file header type hmem first second =>
    rw [McfgItem.encode, List.append_assoc, holds_append, McfgItemHeader.length_encode,
      List.append_assoc] at h
    have hparts : buf.PartFits (c + 8) ∧ buf.PartFits (buf.partEnd (c + 8)) := by
      refine ⟨partFits_of_holds h.2, ?_⟩
      rw [partEnd_of_holds h.2]
      exact partFits_of_holds (holds_append.1 h.2).2
    simp only [McfgItemType.fileTypes, List.mem_cons, List.not_mem_nil, or_false] at hmem
    rcases hmem with rfl | rfl
    · exact hparts
    · exact hparts

/-- **The items lie one behind the other.** -/
theorem itemOffset_of_holds {items : List McfgItem} {rest : List UInt8} :
    ∀ {c : ℕ}, Holds buf.byte c (items.flatMap McfgItem.encode ++ rest) →
      ∀ k ≤ items.length,
        buf.itemOffset c k = c + ((items.take k).flatMap McfgItem.encode).length := by
  induction items with
  | nil =>
    intro c _ k hk
    obtain rfl : k = 0 := by simpa using hk
    rfl
  | cons item items ih =>
    intro c h k hk
    rw [List.flatMap_cons, List.append_assoc] at h
    cases k with
    | zero => rfl
    | succ k =>
      have htail := (holds_append.1 h).2
      rw [buf.itemOffset_succ, itemEnd_of_holds h, ih htail k (by simpa using hk),
        List.take_succ_cons, List.flatMap_cons, List.length_append]
      omega

/-- The types of the items. -/
theorem itemType_itemOffset {items : List McfgItem} {rest : List UInt8} :
    ∀ {c : ℕ}, Holds buf.byte c (items.flatMap McfgItem.encode ++ rest) →
      ∀ k (hk : k < items.length), buf.itemType (buf.itemOffset c k) = some items[k].type := by
  induction items with
  | nil => exact fun _ k hk => absurd hk (Nat.not_lt_zero k)
  | cons item items ih =>
    intro c h k hk
    rw [List.flatMap_cons, List.append_assoc] at h
    cases k with
    | zero => exact McfgItem.itemType_of_holds h
    | succ k =>
      have htail := (holds_append.1 h).2
      rw [buf.itemOffset_succ, itemEnd_of_holds h]
      exact ih htail k (by simpa using hk)

/-- The process survives all the items. -/
theorem itemSurvived_itemOffset {items : List McfgItem} {rest : List UInt8} :
    ∀ {c : ℕ}, Holds buf.byte c (items.flatMap McfgItem.encode ++ rest) →
      ∀ k < items.length, buf.ItemSurvived (buf.itemOffset c k) := by
  induction items with
  | nil => exact fun _ k hk => absurd hk (Nat.not_lt_zero k)
  | cons item items ih =>
    intro c h k hk
    rw [List.flatMap_cons, List.append_assoc] at h
    cases k with
    | zero => exact itemSurvived_of_holds h
    | succ k =>
      have htail := (holds_append.1 h).2
      rw [buf.itemOffset_succ, itemEnd_of_holds h]
      exact ih htail k (by simpa using hk)

/-- The items have no footer among them. -/
theorem sectionsMet_of_holds {items : List McfgItem} {rest : List UInt8}
    (h : Holds buf.byte c (items.flatMap McfgItem.encode ++ rest)) {n : ℕ}
    (hn : n ≤ items.length) : buf.sectionsMet c n = [] := by
  rw [FileBuffer.sectionsMet, List.flatMap_eq_nil_iff]
  intro k hk
  have hlt : k < items.length := (List.mem_range.1 hk).trans_le hn
  refine if_neg ?_
  rw [itemType_itemOffset h k hlt]
  exact fun heq => items[k].type_ne_foot (Option.some.inj heq)

/-! ### Sections -/

theorem string_of_holds {name : List UInt8} (hname : ∀ b ∈ name, b ≠ 0) {rest : List UInt8} :
    ∀ {c : ℕ}, Holds buf.byte c (name ++ 0 :: rest) → buf.string c = name := by
  induction name with
  | nil =>
    intro c h
    exact (buf.string_eq_nil_iff c).2 (holds_cons.1 h).1
  | cons b name ih =>
    intro c h
    obtain ⟨hb, htail⟩ := holds_cons.1 h
    rw [buf.string_eq, hb, if_neg (hname b List.mem_cons_self),
      ih (fun b' hb' => hname b' (List.mem_cons_of_mem _ hb')) htail]

/-- What a section leaves, by its data. -/
def McfgSection.store (found : Found) : McfgSection → Found
  | applicableMccMnc mcc mnc =>
    { found with mcc := UInt8.ofNat mcc.toNat, mnc := UInt8.ofNat mnc.toNat }
  | profileName name _ _ _ =>
    { found with internalName := copyInto found.internalName name }
  | _ => found

section Section

variable {t : McfgSection} {rest : List UInt8}

theorem sectionId_of_holds (h : Holds buf.byte c (t.encode ++ rest)) :
    buf.sectionId c = some t.id := by
  rw [McfgSection.encode, List.cons_append] at h
  rw [FileBuffer.sectionId, loadLE_byte h, McfgFooterSectionId.ofCode_code]

theorem sectionEnd_of_holds (h : Holds buf.byte c (t.encode ++ rest)) :
    buf.sectionEnd c = c + t.encode.length := by
  obtain ⟨hpos, hle⟩ := t.length_payload
  rw [t.length_encode]
  rw [McfgSection.encode, List.cons_append, holds_cons, List.append_assoc] at h
  have hlen : loadLE buf.byte (c + 1) 2 = t.payload.length :=
    loadLE_field h.2 (by norm_num; omega)
  rw [FileBuffer.sectionEnd, hlen, if_neg (by omega)]
  omega

/-- What lies behind the three bytes of a section's header. -/
theorem holds_payload (h : Holds buf.byte c (t.encode ++ rest)) :
    Holds buf.byte (c + 3) (t.payload ++ rest) := by
  rw [McfgSection.encode, List.cons_append, holds_cons, List.append_assoc] at h
  have hbehind := holds_behind h.2
  rwa [Nat.add_assoc] at hbehind

theorem store_of_holds (h : Holds buf.byte c (t.encode ++ rest)) (found : Found) :
    buf.store found c = t.store found := by
  have hid := sectionId_of_holds h
  have hpayload := holds_payload h
  unfold FileBuffer.store
  rw [hid]
  cases t with
  | applicableMccMnc mcc mnc =>
    rw [McfgSection.payload, List.append_assoc] at hpayload
    have hmcc : loadLE buf.byte (c + 3) 2 = mcc.toNat := loadLE_field hpayload mcc.toNat_lt
    have hmnc : loadLE buf.byte (c + 3 + 2) 2 = mnc.toNat :=
      loadLE_field (holds_behind hpayload) mnc.toNat_lt
    rw [show c + 3 + 2 = c + 5 from rfl] at hmnc
    simp only [McfgSection.id, hmcc, hmnc]
    rfl
  | profileName name rest' hne hle =>
    rw [McfgSection.payload, List.append_assoc, List.cons_append] at hpayload
    simp only [McfgSection.id, string_of_holds hne hpayload]
    rfl
  | version1 data => rfl
  | version2 data => rfl
  | allowedIccids foot14 iccids hle => rfl
  | carrierVersionId carrierVersion => rfl

/-- A section fits its record, and its name `internal_name`. -/
theorem sectionFits_of_holds (h : Holds buf.byte c (t.encode ++ rest)) : buf.SectionFits c := by
  have hid := sectionId_of_holds h
  have hpayload := holds_payload h
  have hle := t.length_payload.2
  have hlen := t.length_encode
  refine ⟨?_, fun hname => ?_⟩
  · rw [sectionEnd_of_holds h, maxObjSize]
    omega
  · rw [hid, Option.some.injEq] at hname
    cases t with
    | profileName name rest' hne hle' =>
      rw [McfgSection.payload, List.append_assoc, List.cons_append] at hpayload
      rw [string_of_holds hne hpayload]
      omega
    | _ => cases hname

end Section

/-- **The sections lie one behind the other**, and the walk meets them up to its number: it stops
behind the last one, if the stop is less than a section away from its end. -/
theorem sectionsFrom_of_holds {sections : List McfgSection} {rest : List UInt8} {stop : ℕ} :
    ∀ {c : ℕ}, Holds buf.byte c (encodeSections sections ++ rest) → sections ≠ [] →
      c + (encodeSections sections).length ≤ stop + 3 →
      stop ≤ c + (encodeSections sections).length → ∀ n : ℕ,
        List.Forall₂ (fun a (t : McfgSection) => ∃ tail, Holds buf.byte a (t.encode ++ tail))
          (buf.sectionsFrom stop n c) (sections.take n) := by
  induction sections with
  | nil => exact fun _ h => absurd rfl h
  | cons t sections ih =>
    intro c h _ hge hle n
    cases n with
    | zero => exact .nil
    | succ n =>
      rw [encodeSections_cons, List.append_assoc] at h
      rw [encodeSections_cons, List.length_append] at hge hle
      rw [FileBuffer.sectionsFrom, sectionEnd_of_holds h, List.take_succ_cons]
      refine .cons ⟨_, h⟩ ?_
      cases sections with
      | nil =>
        rw [if_pos (by simpa [encodeSections] using hle), List.take_nil]
        exact .nil
      | cons t' sections =>
        -- another section takes four bytes at least
        have hpos := t'.length_payload.1
        have hlen := t'.length_encode
        have hnext : (encodeSections (t' :: sections)).length =
            t'.encode.length + (encodeSections sections).length := by
          rw [encodeSections_cons, List.length_append]
        rw [if_neg (by omega)]
        exact ih (holds_append.1 h).2 (List.cons_ne_nil _ _) (by omega) (by omega) n

/-- What sections leave is what their data say. -/
theorem foldl_store_of_holds {as : List ℕ} {sections : List McfgSection}
    (h : List.Forall₂ (fun a (t : McfgSection) => ∃ tail, Holds buf.byte a (t.encode ++ tail))
      as sections) (found : Found) :
    as.foldl buf.store found = sections.foldl McfgSection.store found := by
  induction h generalizing found with
  | nil => rfl
  | cons hfirst hrest ih =>
    obtain ⟨tail, hfirst⟩ := hfirst
    rw [List.foldl_cons, List.foldl_cons, store_of_holds hfirst, ih]

/-! ### The footer -/

section Footer

variable {footer : McfgFooter} {rest : List UInt8}

/-- The stop, by the padding. -/
theorem maxSectionOffset_eq (footer : McfgFooter) (h : footer.size < 65536) :
    maxSectionOffset footer.len footer.size =
      20 + (encodeSections footer.sections).length - footer.padding.length := by
  have hpadding := footer.padding_le
  have hpad : (footer.size + 2 ^ 32 - footer.len) % 2 ^ 32 = footer.padding.length := by
    unfold McfgFooter.size at h ⊢
    omega
  unfold maxSectionOffset
  dsimp only
  rw [hpad]
  unfold McfgFooter.size at h
  unfold McfgFooter.len at h ⊢
  omega

/-- What `analyze_footer` reads of a footer, and where its sections are. -/
theorem footer_of_holds (h : Holds buf.byte c (footer.encode ++ rest)) (hlt : footer.size < 65536) :
    buf.FooterHeader c footer.size ∧
      buf.footerStop c footer.size =
        c + (20 + (encodeSections footer.sections).length - footer.padding.length) ∧
      ∃ tail, Holds buf.byte (c + 20) (encodeSections footer.sections ++ tail) := by
  have hsize : footer.size = 24 + (encodeSections footer.sections).length + footer.padding.length :=
    rfl
  have hlen : footer.len = 24 + (encodeSections footer.sections).length := rfl
  simp only [McfgFooter.encode, List.append_assoc] at h
  have hfoot := holds_behind h
  have hmagic2 := holds_behind hfoot
  have htrimmed := holds_behind hmagic2
  have hmagic := holds_behind htrimmed
  simp only [Nat.add_assoc, Nat.reduceAdd] at hfoot hmagic2 htrimmed hmagic
  have hsections := (holds_append.1 hmagic).2
  have hmarker := (holds_append.1 (holds_append.1 hsections).2).2
  have hend : c + 12 + mcfgFileFooterMagic.length + (encodeSections footer.sections).length +
      footer.padding.length = c + footer.size - 4 := by
    simp [mcfgFileFooterMagic]
    omega
  rw [hend] at hmarker
  have hloadLen : loadLE buf.byte c 4 = footer.len := loadLE_field h (by norm_num; omega)
  have hloadEnd : loadLE buf.byte (c + footer.size - 4) 4 = footer.size :=
    loadLE_field hmarker (by norm_num; omega)
  refine ⟨⟨by omega, ?_, ?_, ?_⟩, ?_, _, hsections⟩
  · exact bytesAt_of_holds (holds_append.1 hmagic).1
  · exact loadLE_field hfoot (by decide)
  · exact loadLE_field hmagic2 (by norm_num)
  · rw [FileBuffer.footerStop, hloadLen, hloadEnd, maxSectionOffset_eq footer hlt]

/-- A section takes four bytes at least. -/
theorem length_encodeSections_pos {sections : List McfgSection} (h : sections ≠ []) :
    4 ≤ (encodeSections sections).length := by
  cases sections with
  | nil => exact absurd rfl h
  | cons t sections =>
    have hpos := t.length_payload.1
    rw [encodeSections_cons, List.length_append, t.length_encode]
    omega

/-- The sections that `analyze_footer` meets: the first 16. -/
theorem footerSectionsMet_of_holds (h : Holds buf.byte c (footer.encode ++ rest))
    (hlt : footer.size < 65536) (hne : footer.sections ≠ []) :
    List.Forall₂ (fun a (t : McfgSection) => ∃ tail, Holds buf.byte a (t.encode ++ tail))
      (buf.footerSectionsMet c footer.size) (footer.sections.take maxFooterSections) := by
  obtain ⟨hheader, hstop, tail, hsections⟩ := footer_of_holds h hlt
  have hpadding := footer.padding_le
  -- a section is longer than the padding
  have hpos := length_encodeSections_pos hne
  rw [FileBuffer.footerSectionsMet, if_pos hheader, hstop]
  exact sectionsFrom_of_holds hsections hne (by omega) (by omega) _

/-- **The process survives a footer.** -/
theorem footerSurvived_of_holds (h : Holds buf.byte c (footer.encode ++ rest))
    (hlt : footer.size < 65536) (hne : footer.sections ≠ []) :
    buf.FooterSurvived c footer.size := by
  have hsections : ∀ a ∈ buf.footerSectionsMet c footer.size,
      ∃ (t : McfgSection) (tail : List UInt8), Holds buf.byte a (t.encode ++ tail) := by
    intro a ha
    obtain ⟨k, hk, rfl⟩ := List.getElem_of_mem ha
    have hmet := footerSectionsMet_of_holds h hlt hne
    exact ⟨_, List.forall₂_iff_get.1 hmet |>.2 k hk (hmet.length_eq ▸ hk)⟩
  constructor
  · intro a ha
    obtain ⟨t, tail, ht⟩ := hsections a ha
    exact sectionFits_of_holds ht
  · refine FileBuffer.nameFirst_of_known fun a ha => ?_
    obtain ⟨t, tail, ht⟩ := hsections a ha
    rw [sectionId_of_holds ht]
    exact Option.some_ne_none _

/-- **What a footer leaves**: the first 16 of its sections, by their data. -/
theorem foldl_store_footer (h : Holds buf.byte c (footer.encode ++ rest))
    (hlt : footer.size < 65536) (hne : footer.sections ≠ []) (found : Found) :
    (buf.footerSectionsMet c footer.size).foldl buf.store found =
      (footer.sections.take maxFooterSections).foldl McfgSection.store found :=
  foldl_store_of_holds (footerSectionsMet_of_holds h hlt hne) found

/-- The type of the footer as an item. -/
theorem itemType_footer (h : Holds buf.byte c (footer.encode ++ rest)) :
    buf.itemType c = some .foot := by
  simp only [McfgFooter.encode, List.append_assoc] at h
  have hbyte : loadLE buf.byte (c + 4) 1 = McfgItemType.foot.code := loadLE_byte (holds_behind h)
  rw [FileBuffer.itemType, hbyte]
  rfl

/-- The size of a footer at the end of the file. -/
theorem footerBytes_eq (hsize : buf.size.toNat = c + footer.size) (hlt : footer.size < 65536) :
    buf.footerBytes c = footer.size := by
  have hsub : (footerSize buf c).toNat = buf.size.toNat - c := toNat_footerSize (by omega)
  rw [FileBuffer.footerBytes, hsub, hsize, Nat.add_sub_cancel_left, Nat.mod_eq_of_lt hlt]

end Footer

end Imsd
