import Imsd.McfgWalk

/-!
# What a well-formed file reports

A well-formed software file (`McfgFile`) has an ELF header, three program headers or more, and a
segment at the offset of the third one, whose footer ends the file and has one network code and one
name.  `Reports` says that `check_file_header` finds the file valid, with its carrier id, network
code and name.

The network code has 16 bits for each of its numbers, but the outputs have 8; the number of items
is cut to 16 bits, and the walk over the footer ends after 16 sections.  `reports_iff` gives the
condition on the file (`Reportable`), which is exact for files whose size has 32 bits.
-/

namespace Imsd

open Bytes Exec

/-- A file with a segment at its end. -/
structure McfgImage where
  pre : List UInt8
  segment : McfgSegment

namespace McfgImage

def bytes (image : McfgImage) : List UInt8 := image.pre ++ image.segment.encode

/-- The field of `w` bytes at offset `a`. -/
def field (image : McfgImage) (a w : ℕ) : ℕ := ofLE ((image.bytes.drop a).take w)

/-- `p_offset` of program header `k`. -/
def pOffset (image : McfgImage) (k : ℕ) : ℕ := image.field (image.field 28 4 + k * 32 + 4) 4

/-- A well-formed file: an ELF header, three program headers or more, the third one of which is for
the segment, and a number of items that has 32 bits. -/
structure WellFormed (image : McfgImage) : Prop where
  elf : image.bytes.take 4 = elfmag
  phnum_ge : 3 ≤ image.field 44 2
  phdrs_le : image.field 28 4 + 3 * 32 ≤ image.bytes.length
  offset_eq : image.pOffset 2 = image.pre.length
  items_lt : image.segment.items.length + 1 < 2 ^ 32
  footer_lt : image.segment.footer.size < 65536

end McfgImage

/-- A well-formed software file. -/
structure McfgFile extends McfgImage where
  elf : toMcfgImage.bytes.take 4 = elfmag
  phnum_ge : 3 ≤ toMcfgImage.field 44 2
  phdrs_le : toMcfgImage.field 28 4 + 3 * 32 ≤ toMcfgImage.bytes.length
  offset_eq : toMcfgImage.pOffset 2 = toMcfgImage.pre.length
  items_lt : toMcfgImage.segment.items.length + 1 < 2 ^ 32
  footer_lt : toMcfgImage.segment.footer.size < 65536
  network : UInt16 × UInt16
  name : List UInt8
  network_eq : toMcfgImage.segment.footer.sections.filterMap McfgSection.network? = [network]
  name_eq : toMcfgImage.segment.footer.sections.filterMap McfgSection.name? = [name]

namespace McfgFile

variable (file : McfgFile)

theorem wellFormed : file.toMcfgImage.WellFormed :=
  ⟨file.elf, file.phnum_ge, file.phdrs_le, file.offset_eq, file.items_lt, file.footer_lt⟩

/-- The sections that the walk meets. -/
def met : List McfgSection :=
  if file.segment.items.length + 1 < 65536 then
    file.segment.footer.sections.take maxFooterSections
  else []

/-- The network code has 8 bits, and the walk meets it, unless it is zero anyway. -/
def NetworkFits : Prop :=
  file.network.1.toNat < 256 ∧ file.network.2.toNat < 256 ∧
    (file.network ∈ file.met.filterMap McfgSection.network? ∨ file.network = (0, 0))

/-- The walk meets the name, unless it is empty anyway. -/
def NameFits : Prop := file.name ∈ file.met.filterMap McfgSection.name? ∨ file.name = []

/-- **The files that are reported as they are.**  The size has 32 bits and is not below the least
one, and the first two segments begin inside the file. -/
def Reportable : Prop :=
  file.bytes.length < 2 ^ 32 ∧ 0x2000 ≤ file.bytes.length ∧
    file.pOffset 0 ≤ file.bytes.length ∧ file.pOffset 1 ≤ file.bytes.length ∧
    file.NetworkFits ∧ file.NameFits

/-- The walk over a buffer leaves the carrier id, the network code and the name of the file. -/
def Left (buf : FileBuffer) : Prop :=
  buf.carrierId = file.segment.carrierId.toNat ∧
    (buf.leaves (List.replicate 128 0)).mcc.toNat = file.network.1.toNat ∧
    (buf.leaves (List.replicate 128 0)).mnc.toNat = file.network.2.toNat ∧
    cString (buf.leaves (List.replicate 128 0)).internalName = file.name

/-- The file is valid, and its carrier id, network code and name are the outputs. -/
def Reports (s : LocateState) : Prop :=
  s.isValid = true ∧ s.carrierId.toNat = file.segment.carrierId.toNat ∧
    s.mcc.toNat = file.network.1.toNat ∧ s.mnc.toNat = file.network.2.toNat ∧
    cString s.internalName = file.name

end McfgFile

/-! ### Reading the file -/

namespace McfgImage

variable {image : McfgImage} (rest : List UInt8) (hlt : image.bytes.length < 2 ^ 32)

include hlt

theorem loadLE_read {a w : ℕ} (h : a + w ≤ image.bytes.length) :
    loadLE (FileBuffer.read image.bytes rest).byte a w = image.field a w := by
  have hinside := loadLE_inside (FileBuffer.holds_read hlt rest) h
  rwa [Nat.zero_add] at hinside

variable (h : image.WellFormed)

include h

theorem pOffset_read {k : ℕ} (hk : k < 3) :
    (FileBuffer.read image.bytes rest).pOffset k = image.pOffset k := by
  have hphdrs := h.phdrs_le
  have hphoff : loadLE (FileBuffer.read image.bytes rest).byte 28 4 = image.field 28 4 :=
    loadLE_read rest hlt (by omega)
  rw [FileBuffer.pOffset, hphoff, loadLE_read rest hlt (by omega)]
  rfl

/-- The segment lies at the offset of the third program header. -/
theorem holds_segment : Holds (FileBuffer.read image.bytes rest).byte
    ((FileBuffer.read image.bytes rest).pOffset 2) image.segment.encode := by
  have hbytes := holds_append.1 (FileBuffer.holds_read hlt rest)
  rw [pOffset_read rest hlt h (by norm_num), h.offset_eq, ← Nat.zero_add image.pre.length]
  exact hbytes.2

/-- The fields of the MCFG header. -/
theorem header_read :
    bytesAt (FileBuffer.read image.bytes rest).byte
        ((FileBuffer.read image.bytes rest).pOffset 2) 4 = mcfgFileHeaderMagic ∧
      (FileBuffer.read image.bytes rest).configType = mcfgFiletypeSw ∧
      (FileBuffer.read image.bytes rest).noOfItems = image.segment.items.length + 1 ∧
      (FileBuffer.read image.bytes rest).carrierId = image.segment.carrierId.toNat := by
  have hsegment := holds_segment rest hlt h
  have hitems := h.items_lt
  simp only [McfgSegment.encode, McfgFileHeader.encode, List.append_assoc] at hsegment
  have hmagic := holds_append.1 hsegment
  have htype := holds_behind hmagic.2
  have hnum := holds_behind htype
  have hcarrier := holds_behind hnum
  rw [Nat.add_assoc] at htype hnum hcarrier
  rw [Nat.add_assoc] at hnum hcarrier
  rw [Nat.add_assoc] at hcarrier
  refine ⟨bytesAt_of_holds hmagic.1, loadLE_field htype (by decide), ?_,
    loadLE_field hcarrier image.segment.carrierId.toNat_lt⟩
  rw [FileBuffer.noOfItems]
  have hload := loadLE_field hnum image.segment.header.noOfItems.toNat_lt
  rw [show image.segment.header.noOfItems.toNat = image.segment.items.length + 1 from
    UInt32.toNat_ofNat_of_lt' hitems] at hload
  exact hload

/-- The items lie behind the headers, and the footer behind them. -/
theorem holds_items : Holds (FileBuffer.read image.bytes rest).byte
    (FileBuffer.read image.bytes rest).itemsStart
    (image.segment.items.flatMap McfgItem.encode ++ image.segment.footer.encode) := by
  have hsegment := holds_segment rest hlt h
  rw [McfgSegment.encode, holds_append, McfgFileHeader.length_encode, holds_append,
    McfgSubVersionData.length_encode] at hsegment
  exact hsegment.2.2

/-- The file is accepted if it is large enough, and its first two segments begin inside. -/
theorem accepted_read_iff : (FileBuffer.read image.bytes rest).Accepted ↔
    0x2000 ≤ image.bytes.length ∧ image.pOffset 0 ≤ image.bytes.length ∧
      image.pOffset 1 ≤ image.bytes.length := by
  have hphdrs := h.phdrs_le
  obtain ⟨hmagic, htype, -, -⟩ := header_read rest hlt h
  have hident : bytesAt (FileBuffer.read image.bytes rest).byte 0 4 = elfmag := by
    have hinside := bytesAt_inside (FileBuffer.holds_read hlt rest)
      (a := 0) (n := 4) (by omega)
    rwa [Nat.zero_add, List.drop_zero, h.elf] at hinside
  have hnum : 3 ≤ loadLE (FileBuffer.read image.bytes rest).byte 44 2 := by
    rw [loadLE_read rest hlt (by omega)]
    exact h.phnum_ge
  have hpre : (FileBuffer.read image.bytes rest).pOffset 2 ≤ image.bytes.length := by
    rw [pOffset_read rest hlt h (by norm_num), h.offset_eq, McfgImage.bytes, List.length_append]
    exact Nat.le_add_right _ _
  rw [FileBuffer.Accepted, FileBuffer.size_read hlt, pOffset_read rest hlt h (by norm_num),
    pOffset_read rest hlt h (by norm_num)]
  constructor
  · rintro ⟨hsize, -, -, h₀, h₁, -⟩
    exact ⟨hsize, h₀, h₁⟩
  · rintro ⟨hsize, h₀, h₁⟩
    exact ⟨hsize, hident, hnum, h₀, h₁, hpre, hmagic, htype⟩

/-- The footer lies behind the last item, and is one itself. -/
theorem footer_read :
    Holds (FileBuffer.read image.bytes rest).byte
      ((FileBuffer.read image.bytes rest).itemOffset (FileBuffer.read image.bytes rest).itemsStart
        image.segment.items.length) image.segment.footer.encode ∧
      (FileBuffer.read image.bytes rest).footerBytes
        ((FileBuffer.read image.bytes rest).itemOffset (FileBuffer.read image.bytes rest).itemsStart
          image.segment.items.length) = image.segment.footer.size := by
  have hitems := holds_items rest hlt h
  have hoffset := itemOffset_of_holds hitems image.segment.items.length le_rfl
  rw [List.take_length] at hoffset
  rw [hoffset]
  refine ⟨(holds_append.1 hitems).2, footerBytes_eq ?_ h.footer_lt⟩
  rw [FileBuffer.size_read hlt, FileBuffer.itemsStart, pOffset_read rest hlt h (by norm_num),
    h.offset_eq]
  simp only [McfgImage.bytes, McfgSegment.encode, List.length_append, McfgFileHeader.length_encode,
    McfgSubVersionData.length_encode, McfgFooter.length_encode]
  omega

/-- The walk knows every item. -/
theorem knownItem_read {k : ℕ}
    (hk : k < (FileBuffer.read image.bytes rest).noOfItems % 65536) :
    (FileBuffer.read image.bytes rest).KnownItem k := by
  have hitems := holds_items rest hlt h
  obtain ⟨hfooter, -⟩ := footer_read rest hlt h
  rw [(header_read rest hlt h).2.2.1] at hk
  have hle : k ≤ image.segment.items.length :=
    Nat.lt_succ_iff.1 (hk.trans_le (Nat.mod_le _ _))
  rw [FileBuffer.KnownItem]
  rcases hle.lt_or_eq with hlt' | rfl
  · rw [itemType_itemOffset hitems k hlt']
    rfl
  · rw [← List.append_nil image.segment.footer.encode] at hfooter
    rw [itemType_footer hfooter]
    rfl

/-- The process survives the walk, if there are sections in the footer. -/
theorem walkSurvived_read (hne : image.segment.footer.sections ≠ []) :
    (FileBuffer.read image.bytes rest).WalkSurvived := by
  have hitems := holds_items rest hlt h
  obtain ⟨hfooter, hsize⟩ := footer_read rest hlt h
  rintro k ⟨hk, -⟩
  rw [(header_read rest hlt h).2.2.1] at hk
  have hle : k ≤ image.segment.items.length :=
    Nat.lt_succ_iff.1 (hk.trans_le (Nat.mod_le _ _))
  rcases hle.lt_or_eq with hlt' | rfl
  · exact itemSurvived_itemOffset hitems k hlt'
  · rw [← List.append_nil image.segment.footer.encode] at hfooter
    rw [FileBuffer.ItemSurvived, itemType_footer hfooter, hsize]
    exact footerSurvived_of_holds hfooter h.footer_lt hne

end McfgImage

/-! ### Files with plain headers -/

namespace McfgImage

/-- Headers, zeros up to an offset, and a segment there. -/
def imageAt (offset : ℕ) (seg : McfgSegment) : McfgImage :=
  ⟨elfHeaders offset ++ List.replicate (offset - 148) 0, seg⟩

variable (seg : McfgSegment) {offset : ℕ}

theorem length_elfHeaders (offset : ℕ) : (elfHeaders offset).length = 148 := by
  simp [elfHeaders, elfmag]

theorem length_pre_imageAt (h : 148 ≤ offset) : (imageAt offset seg).pre.length = offset := by
  rw [imageAt, List.length_append, length_elfHeaders, List.length_replicate]
  omega

/-- The ELF headers are at the start. -/
theorem take_drop_imageAt {a w : ℕ} (h : a + w ≤ 148) :
    ((imageAt offset seg).bytes.drop a).take w = ((elfHeaders offset).drop a).take w := by
  have hlen := length_elfHeaders offset
  rw [McfgImage.bytes, imageAt, List.append_assoc, List.drop_append_of_le_length (by omega),
    List.take_append_of_le_length (by rw [List.length_drop]; omega)]

theorem field_imageAt {a w : ℕ} (h : a + w ≤ 148) :
    (imageAt offset seg).field a w = ofLE (((elfHeaders offset).drop a).take w) :=
  congrArg ofLE (take_drop_imageAt seg h)

theorem pOffset_imageAt {k : ℕ} (hk : k < 3) :
    (imageAt offset seg).pOffset k =
      ofLE (((elfHeaders offset).drop (52 + k * 32 + 4)).take 4) := by
  have hphoff : (imageAt offset seg).field 28 4 = 52 := by
    rw [field_imageAt seg (by norm_num)]
    rfl
  rw [McfgImage.pOffset, hphoff, field_imageAt seg (by omega)]

theorem imageAt_wellFormed (h : 148 ≤ offset) (hlt : offset < 2 ^ 32)
    (hitems : seg.items.length + 1 < 2 ^ 32) (hfooter : seg.footer.size < 65536) :
    (imageAt offset seg).WellFormed where
  elf := by
    have htake : ((imageAt offset seg).bytes.drop 0).take 4 = _ :=
      take_drop_imageAt seg (by norm_num)
    rw [List.drop_zero] at htake
    rw [htake]
    rfl
  phnum_ge := by
    rw [field_imageAt seg (by norm_num)]
    exact le_of_eq rfl
  phdrs_le := by
    have hle : 148 ≤ (imageAt offset seg).bytes.length := by
      rw [McfgImage.bytes, List.length_append, length_pre_imageAt seg h]
      omega
    rw [field_imageAt seg (by norm_num)]
    exact le_trans (le_of_eq rfl) hle
  offset_eq := by
    have hdrop : (elfHeaders offset).drop (52 + 2 * 32 + 4) =
        toLE 4 offset ++ List.replicate 24 0 := rfl
    rw [pOffset_imageAt seg (by norm_num), length_pre_imageAt seg h, hdrop,
      List.take_left' (length_toLE _ _), ofLE_toLE_of_lt (by omega)]
  items_lt := hitems
  footer_lt := hfooter

end McfgImage

/-! ### What the sections leave -/

section Sections

variable (sections : List McfgSection) (found : Found)

theorem mcc_foldl_store : (sections.foldl McfgSection.store found).mcc =
    (sections.filterMap McfgSection.network?).foldl (fun _ x => UInt8.ofNat x.1.toNat)
      found.mcc := by
  induction sections generalizing found with
  | nil => rfl
  | cons t sections ih =>
    rw [List.foldl_cons, ih]
    cases t <;> rfl

theorem mnc_foldl_store : (sections.foldl McfgSection.store found).mnc =
    (sections.filterMap McfgSection.network?).foldl (fun _ x => UInt8.ofNat x.2.toNat)
      found.mnc := by
  induction sections generalizing found with
  | nil => rfl
  | cons t sections ih =>
    rw [List.foldl_cons, ih]
    cases t <;> rfl

theorem internalName_foldl_store : (sections.foldl McfgSection.store found).internalName =
    (sections.filterMap McfgSection.name?).foldl copyInto found.internalName := by
  induction sections generalizing found with
  | nil => rfl
  | cons t sections ih =>
    rw [List.foldl_cons, ih]
    cases t <;> rfl

end Sections

/-- A part of a list of one is empty or all of it. -/
theorem filterMap_take_singleton {α β : Type} {g : α → Option β} {l : List α} {x : β}
    (h : l.filterMap g = [x]) (n : ℕ) :
    (l.take n).filterMap g = [] ∨ (l.take n).filterMap g = [x] := by
  have hsplit : (l.take n).filterMap g ++ (l.drop n).filterMap g = [x] := by
    rw [← List.filterMap_append, List.take_append_drop, h]
  rcases List.append_eq_singleton_iff.1 hsplit with ⟨hnil, -⟩ | ⟨hone, -⟩
  · exact Or.inl hnil
  · exact Or.inr hone

namespace McfgFile

variable (file : McfgFile)

theorem met_network : file.met.filterMap McfgSection.network? = [] ∨
    file.met.filterMap McfgSection.network? = [file.network] := by
  unfold met
  split_ifs
  · exact filterMap_take_singleton file.network_eq _
  · exact Or.inl rfl

theorem met_name : file.met.filterMap McfgSection.name? = [] ∨
    file.met.filterMap McfgSection.name? = [file.name] := by
  unfold met
  split_ifs
  · exact filterMap_take_singleton file.name_eq _
  · exact Or.inl rfl

/-- The name of a file has no zero, and fits the buffer. -/
theorem name_spec : (∀ b ∈ file.name, b ≠ 0) ∧ file.name.length ≤ 60 := by
  have hmem : file.name ∈ file.segment.footer.sections.filterMap McfgSection.name? := by
    rw [file.name_eq]
    exact List.mem_cons_self
  obtain ⟨t, -, ht⟩ := List.mem_filterMap.1 hmem
  cases t with
  | profileName name rest hne hle =>
    obtain rfl := Option.some.inj ht
    exact ⟨hne, by omega⟩
  | version1 data => cases ht
  | version2 data => cases ht
  | applicableMccMnc mcc mnc => cases ht
  | allowedIccids foot14 iccids hle => cases ht
  | carrierVersionId carrierVersion => cases ht

theorem sections_ne_nil : file.segment.footer.sections ≠ [] := by
  intro h
  have hname := file.name_eq
  rw [h] at hname
  cases hname

/-- The copy of a name into the cleared buffer. -/
theorem cString_copyInto_name :
    cString (copyInto (List.replicate 128 0) file.name) = file.name := by
  obtain ⟨hne, hle⟩ := file.name_spec
  have hdrop : (List.replicate 128 (0 : UInt8)).drop file.name.length =
      0 :: List.replicate (127 - file.name.length) 0 := by
    rw [List.drop_replicate, ← List.replicate_succ]
    congr 1
    omega
  rw [copyInto, hdrop, cString_append_zero hne]

/-- The copy leaves a NUL behind it. -/
theorem zero_mem_copyInto_name : 0 ∈ copyInto (List.replicate 128 0) file.name := by
  obtain ⟨-, hle⟩ := file.name_spec
  refine List.mem_append_right _ ?_
  rw [List.drop_replicate]
  exact List.mem_replicate.2 ⟨by omega, rfl⟩

/-! ### The walk -/

section Read

variable {file} (rest : List UInt8) (hlt : file.bytes.length < 2 ^ 32)

include hlt

/-- **What the walk finds** are the data of the sections it meets. -/
theorem found_read (found : Found) :
    ((FileBuffer.read file.bytes rest).sectionsMet (FileBuffer.read file.bytes rest).itemsStart
      ((FileBuffer.read file.bytes rest).noOfItems % 65536)).foldl
        (FileBuffer.read file.bytes rest).store found =
      file.met.foldl McfgSection.store found := by
  have h := McfgImage.holds_items rest hlt file.wellFormed
  obtain ⟨hfooter, hsize⟩ := McfgImage.footer_read rest hlt file.wellFormed
  rw [(McfgImage.header_read rest hlt file.wellFormed).2.2.1, met]
  split_ifs with hnum
  · rw [Nat.mod_eq_of_lt hnum, FileBuffer.sectionsMet_snoc, sectionsMet_of_holds h le_rfl,
      List.nil_append]
    rw [← List.append_nil file.segment.footer.encode] at hfooter
    rw [FileBuffer.itemSections, if_pos (itemType_footer hfooter), hsize]
    exact foldl_store_footer hfooter file.footer_lt file.sections_ne_nil found
  · -- the footer is beyond the 16 bits of the number of items
    have hle : (file.segment.items.length + 1) % 65536 ≤ file.segment.items.length := by omega
    rw [sectionsMet_of_holds h hle]
    rfl

end Read

/-! ### The report -/

variable {file}

theorem toNat_ofNat_eq_iff (x : UInt16) :
    (UInt8.ofNat x.toNat).toNat = x.toNat ↔ x.toNat < 256 := by
  rw [UInt8.toNat_ofNat']
  omega

/-- The network code that the sections met leave. -/
theorem network_met_iff (name : List UInt8) :
    ((file.met.foldl McfgSection.store ⟨0, 0, name⟩).mcc.toNat = file.network.1.toNat ∧
      (file.met.foldl McfgSection.store ⟨0, 0, name⟩).mnc.toNat = file.network.2.toNat) ↔
      file.NetworkFits := by
  rw [mcc_foldl_store, mnc_foldl_store, NetworkFits]
  rcases file.met_network with hnil | hone
  · rw [hnil]
    have hzero : file.network = (0, 0) ↔
        file.network.1.toNat = 0 ∧ file.network.2.toNat = 0 := by
      rw [Prod.ext_iff, ← UInt16.toNat_inj, ← UInt16.toNat_inj]
      rfl
    simp only [List.foldl_nil, UInt8.toNat_zero, List.not_mem_nil, false_or, hzero]
    omega
  · rw [hone]
    simp only [List.foldl_cons, List.foldl_nil, toNat_ofNat_eq_iff, List.mem_singleton, true_or,
      and_true]

/-- The name that the sections met leave. -/
theorem name_met_iff :
    cString (file.met.foldl McfgSection.store ⟨0, 0, List.replicate 128 0⟩).internalName =
      file.name ↔ file.NameFits := by
  rw [internalName_foldl_store, NameFits]
  rcases file.met_name with hnil | hone
  · have hempty : cString (List.replicate 128 0) = [] := rfl
    rw [hnil, List.foldl_nil, hempty]
    simp [eq_comm]
  · rw [hone, List.foldl_cons, List.foldl_nil, file.cString_copyInto_name]
    simp

/-- The name ends inside its buffer. -/
theorem zero_mem_name_met :
    0 ∈ (file.met.foldl McfgSection.store ⟨0, 0, List.replicate 128 0⟩).internalName := by
  rw [internalName_foldl_store]
  rcases file.met_name with hnil | hone
  · rw [hnil, List.foldl_nil]
    exact List.mem_replicate.2 ⟨by decide, rfl⟩
  · rw [hone, List.foldl_cons, List.foldl_nil]
    exact file.zero_mem_copyInto_name

/-- A report, in terms of the walk over the buffer. -/
theorem reports_iff_leaves (hlt : file.bytes.length < 2 ^ 32) (rest : List UInt8) {s : LocateState}
    (hname : s.internalName = List.replicate 128 0) :
    file.Reports (checkFileHeader (some file.bytes) rest s).1 ↔
      (FileBuffer.read file.bytes rest).Walked ∧
        file.Left (FileBuffer.read file.bytes rest) := by
  have hsurvived := McfgImage.walkSurvived_read rest hlt file.wellFormed file.sections_ne_nil
  rw [checkFileHeader_some, Reports, checkBuffer_isValid_iff fun _ => hsurvived]
  refine and_congr_right fun hwalked => ?_
  obtain ⟨s', ⟨rfl, -, -⟩, -, hcarrier, hfound⟩ := checkBuffer_walked hwalked hsurvived s
  have hlt : (FileBuffer.read file.bytes rest).carrierId < 2 ^ 16 := loadLE_lt _ _ _
  rw [hname] at hfound
  rw [Left, ← hfound, hcarrier, UInt32.toNat_ofNat_of_lt' (hlt.trans (by decide))]
  rfl

/-- So does the name of a file that is reported as valid. -/
theorem zero_mem_of_isValid (hlt : file.bytes.length < 2 ^ 32) (rest : List UInt8)
    {s : LocateState} (hname : s.internalName = List.replicate 128 0)
    (hvalid : (checkFileHeader (some file.bytes) rest s).1.isValid = true) :
    0 ∈ (checkFileHeader (some file.bytes) rest s).1.internalName := by
  have hsurvived := McfgImage.walkSurvived_read rest hlt file.wellFormed file.sections_ne_nil
  rw [checkFileHeader_some] at hvalid ⊢
  obtain ⟨s', ⟨rfl, -, -⟩, -, -, hfound⟩ :=
    checkBuffer_walked ((checkBuffer_isValid_iff (fun _ => hsurvived) s).1 hvalid) hsurvived s
  have hleaves : (FileBuffer.read file.bytes rest).leaves s.internalName =
      file.met.foldl McfgSection.store ⟨0, 0, List.replicate 128 0⟩ := by
    rw [hname]
    exact found_read rest hlt _
  rw [hleaves] at hfound
  rw [show (checkBuffer (FileBuffer.read file.bytes rest) s.cleared).1.internalName = _ from
    congrArg Found.internalName hfound]
  exact file.zero_mem_name_met

/-- What the walk leaves of the files whose size has 32 bits. -/
theorem leaves_iff_reportable (hlt : file.bytes.length < 2 ^ 32) (rest : List UInt8) :
    (FileBuffer.read file.bytes rest).Walked ∧ file.Left (FileBuffer.read file.bytes rest) ↔
      file.Reportable := by
  have hnetwork := file.network_met_iff (List.replicate 128 0)
  have hstring := file.name_met_iff
  have hleaves : (FileBuffer.read file.bytes rest).leaves (List.replicate 128 0) =
      file.met.foldl McfgSection.store ⟨0, 0, List.replicate 128 0⟩ := found_read rest hlt _
  rw [FileBuffer.Walked, McfgImage.accepted_read_iff rest hlt file.wellFormed, Left, hleaves,
    Reportable, ← hnetwork, ← hstring]
  constructor
  · rintro ⟨⟨⟨hsize, h₀, h₁⟩, -⟩, -, hmcc, hmnc, hname⟩
    exact ⟨hlt, hsize, h₀, h₁, ⟨hmcc, hmnc⟩, hname⟩
  · rintro ⟨-, hsize, h₀, h₁, ⟨hmcc, hmnc⟩, hname⟩
    exact ⟨⟨⟨hsize, h₀, h₁⟩, fun k hk => McfgImage.knownItem_read rest hlt file.wellFormed hk⟩,
      (McfgImage.header_read rest hlt file.wellFormed).2.2.2,
      hmcc, hmnc, hname⟩

/-- The report on a file whose size has 32 bits. -/
theorem reports_iff_reportable (hlt : file.bytes.length < 2 ^ 32) (rest : List UInt8)
    {s : LocateState} (hname : s.internalName = List.replicate 128 0) :
    file.Reports (checkFileHeader (some file.bytes) rest s).1 ↔ file.Reportable :=
  (reports_iff_leaves hlt rest hname).trans (leaves_iff_reportable hlt rest)

/-- **When a well-formed file is reported as it is**, whatever lies behind the buffer: if it is
reportable, and for the files whose size has 32 bits, only then. -/
theorem reports_iff (file : McfgFile) (rest : List UInt8) {s : LocateState}
    (hname : s.internalName = List.replicate 128 0) :
    (file.Reportable → file.Reports (checkFileHeader (some file.bytes) rest s).1) ∧
      (file.bytes.length < 2 ^ 32 →
        (file.Reports (checkFileHeader (some file.bytes) rest s).1 ↔ file.Reportable)) :=
  ⟨fun h => (reports_iff_reportable h.1 rest hname).2 h,
    fun hlt => reports_iff_reportable hlt rest hname⟩

/-- A segment with one NV element, and a footer with three sections. -/
def sampleSegment (mcc mnc : UInt16) : McfgSegment where
  formatVersion := 3
  carrierId := 0x0101
  padding := 0
  sub := ⟨4995, 4, 1⟩
  items := [.nv ⟨12, 0x09, 0⟩ .nv (by decide) 850 [1] (by decide)]
  footer :=
    { sizeTrimmed := 0
      sections := [.version1 256, .applicableMccMnc mcc mnc,
        .profileName [0x43, 0x4d, 0x43, 0x43] [] (by simp) (by decide)]
      padding := []
      padding_le := by decide }

theorem size_footer_sampleSegment (mcc mnc : UInt16) :
    (sampleSegment mcc mnc).footer.size = 44 := by
  simp [sampleSegment, McfgFooter.size, McfgFooter.len, encodeSections, McfgSection.length_encode,
    McfgSection.payload]

theorem length_sampleSegment (mcc mnc : UInt16) : (sampleSegment mcc mnc).encode.length = 81 := by
  have hfooter := size_footer_sampleSegment mcc mnc
  simp only [McfgSegment.encode, List.length_append, McfgFileHeader.length_encode,
    McfgSubVersionData.length_encode, McfgFooter.length_encode, hfooter]
  rfl

/-- The segment at the offset 0x2000 of a file. -/
def sampleImage (mcc mnc : UInt16) : McfgImage :=
  ⟨elfHeaders 0x2000 ++ List.replicate (0x2000 - 148) 0, sampleSegment mcc mnc⟩

theorem sampleImage_wellFormed (mcc mnc : UInt16) : (sampleImage mcc mnc).WellFormed :=
  McfgImage.imageAt_wellFormed (sampleSegment mcc mnc) (by norm_num) (by norm_num)
    (show 1 + 1 < 2 ^ 32 by norm_num)
    (lt_of_eq_of_lt (size_footer_sampleSegment mcc mnc) (by norm_num))

theorem length_pre_sampleImage (mcc mnc : UInt16) : (sampleImage mcc mnc).pre.length = 0x2000 :=
  McfgImage.length_pre_imageAt (sampleSegment mcc mnc) (by norm_num)

theorem le_length_sampleImage (mcc mnc : UInt16) : 0x2000 ≤ (sampleImage mcc mnc).bytes.length := by
  rw [McfgImage.bytes, List.length_append, length_pre_sampleImage]
  exact Nat.le_add_right _ _

theorem pOffset_sampleImage (mcc mnc : UInt16) {k : ℕ} (h : k < 3) :
    (sampleImage mcc mnc).pOffset k =
      ofLE (((elfHeaders 0x2000).drop (52 + k * 32 + 4)).take 4) :=
  McfgImage.pOffset_imageAt (sampleSegment mcc mnc) h

def sampleFile (mcc mnc : UInt16) : McfgFile where
  toMcfgImage := sampleImage mcc mnc
  elf := (sampleImage_wellFormed mcc mnc).elf
  phnum_ge := (sampleImage_wellFormed mcc mnc).phnum_ge
  phdrs_le := (sampleImage_wellFormed mcc mnc).phdrs_le
  offset_eq := (sampleImage_wellFormed mcc mnc).offset_eq
  items_lt := (sampleImage_wellFormed mcc mnc).items_lt
  footer_lt := (sampleImage_wellFormed mcc mnc).footer_lt
  network := (mcc, mnc)
  name := [0x43, 0x4d, 0x43, 0x43]
  network_eq := rfl
  name_eq := rfl

theorem length_sampleFile_lt (mcc mnc : UInt16) :
    (sampleFile mcc mnc).bytes.length < 2 ^ 32 := by
  have hsegment : (sampleFile mcc mnc).segment.encode.length = 81 := length_sampleSegment mcc mnc
  have hpre : (sampleFile mcc mnc).pre.length = 0x2000 := length_pre_sampleImage mcc mnc
  rw [McfgImage.bytes, List.length_append, hsegment, hpre]
  norm_num

/-- A network code that fits. -/
theorem reportable_sampleFile : (sampleFile 204 4).Reportable := by
  have hle := le_length_sampleImage 204 4
  refine ⟨length_sampleFile_lt 204 4, hle, ?_, ?_, ⟨by decide, by decide, Or.inl ?_⟩, Or.inl ?_⟩
  · show (sampleImage 204 4).pOffset 0 ≤ _
    rw [pOffset_sampleImage 204 4 (by norm_num)]
    exact le_trans (by decide) hle
  · show (sampleImage 204 4).pOffset 1 ≤ _
    rw [pOffset_sampleImage 204 4 (by norm_num)]
    exact le_trans (by decide) hle
  · exact List.mem_cons_self
  · exact List.mem_cons_self

theorem reports_sampleFile : (sampleFile 204 4).Reports
    (checkFileHeader (some (sampleFile 204 4).bytes) [0x2a]
      ⟨true, 9, 9, 9, List.replicate 128 0, 0, 0, fun _ => ⟨0, 0, 0, 0, 0, []⟩, 0, 0,
        fun _ => McfgFooterSection.zero⟩).1 :=
  (reports_iff (sampleFile 204 4) [0x2a] rfl).1 reportable_sampleFile

/-- The network code 460-01, which does not fit. -/
theorem not_reports_sampleFile : ¬ (sampleFile 460 1).Reports
    (checkFileHeader (some (sampleFile 460 1).bytes) []
      ⟨true, 9, 9, 9, List.replicate 128 0, 0, 0, fun _ => ⟨0, 0, 0, 0, 0, []⟩, 0, 0,
        fun _ => McfgFooterSection.zero⟩).1 := by
  intro h
  have hreportable := (reports_iff_reportable (length_sampleFile_lt 460 1) [] rfl).1 h
  exact absurd hreportable.2.2.2.2.1.1 (by decide)

end McfgFile

end Imsd
