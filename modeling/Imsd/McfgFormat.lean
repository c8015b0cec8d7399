import Imsd.PdcLocate

/-!
# `mcfg.h`: the format of MCFG files

The structures are data, with the bounds that make them well formed as fields, and `encode` gives
their bytes.  A segment is the two headers, the items and a footer (`McfgSegment.encode`); the
footer is an item itself, whose header is the start of its own.
-/

namespace Imsd

open Bytes

/-! ### Headers -/

/-- `struct mcfg_file_header`, without its magic. -/
structure McfgFileHeader where
  formatVersion : UInt16
  configType : UInt16
  noOfItems : UInt32
  carrierId : UInt16
  padding : UInt16

def McfgFileHeader.encode (h : McfgFileHeader) : List UInt8 :=
  mcfgFileHeaderMagic ++ (toLE 2 h.formatVersion.toNat ++ (toLE 2 h.configType.toNat ++
    (toLE 4 h.noOfItems.toNat ++ (toLE 2 h.carrierId.toNat ++ toLE 2 h.padding.toNat))))

@[simp] theorem McfgFileHeader.length_encode (h : McfgFileHeader) : h.encode.length = 16 := by
  simp [encode, mcfgFileHeaderMagic]

/-- `struct mcfg_sub_version_data`. -/
structure McfgSubVersionData where
  magic : UInt16
  len : UInt16
  carrierVersion : UInt32

def McfgSubVersionData.encode (sub : McfgSubVersionData) : List UInt8 :=
  toLE 2 sub.magic.toNat ++ (toLE 2 sub.len.toNat ++ toLE 4 sub.carrierVersion.toNat)

@[simp] theorem McfgSubVersionData.length_encode (sub : McfgSubVersionData) :
    sub.encode.length = 8 := by
  simp [encode]

/-! ### Items -/

/-- `struct mcfg_item`, without its type. -/
structure McfgItemHeader where
  id : UInt32
  attrib : UInt8
  padding : UInt16

def McfgItemHeader.encode (h : McfgItemHeader) (type : McfgItemType) : List UInt8 :=
  toLE 4 h.id.toNat ++ (UInt8.ofNat type.code :: h.attrib :: toLE 2 h.padding.toNat)

@[simp] theorem McfgItemHeader.length_encode (h : McfgItemHeader) (type : McfgItemType) :
    (h.encode type).length = 8 := by
  simp [encode]

/-- `struct mcfg_nvfile_part`: the name of a file, or its contents. -/
inductive McfgNvfilePart
  | filename (bytes : List UInt8) (length_le : bytes.length ≤ 255)
  | filecontents (bytes : List UInt8) (length_lt : bytes.length < 65536)

namespace McfgNvfilePart

def fileSection : McfgNvfilePart → ℕ
  | filename _ _ => efsFilename
  | filecontents _ _ => efsFilecontents

def bytes : McfgNvfilePart → List UInt8
  | filename bytes _ => bytes
  | filecontents bytes _ => bytes

def encode (part : McfgNvfilePart) : List UInt8 :=
  toLE 2 part.fileSection ++ (toLE 2 part.bytes.length ++ part.bytes)

theorem length_bytes_lt (part : McfgNvfilePart) : part.bytes.length < 65536 := by
  cases part with
  | filename bytes h => exact h.trans_lt (by norm_num)
  | filecontents bytes h => exact h

theorem length_encode (part : McfgNvfilePart) : part.encode.length = 4 + part.bytes.length := by
  simp [encode]
  omega

end McfgNvfilePart

/-- The types of items with an NV element, and of those with a file. -/
def McfgItemType.nvTypes : List McfgItemType := [nv, unknown]
@[inherit_doc McfgItemType.nvTypes] def McfgItemType.fileTypes : List McfgItemType :=
  [nvfile, file]

/-- An item other than the footer: an NV element (`struct mcfg_nvitem`) that fits a record, or a
file in two parts. -/
inductive McfgItem
  | nv (header : McfgItemHeader) (type : McfgItemType) (type_mem : type ∈ McfgItemType.nvTypes)
    (id : UInt16) (payload : List UInt8) (length_le : payload.length ≤ 52)
  | file (header : McfgItemHeader) (type : McfgItemType) (type_mem : type ∈ McfgItemType.fileTypes)
    (first second : McfgNvfilePart)

def McfgItem.encode : McfgItem → List UInt8
  | nv header type _ id payload _ =>
    header.encode type ++ (toLE 2 id.toNat ++ (toLE 2 payload.length ++ payload))
  | file header type _ first second => header.encode type ++ (first.encode ++ second.encode)

/-! ### Sections of the footer -/

/-- A section of the footer, as its own structure declares it; a profile name ends with a NUL, and
may have bytes behind it. -/
inductive McfgSection
  | version1 (data : UInt16)
  | version2 (data : UInt32)
  | applicableMccMnc (mcc mnc : UInt16)
  | profileName (name rest : List UInt8) (ne_zero : ∀ b ∈ name, b ≠ 0)
    (length_le : name.length + 1 + rest.length ≤ 61)
  | allowedIccids (foot14 : UInt8) (iccids : List UInt32) (length_le : 2 + 4 * iccids.length ≤ 61)
  | carrierVersionId (carrierVersion : UInt32)

namespace McfgSection

def id : McfgSection → McfgFooterSectionId
  | version1 _ => .version1
  | version2 _ => .version2
  | applicableMccMnc _ _ => .applicableMccMnc
  | profileName _ _ _ _ => .profileName
  | allowedIccids _ _ _ => .allowedIccids
  | carrierVersionId _ => .carrierVersionId

def payload : McfgSection → List UInt8
  | version1 data => toLE 2 data.toNat
  | version2 data => toLE 4 data.toNat
  | applicableMccMnc mcc mnc => toLE 2 mcc.toNat ++ toLE 2 mnc.toNat
  | profileName name rest _ _ => name ++ (0 :: rest)
  | allowedIccids foot14 iccids _ =>
    foot14 :: UInt8.ofNat iccids.length :: iccids.flatMap fun iccid => toLE 4 iccid.toNat
  | carrierVersionId carrierVersion => toLE 4 carrierVersion.toNat

/-- The network code of a section that has one. -/
def network? : McfgSection → Option (UInt16 × UInt16)
  | applicableMccMnc mcc mnc => some (mcc, mnc)
  | _ => none

/-- The name of a section that has one. -/
def name? : McfgSection → Option (List UInt8)
  | profileName name _ _ _ => some name
  | _ => none

def encode (t : McfgSection) : List UInt8 :=
  UInt8.ofNat t.id.code :: (toLE 2 t.payload.length ++ t.payload)

/-- A section fits a record. -/
theorem length_payload (t : McfgSection) : 0 < t.payload.length ∧ t.payload.length ≤ 61 := by
  cases t with
  | allowedIccids foot14 iccids h =>
    have hlen : (iccids.flatMap fun iccid => toLE 4 iccid.toNat).length = 4 * iccids.length := by
      simp [List.length_flatMap, Nat.mul_comm]
    simp [payload, hlen]
    omega
  | profileName name rest h h' =>
    simp [payload]
    omega
  | _ => simp [payload]

theorem length_encode (t : McfgSection) : t.encode.length = 3 + t.payload.length := by
  simp [encode]
  omega

end McfgSection

/-- The bytes of the sections. -/
def encodeSections (sections : List McfgSection) : List UInt8 :=
  sections.flatMap McfgSection.encode

@[simp] theorem encodeSections_cons (t : McfgSection) (sections : List McfgSection) :
    encodeSections (t :: sections) = t.encode ++ encodeSections sections := rfl

/-! ### The footer -/

/-- `struct mcfg_footer` with its sections, the padding behind them and the end marker. -/
structure McfgFooter where
  sizeTrimmed : UInt16
  sections : List McfgSection
  padding : List UInt8
  padding_le : padding.length ≤ 3

namespace McfgFooter

/-- The length that the footer gives itself. -/
def len (footer : McfgFooter) : ℕ := 24 + (encodeSections footer.sections).length

def size (footer : McfgFooter) : ℕ := footer.len + footer.padding.length

def encode (footer : McfgFooter) : List UInt8 :=
  toLE 4 footer.len ++ (toLE 4 McfgItemType.foot.code ++ (toLE 2 0xa1 ++
    (toLE 2 footer.sizeTrimmed.toNat ++ (mcfgFileFooterMagic ++ (encodeSections footer.sections ++
      (footer.padding ++ toLE 4 footer.size))))))

theorem length_encode (footer : McfgFooter) : footer.encode.length = footer.size := by
  simp [encode, size, len, mcfgFileFooterMagic]
  omega

end McfgFooter

/-! ### Segments -/

/-- The third segment of a software file, from the MCFG header to the end of the file. -/
structure McfgSegment where
  formatVersion : UInt16
  carrierId : UInt16
  padding : UInt16
  sub : McfgSubVersionData
  items : List McfgItem
  footer : McfgFooter

namespace McfgSegment

/-- The header counts the footer as an item. -/
def header (seg : McfgSegment) : McfgFileHeader :=
  ⟨seg.formatVersion, UInt16.ofNat mcfgFiletypeSw, UInt32.ofNat (seg.items.length + 1),
    seg.carrierId, seg.padding⟩

def encode (seg : McfgSegment) : List UInt8 :=
  seg.header.encode ++ (seg.sub.encode ++
    (seg.items.flatMap McfgItem.encode ++ seg.footer.encode))

end McfgSegment

/-! ### ELF headers -/

/-- An ELF header with three program headers behind it, the last one for a segment at `offset`. -/
def elfHeaders (offset : ℕ) : List UInt8 :=
  elfmag ++ (List.replicate 24 0 ++ (toLE 4 52 ++ (List.replicate 12 0 ++ (toLE 2 3 ++
    (List.replicate 6 0 ++ (List.replicate 64 0 ++ (toLE 4 0 ++ (toLE 4 offset ++
      List.replicate 24 0))))))))

end Imsd
