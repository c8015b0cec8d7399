import Imsd.QmiUtil

/-!
# `pdc_locate.c`: reading software MCFG files

`check_file_header` reads a file into a buffer and takes the carrier id, the network code and the
name of the profile from it.  It walks three levels: the ELF headers (`checkInputFile`), the items
behind the MCFG headers (`processNvConfigurationData`) and the sections of the footer
(`analyzeFooter`).

Nothing stops the walks from leaving the buffer, so the model has the memory behind it, too, and
takes all of it for readable.  The functions log every byte of that memory that they read, every
copy with the number of bytes that it writes, and the steps of the walk.  Every read is the one that
the source makes, except that a field that it reads twice is read once, and that `analyze_footer`'s
two magic numbers are both read before they are compared.

A copy that is longer than the object it goes to, and the use of `sec3` before it is set, are fatal
(`LocateAccess.Fatal`): they end the computation, as nothing is known of a process that goes on
behind them.

The settings `debug` and `fix_carrier_id` are never set, and what is done for them is left out, as
are the messages, but not what is read for them.
-/

namespace Imsd

open Bytes Exec

/-- `ENOSPC`. -/
def enospc : ℕ := 28

/-! ### Enumerations -/

/-- `MCFG_ITEM_TYPE_*`. -/
inductive McfgItemType
  | nv
  | nvfile
  | file
  | unknown
  | foot
  deriving DecidableEq

def McfgItemType.code : McfgItemType → ℕ
  | nv => 0x01
  | nvfile => 0x02
  | file => 0x04
  | unknown => 0x05
  | foot => 0x0a

/-- The type with a code. -/
def McfgItemType.ofCode (code : ℕ) : Option McfgItemType :=
  [nv, nvfile, file, unknown, foot].find? fun type => type.code = code

/-- `MCFG_FOOTER_SECTION_*`. -/
inductive McfgFooterSectionId
  | version1
  | version2
  | applicableMccMnc
  | profileName
  | allowedIccids
  | carrierVersionId
  deriving DecidableEq

def McfgFooterSectionId.code : McfgFooterSectionId → ℕ
  | version1 => 0x00
  | version2 => 0x01
  | applicableMccMnc => 0x02
  | profileName => 0x03
  | allowedIccids => 0x04
  | carrierVersionId => 0x05

@[inherit_doc McfgItemType.ofCode]
def McfgFooterSectionId.ofCode (code : ℕ) : Option McfgFooterSectionId :=
  [version1, version2, applicableMccMnc, profileName, allowedIccids, carrierVersionId].find?
    fun id => id.code = code

/-- `EFS_FILENAME`, `EFS_FILECONTENTS`. -/
def efsFilename : ℕ := 0x01
@[inherit_doc efsFilename] def efsFilecontents : ℕ := 0x02

/-- `MCFG_FILETYPE_SW`. -/
def mcfgFiletypeSw : ℕ := 1

/-- `ELFMAG`, `MCFG_FILE_HEADER_MAGIC`, `MCFG_FILE_FOOTER_MAGIC`. -/
def elfmag : List UInt8 := [0x7f, 0x45, 0x4c, 0x46]
@[inherit_doc elfmag] def mcfgFileHeaderMagic : List UInt8 := [0x4d, 0x43, 0x46, 0x47]
@[inherit_doc elfmag] def mcfgFileFooterMagic : List UInt8 :=
  [0x4d, 0x43, 0x46, 0x47, 0x5f, 0x54, 0x52, 0x4c]

/-- `MAX_OBJ_SIZE`, `MAX_FOOTER_SECTIONS`. -/
def maxObjSize : ℕ := 64
@[inherit_doc maxObjSize] def maxFooterSections : ℕ := 16

/-! ### Data -/

/-- `file_in_buff` and `file_in_sz`: the memory from the start of the buffer on, and the size of
the file.  Behind `mem` there are zero bytes. -/
structure FileBuffer where
  size : UInt32
  mem : List UInt8

/-- What `check_file_header` reads into memory that holds `rest` behind the buffer: the size has
32 bits, and no more than that is read. -/
def FileBuffer.read (file rest : List UInt8) : FileBuffer :=
  ⟨UInt32.ofNat file.length, file.take (file.length % 2 ^ 32) ++ rest⟩

/-- The byte at an address. -/
def FileBuffer.byte (buf : FileBuffer) (a : ℕ) : UInt8 := buf.mem.getD a 0

theorem FileBuffer.size_read {file : List UInt8} (h : file.length < 2 ^ 32) (rest : List UInt8) :
    (FileBuffer.read file rest).size.toNat = file.length :=
  UInt32.toNat_ofNat_of_lt' h

theorem FileBuffer.holds_read {file : List UInt8} (h : file.length < 2 ^ 32) (rest : List UInt8) :
    Holds (FileBuffer.read file rest).byte 0 file := by
  intro i hi
  have hmem : (FileBuffer.read file rest).mem = file ++ rest := by
    rw [FileBuffer.read, Nat.mod_eq_of_lt h, List.take_length]
  rw [byte, hmem, List.getD_eq_getElem?_getD, Nat.zero_add, List.getElem?_append_left hi,
    List.getElem?_eq_getElem hi, Option.getD_some]

/-- The string at an address. -/
def FileBuffer.string (buf : FileBuffer) (a : ℕ) : List UInt8 := cString (buf.mem.drop a)

/-- `struct item_blob`. -/
structure ItemBlob where
  id : UInt32
  type : UInt8
  attrib : UInt8
  offset : UInt16
  size : UInt16
  blob : List UInt8

/-- `struct mcfg_footer_section`. -/
structure McfgFooterSection where
  id : UInt8
  size : UInt16
  blob : List UInt8

/-- A cleared section. -/
def McfgFooterSection.zero : McfgFooterSection := ⟨0, 0, List.replicate maxObjSize 0⟩

/-- The outputs of `check_file_header`, and the global variables.  The pointers `ph2_in` and
`mcfg_head_in` are offsets into the buffer. -/
structure LocateState where
  isValid : Bool
  mcc : UInt8
  mnc : UInt8
  carrierId : UInt32
  internalName : List UInt8
  ph2In : ℕ
  mcfgHeadIn : ℕ
  nvItems : ℕ → ItemBlob
  inputNvitemsSize : UInt32
  inputFooterSize : UInt32
  footerItems : ℕ → McfgFooterSection

/-- A state with nothing in it. -/
def LocateState.initial : LocateState :=
  ⟨false, 0, 0, 0, List.replicate 128 0, 0, 0, fun _ => ⟨0, 0, 0, 0, 0, []⟩, 0, 0,
    fun _ => McfgFooterSection.zero⟩

/-- What the functions do to the memory, and the steps of the walk. -/
inductive LocateAccess
  /-- A byte of the buffer, or of the memory behind it. -/
  | read (a : ℕ)
  /-- Copies to the start of `nv_items[i].blob`, `efsfilenametmp`, `internal_name` and
  `footer_items[k].blob`. -/
  | writeNvItem (i n : ℕ)
  | writeEfsfilenametmp (n : ℕ)
  | writeInternalName (n : ℕ)
  | writeFooterItem (k n : ℕ)
  /-- `sec3` is dereferenced, but it has not been set. -/
  | uninitialised
  /-- Item `i` is found at offset `current`. -/
  | item (i current : ℕ)
  /-- `analyze_footer` has returned. -/
  | footer (footer sz : ℕ) (result : ℤ)
  deriving DecidableEq

/-- The accesses that no process survives: copies that leave their object, and the use of a pointer
that has not been set. -/
def LocateAccess.Fatal : LocateAccess → Prop
  | writeNvItem _ n => maxObjSize < n
  | writeEfsfilenametmp n => 256 < n
  | writeInternalName n => 128 < n
  | writeFooterItem k n => maxFooterSections ≤ k ∨ maxObjSize < n
  | uninitialised => True
  | read _ | item _ _ | footer _ _ _ => False

instance : DecidablePred LocateAccess.Fatal
  | .writeNvItem _ n => inferInstanceAs (Decidable (maxObjSize < n))
  | .writeEfsfilenametmp n => inferInstanceAs (Decidable (256 < n))
  | .writeInternalName n => inferInstanceAs (Decidable (128 < n))
  | .writeFooterItem k n => inferInstanceAs (Decidable (maxFooterSections ≤ k ∨ maxObjSize < n))
  | .uninitialised => inferInstanceAs (Decidable True)
  | .read _ | .item _ _ | .footer _ _ _ => inferInstanceAs (Decidable False)

abbrev LocateM (α : Type) := Exec LocateState LocateAccess α

/-- Log an access; a fatal one ends the process. -/
def access (e : LocateAccess) : LocateM PUnit := Exec.attempt LocateAccess.Fatal e

/-- `memcpy` to the start of an object. -/
def copyInto (dst src : List UInt8) : List UInt8 := src ++ dst.drop src.length

/-! ### Reading -/

namespace FileBuffer

variable (buf : FileBuffer)

/-- The `n` bytes at an address. -/
def loadBytes (a n : ℕ) : LocateM (List UInt8) := do
  Exec.emitAll ((List.range n).map fun i => LocateAccess.read (a + i))
  pure (bytesAt buf.byte a n)

/-- The little-endian field of `w` bytes at an address. -/
def load (a w : ℕ) : LocateM ℕ := do
  let bs ← buf.loadBytes a w
  pure (ofLE bs)

/-- The string at an address, with its NUL. -/
def loadString (a : ℕ) : LocateM (List UInt8) := do
  Exec.emitAll ((List.range ((buf.string a).length + 1)).map fun i => LocateAccess.read (a + i))
  pure (buf.string a)

end FileBuffer

section

variable (buf : FileBuffer)

/-! ### The headers -/

/-- The checks from the MCFG header on; `head` is the offset of the header. -/
def checkMcfgHeader (head : ℕ) : LocateM ℤ := do
  Exec.modify fun s => { s with mcfgHeadIn := head }
  let magic ← buf.loadBytes head 4
  if magic ≠ mcfgFileHeaderMagic then pure (-einval)
  else do
    let _formatVersion ← buf.load (head + 4) 2
    let configType ← buf.load (head + 6) 2
    let _noOfItems ← buf.load (head + 8) 4
    let carrierId ← buf.load (head + 12) 2
    let _subMagic ← buf.load (head + 16) 2
    let _subLen ← buf.load (head + 18) 2
    let _carrierVersion ← buf.load (head + 20) 4
    if configType ≠ mcfgFiletypeSw then pure (-einval)
    else do
      Exec.modify fun s => { s with carrierId := UInt32.ofNat carrierId }
      pure 0

/-- `check_input_file`.  The program headers have 32 bytes each, with `p_offset` at 4. -/
def checkInputFile : LocateM ℤ :=
  if buf.size.toNat < 0x2000 then pure (-einval)
  else do
    let ident ← buf.loadBytes 0 4
    if ident ≠ elfmag then pure (-einval)
    else do
      let phnum ← buf.load 44 2
      if phnum < 3 then pure (-einval)
      else do
        let phoff ← buf.load 28 4
        let offset0 ← buf.load (phoff + 0 * 32 + 4) 4
        if buf.size.toNat < offset0 then pure (-einval)
        else do
          let offset1 ← buf.load (phoff + 1 * 32 + 4) 4
          if buf.size.toNat < offset1 then pure (-einval)
          else do
            Exec.modify fun s => { s with ph2In := phoff + 2 * 32 }
            let offset2 ← buf.load (phoff + 2 * 32 + 4) 4
            if buf.size.toNat < offset2 then pure (-einval)
            else checkMcfgHeader buf offset2

/-! ### The footer -/

/-- The `switch` over the id of the section at `off`; the value is `sec3` after it. -/
def footerSection (off id : ℕ) (sec3 : Option ℕ) : LocateM (Option ℕ) :=
  match McfgFooterSectionId.ofCode id with
  | some .version1 => do
    let _version ← buf.load (off + 3) 2
    pure sec3
  | some .version2 => do
    let _version ← buf.load (off + 3) 4
    pure sec3
  | some .applicableMccMnc => do
    let mcc ← buf.load (off + 3) 2
    let mnc ← buf.load (off + 5) 2
    Exec.modify fun s => { s with mcc := UInt8.ofNat mcc, mnc := UInt8.ofNat mnc }
    pure sec3
  | some .profileName => do
    let name ← buf.loadString (off + 3)
    access (.writeInternalName name.length)
    Exec.modify fun s => { s with internalName := copyInto s.internalName name }
    pure (some off)
  | some .allowedIccids => do
    let numIccids ← buf.load (off + 4) 1
    let _iccids ← buf.loadBytes (off + 5) (4 * numIccids)
    pure sec3
  | some .carrierVersionId => do
    let _carrierVersion ← buf.load (off + 3) 4
    pure sec3
  | none =>
    match sec3 with
    | none => do
      access .uninitialised
      pure none
    | some name => do
      let _name ← buf.loadString (name + 3)
      pure (some name)

/-- The loop over the sections, from section `k` at offset `curr` of the footer on; at most
`remaining` more are parsed.  The offset has moved past every section before it, so `prev_offset`
is `curr`. -/
def footerSections (footer maxSize : ℕ) : ℕ → ℕ → ℕ → Option ℕ → LocateM ℤ
  | 0, _, _, _ => pure (-enospc)
  | remaining + 1, k, curr, sec3 => do
    let id ← buf.load (footer + curr) 1
    let len ← buf.load (footer + curr + 1) 2
    let sec3 ← footerSection buf (footer + curr) id sec3
    let next := curr + 3 + len + if len = 0 then 1 else 0
    let blob ← buf.loadBytes (footer + curr) (next - curr)
    access (.writeFooterItem k (next - curr))
    Exec.modify fun s =>
      { s with
        footerItems := Function.update s.footerItems k
          { id := UInt8.ofNat id
            size := UInt16.ofNat (next - curr)
            blob := copyInto (s.footerItems k).blob blob } }
    if maxSize ≤ next then pure 0
    else footerSections footer maxSize remaining (k + 1) next sec3

/-- `max_obj_size`, from the footer's own length and the end marker, in 32 bits. -/
def maxSectionOffset (len endMarker : ℕ) : ℕ :=
  let paddedBytes := (endMarker + 2 ^ 32 - len) % 2 ^ 32
  (len + 2 ^ 33 - paddedBytes - 4) % 2 ^ 32

/-- `analyze_footer`, for the footer of `sz` bytes at offset `footer` of the buffer. -/
def analyzeFooter (footer sz : ℕ) : LocateM ℤ := do
  Exec.modify fun s => { s with footerItems := fun _ => McfgFooterSection.zero }
  if sz < 20 then pure (-einval)
  else do
    let magic ← buf.loadBytes (footer + 12) 8
    if magic ≠ mcfgFileFooterMagic then pure (-einval)
    else do
      let magic1 ← buf.load (footer + 4) 4
      let magic2 ← buf.load (footer + 8) 2
      if magic1 ≠ McfgItemType.foot.code ∨ magic2 ≠ 0xa1 then pure (-einval)
      else do
        let len ← buf.load footer 4
        let _sizeTrimmed ← buf.load (footer + 10) 2
        let endMarker ← buf.load (footer + sz - 4) 4
        footerSections buf footer (maxSectionOffset len endMarker) maxFooterSections 0 20 none

/-! ### The items -/

/-- Change a record of `nv_items`. -/
def updateNvItem (i : ℕ) (g : ItemBlob → ItemBlob) : LocateM PUnit :=
  Exec.modify fun s => { s with nvItems := Function.update s.nvItems i (g (s.nvItems i)) }

/-- `current_offset - nv_items[i].offset`, in 16 bits; the offset has 16 bits itself. -/
def nvItemSize (start next : ℕ) : ℕ := (next - start % 65536) % 65536

def addNvitemsSize (size : ℕ) : LocateM PUnit :=
  Exec.modify fun s => { s with inputNvitemsSize := s.inputNvitemsSize + UInt32.ofNat size }

/-- An item `MCFG_ITEM_TYPE_NV` or `MCFG_ITEM_TYPE_UNKNOWN`; the value is the offset behind it. -/
def nvItem (i start : ℕ) : LocateM ℕ := do
  let _id ← buf.load (start + 8) 2
  let payloadSize ← buf.load (start + 10) 2
  let next := start + 12 + payloadSize
  let size := nvItemSize start next
  let blob ← buf.loadBytes (start % 65536) size
  access (.writeNvItem i size)
  updateNvItem i fun item =>
    { item with size := UInt16.ofNat size, blob := copyInto item.blob blob }
  addNvitemsSize size
  pure next

/-- One round of the loop over the sections of a file. -/
def nvfilePart (current : ℕ) : LocateM ℕ := do
  let fileSection ← buf.load current 2
  if fileSection = efsFilename then do
    let sectionLen ← buf.load (current + 2) 2
    let _name ← buf.loadBytes (current + 4) sectionLen
    access (.writeEfsfilenametmp sectionLen)
    pure (current + 4 + sectionLen)
  else if fileSection = efsFilecontents then do
    let sectionLen ← buf.load (current + 2) 2
    pure (current + 4 + sectionLen)
  else pure current

/-- An item `MCFG_ITEM_TYPE_NVFILE` or `MCFG_ITEM_TYPE_FILE`. -/
def fileItem (i start : ℕ) : LocateM ℕ := do
  access (.writeEfsfilenametmp 256)
  let second ← nvfilePart buf (start + 8)
  let next ← nvfilePart buf second
  let size := nvItemSize start next
  updateNvItem i fun item => { item with size := UInt16.ofNat size }
  addNvitemsSize size
  pure next

/-- The number of bytes from offset `start` to the end of the file, in 32 bits. -/
def footerSize (start : ℕ) : UInt32 := buf.size - UInt32.ofNat start

/-- An item `MCFG_ITEM_TYPE_FOOT`; `analyze_footer` gets 16 bits of the size, and its result is
dropped. -/
def footItem (start : ℕ) : LocateM ℕ := do
  let size := footerSize buf start
  Exec.modify fun s => { s with inputFooterSize := size }
  let result ← analyzeFooter buf start (size.toNat % 65536)
  access (.footer start (size.toNat % 65536) result)
  pure (start + 8)

/-- Item `i`, at offset `current`; the value is the offset behind it, if the type is known. -/
def processItem (i current : ℕ) : LocateM (Option ℕ) := do
  access (.item i current)
  let id ← buf.load current 4
  let type ← buf.load (current + 4) 1
  let attrib ← buf.load (current + 5) 1
  updateNvItem i fun item =>
    { item with
      offset := UInt16.ofNat current
      attrib := UInt8.ofNat attrib
      type := UInt8.ofNat type
      id := UInt32.ofNat id }
  match McfgItemType.ofCode type with
  | some .nv | some .unknown => do
    let next ← nvItem buf i current
    pure (some next)
  | some .nvfile | some .file => do
    let next ← fileItem buf i current
    pure (some next)
  | some .foot => do
    let next ← footItem buf current
    pure (some next)
  | none => pure none

/-- The loop over the items, from item `i` at offset `current` on; `remaining` are left. -/
def processItems : ℕ → ℕ → ℕ → LocateM ℤ
  | 0, _, _ => pure 0
  | remaining + 1, i, current => do
    let next ← processItem buf i current
    match next with
    | none => pure (-einval)
    | some next => processItems remaining (i + 1) next

/-- `process_nv_configuration_data`; the number of items has 16 bits. -/
def processNvConfigurationData : LocateM ℤ := do
  let s ← Exec.get
  let numItems ← buf.load (s.mcfgHeadIn + 8) 4
  let offset2 ← buf.load (s.ph2In + 4) 4
  Exec.modify fun s => { s with inputNvitemsSize := 0 }
  processItems buf (numItems % 65536) 0 (offset2 + 16 + 8)

/-! ### The file -/

/-- `check_file_header`, once the file is in the buffer. -/
def checkBuffer : LocateM PUnit := do
  let input ← checkInputFile buf
  if input < 0 then pure ⟨⟩
  else do
    let processed ← processNvConfigurationData buf
    if processed < 0 then pure ⟨⟩
    else Exec.modify fun s => { s with isValid := true }

end

/-- `check_file_header`, for a file that may fail to open; `rest` is the memory behind the
buffer. -/
def checkFileHeader (file : Option (List UInt8)) (rest : List UInt8) : LocateM PUnit := do
  Exec.modify fun s => { s with isValid := false, mcc := 0, mnc := 0, carrierId := 0 }
  match file with
  | none => pure ⟨⟩
  | some file => checkBuffer (.read file rest)

end Imsd
