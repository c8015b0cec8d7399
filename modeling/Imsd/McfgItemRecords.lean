import Imsd.McfgReport
import Imsd.McfgVisits

/-!
# What is recorded of the items

`process_nv_configuration_data` computes where the items are in 64 bits, and records it in fields of
16 bits; the bytes of an NV item are then copied from the recorded offset.  The size of the footer
is not recorded at all.  `recorded_iff` says for which files, of whatever size, the records describe
the items nevertheless: each of them begins below 65536 and is shorter than that.  For the record of
the footer, its memory has to hold its size already.
-/

namespace Imsd

open Bytes Exec
open LocateAccess (Fatal)

/-! ### Records -/

namespace FileBuffer

variable (buf : FileBuffer)

/-- The record of the item at an address, over an old one; that of a footer keeps its size. -/
def itemRecord (a : ℕ) (old : ItemBlob) : ItemBlob :=
  match buf.itemType a with
  | some .nv | some .unknown =>
    { buf.itemHeader a old with
      size := UInt16.ofNat (buf.itemSize a)
      blob := copyInto old.blob (bytesAt buf.byte (a % 65536) (buf.itemSize a)) }
  | some .nvfile | some .file =>
    { buf.itemHeader a old with size := UInt16.ofNat (buf.itemSize a) }
  | some .foot => buf.itemHeader a old
  | none => buf.itemHeader a old

/-- What the item at an address adds to `input_nvitems_size`. -/
def countedSize (a : ℕ) : ℕ :=
  match buf.itemType a with
  | some .foot => 0
  | some _ => buf.itemSize a
  | none => 0

/-- The sections of a footer change nothing of the items. -/
theorem items_takeSections (as : List ℕ) : ∀ (k : ℕ) (s : LocateState),
    (buf.takeSections as k s).nvItems = s.nvItems ∧
      (buf.takeSections as k s).inputNvitemsSize = s.inputNvitemsSize := by
  induction as with
  | nil => exact fun _ _ => ⟨rfl, rfl⟩
  | cons a as ih =>
    intro k s
    have hswitch : (buf.switchSection a s).nvItems = s.nvItems ∧
        (buf.switchSection a s).inputNvitemsSize = s.inputNvitemsSize := by
      unfold switchSection
      cases buf.sectionId a with
      | none => exact ⟨rfl, rfl⟩
      | some id => cases id <;> exact ⟨rfl, rfl⟩
    obtain ⟨hitems, hsize⟩ := ih (k + 1) (buf.recordSection k a (buf.switchSection a s))
    exact ⟨hitems.trans hswitch.1, hsize.trans hswitch.2⟩

/-- What one item changes of the records and of the count. -/
theorem items_takeItem (i a : ℕ) (s : LocateState) :
    (buf.takeItem i a s).nvItems =
        Function.update s.nvItems i (buf.itemRecord a (s.nvItems i)) ∧
      (buf.takeItem i a s).inputNvitemsSize =
        s.inputNvitemsSize + UInt32.ofNat (buf.countedSize a) := by
  unfold takeItem takeContent itemRecord countedSize
  cases buf.itemType a with
  | none => exact ⟨rfl, (UInt32.add_zero _).symm⟩
  | some type =>
    cases type with
    | foot =>
      obtain ⟨hitems, hsize⟩ := buf.items_takeSections
        (buf.footerSectionsMet a (buf.footerBytes a)) 0
        { s.setNvItem i (buf.itemHeader a) with
          inputFooterSize := footerSize buf a
          footerItems := fun _ => McfgFooterSection.zero }
      exact ⟨hitems, hsize.trans (UInt32.add_zero _).symm⟩
    | nv => simp [LocateState.setNvItem, LocateState.countNvItem, itemHeader]
    | unknown => simp [LocateState.setNvItem, LocateState.countNvItem, itemHeader]
    | nvfile => simp [LocateState.setNvItem, LocateState.countNvItem, itemHeader]
    | file => simp [LocateState.setNvItem, LocateState.countNvItem, itemHeader]

/-- **The records of the items**: each one is made from its own item, over what it held before. -/
theorem nvItems_takeItems (n : ℕ) : ∀ (i a : ℕ) (s : LocateState),
    (∀ k < n, (buf.itemType (buf.itemOffset a k)).isSome) →
    (∀ j < i, (buf.takeItems n i a s).nvItems j = s.nvItems j) ∧
      ∀ k < n, (buf.takeItems n i a s).nvItems (i + k) =
        buf.itemRecord (buf.itemOffset a k) (s.nvItems (i + k)) := by
  induction n with
  | zero => exact fun i a s _ => ⟨fun _ _ => rfl, fun k hk => absurd hk (Nat.not_lt_zero k)⟩
  | succ n ih =>
    intro i a s hknown
    have hfirst : (buf.itemType a).isSome := hknown 0 (Nat.succ_pos n)
    obtain ⟨hitem, -⟩ := buf.items_takeItem i a s
    obtain ⟨hbefore, hrecords⟩ := ih (i + 1) (buf.itemEnd a) (buf.takeItem i a s) fun k hk => by
      rw [← buf.itemOffset_succ]
      exact hknown (k + 1) (Nat.succ_lt_succ hk)
    rw [takeItems, if_pos hfirst]
    refine ⟨fun j hj => ?_, fun k hk => ?_⟩
    · rw [hbefore j (by omega), hitem, Function.update_of_ne (by omega)]
    · cases k with
      | zero =>
        show (buf.takeItems n (i + 1) (buf.itemEnd a) (buf.takeItem i a s)).nvItems i = _
        rw [hbefore i (by omega), hitem, Function.update_self]
        rfl
      | succ k =>
        have hindex : i + (k + 1) = i + 1 + k := by omega
        rw [hindex, hrecords k (by omega), hitem, Function.update_of_ne (by omega),
          buf.itemOffset_succ]

/-- **The count of the items** is the sum of what each of them adds. -/
theorem inputNvitemsSize_takeItems (n : ℕ) : ∀ (i a : ℕ) (s : LocateState),
    (∀ k < n, (buf.itemType (buf.itemOffset a k)).isSome) →
    (buf.takeItems n i a s).inputNvitemsSize = s.inputNvitemsSize +
      UInt32.ofNat (((List.range n).map fun k => buf.countedSize (buf.itemOffset a k)).sum) := by
  induction n with
  | zero => exact fun i a s _ => (UInt32.add_zero _).symm
  | succ n ih =>
    intro i a s hknown
    have hfirst : (buf.itemType a).isSome := hknown 0 (Nat.succ_pos n)
    obtain ⟨-, hitem⟩ := buf.items_takeItem i a s
    have hrest := ih (i + 1) (buf.itemEnd a) (buf.takeItem i a s) fun k hk => by
      rw [← buf.itemOffset_succ]
      exact hknown (k + 1) (Nat.succ_lt_succ hk)
    rw [takeItems, if_pos hfirst, hrest, hitem, List.range_succ_eq_map, List.map_cons,
      List.sum_cons, List.map_map, UInt32.ofNat_add, UInt32.add_assoc]
    simp only [Function.comp_def, Nat.succ_eq_add_one, buf.itemOffset_succ]
    rfl

end FileBuffer

/-! ### The footer -/

/-- What is recorded of the items. -/
def LocateState.records (s : LocateState) : (ℕ → ItemBlob) × UInt32 :=
  (s.nvItems, s.inputNvitemsSize)

section Footer

variable {buf : FileBuffer}

theorem loadBytes_keeps (a n : ℕ) : Keeps LocateState.records (buf.loadBytes a n) :=
  (Keeps.emitAll _).bind fun _ => .pure _

theorem load_keeps (a w : ℕ) : Keeps LocateState.records (buf.load a w) :=
  (loadBytes_keeps a w).bind fun _ => .pure _

theorem loadString_keeps (a : ℕ) : Keeps LocateState.records (buf.loadString a) :=
  (Keeps.emitAll _).bind fun _ => .pure _

theorem access_keeps (e : LocateAccess) : Keeps LocateState.records (access e) :=
  Keeps.attempt Fatal e

theorem footerSection_keeps (off id : ℕ) (sec3 : Option ℕ) :
    Keeps LocateState.records (footerSection buf off id sec3) := by
  unfold footerSection
  split
  · exact (load_keeps _ _).bind fun _ => .pure _
  · exact (load_keeps _ _).bind fun _ => .pure _
  · exact (load_keeps _ _).bind fun _ => (load_keeps _ _).bind fun _ =>
      Keeps.modify_bind (fun _ => rfl) fun _ => .pure _
  · exact (loadString_keeps _).bind fun _ => (access_keeps _).bind fun _ =>
      Keeps.modify_bind (fun _ => rfl) fun _ => .pure _
  · exact (load_keeps _ _).bind fun _ => (loadBytes_keeps _ _).bind fun _ => .pure _
  · exact (load_keeps _ _).bind fun _ => .pure _
  · split
    · exact (access_keeps _).bind fun _ => .pure _
    · exact (loadString_keeps _).bind fun _ => .pure _

theorem footerSections_keeps (footer maxSize remaining : ℕ) : ∀ (k curr : ℕ) (sec3 : Option ℕ),
    Keeps LocateState.records (footerSections buf footer maxSize remaining k curr sec3) := by
  induction remaining with
  | zero => exact fun _ _ _ => .pure _
  | succ remaining ih =>
    intro k curr sec3
    rw [footerSections]
    refine (load_keeps _ _).bind fun id => (load_keeps _ _).bind fun len => ?_
    refine (footerSection_keeps _ _ _).bind fun sec3 => (loadBytes_keeps _ _).bind fun blob => ?_
    refine (access_keeps _).bind fun _ => Keeps.modify_bind (fun _ => rfl) fun _ => ?_
    exact Keeps.ite (.pure _) (ih _ _ _)

/-- `analyze_footer` records nothing of the items, whether or not the process survives it. -/
theorem analyzeFooter_keeps (footer sz : ℕ) :
    Keeps LocateState.records (analyzeFooter buf footer sz) := by
  unfold analyzeFooter
  refine Keeps.modify_bind (fun _ => rfl) fun _ => Keeps.ite (.pure _) ?_
  refine (loadBytes_keeps _ _).bind fun magic => Keeps.ite (.pure _) ?_
  refine (load_keeps _ _).bind fun magic1 => (load_keeps _ _).bind fun magic2 => ?_
  refine Keeps.ite (.pure _) ((load_keeps _ _).bind fun len => (load_keeps _ _).bind fun _ => ?_)
  exact (load_keeps _ _).bind fun endMarker => footerSections_keeps _ _ _ _ _ _

theorem footItem_keeps (a : ℕ) : Keeps LocateState.records (footItem buf a) := by
  unfold footItem
  refine Keeps.modify_bind (fun _ => rfl) fun _ => (analyzeFooter_keeps _ _).bind fun result => ?_
  exact (access_keeps _).bind fun _ => .pure _

/-- What is recorded at a footer. -/
theorem records_processItem_foot {a : ℕ} (h : buf.itemType a = some .foot) (i : ℕ)
    (s : LocateState) :
    (processItem buf i a s).1.records = (buf.takeItem i a s).records := by
  have hcode : McfgItemType.ofCode (loadLE buf.byte (a + 4) 1) = some .foot := h
  obtain ⟨hitems, hsize⟩ := buf.items_takeItem i a s
  rw [FileBuffer.itemRecord, h] at hitems
  rw [FileBuffer.countedSize, h] at hsize
  have htake : (buf.takeItem i a s).records =
      (s.setNvItem i (buf.itemHeader a)).records :=
    Prod.ext hitems (hsize.trans (UInt32.add_zero _))
  unfold processItem
  rw [(access_performs _).state_bind (by simp [Fatal]),
    (load_performs _ _).state_bind (survived_readsOf _ _),
    (load_performs _ _).state_bind (survived_readsOf _ _),
    (load_performs _ _).state_bind (survived_readsOf _ _),
    (updateNvItem_performs _ _).state_bind survived_nil, htake, hcode]
  exact ((footItem_keeps a).bind fun _ => .pure _) _

/-- What is recorded of items that the process survives, and of a footer behind them. -/
theorem records_processItems (n : ℕ) : ∀ (i start : ℕ) (s : LocateState),
    (∀ k < n, (buf.itemType (buf.itemOffset start k)).isSome) →
    (∀ k < n, buf.ItemSurvived (buf.itemOffset start k)) →
    buf.itemType (buf.itemOffset start n) = some .foot →
    (processItems buf (n + 1) i start s).1.records =
      (buf.takeItems (n + 1) i start s).records := by
  induction n with
  | zero =>
    intro i start s _ _ hfoot
    have htype : buf.itemType start = some .foot := hfoot
    rw [FileBuffer.takeItems, if_pos (by simp [htype]), FileBuffer.takeItems,
      ← records_processItem_foot htype i s]
    -- nothing comes behind the footer
    rw [processItems]
    refine state_bind_induction (fun s' : LocateState => s'.records = _) rfl fun next _ => ?_
    cases next with
    | none => rfl
    | some next => rfl
  | succ n ih =>
    intro i start s hknown hsurvived hfoot
    have hfirst : (buf.itemType start).isSome := hknown 0 (Nat.succ_pos n)
    have hlog : Survived Fatal (buf.itemLog i start) :=
      (FileBuffer.survived_itemLog i start).2 (hsurvived 0 (Nat.succ_pos n))
    rw [FileBuffer.takeItems, if_pos hfirst, processItems,
      (processItem_performs buf i start).state_bind hlog, if_pos hfirst]
    rw [buf.itemOffset_succ] at hfoot
    refine ih (i + 1) (buf.itemEnd start) (buf.takeItem i start s) (fun k hk => ?_) (fun k hk => ?_)
      hfoot
    · rw [← buf.itemOffset_succ]
      exact hknown (k + 1) (Nat.succ_lt_succ hk)
    · rw [← buf.itemOffset_succ]
      exact hsurvived (k + 1) (Nat.succ_lt_succ hk)

end Footer

/-! ### Items where they lie -/

section Items

variable {buf : FileBuffer} {c : ℕ} {rest : List UInt8} {items : List McfgItem}

/-- An item has a header and lengths. -/
theorem McfgItem.le_length_encode (item : McfgItem) : 12 ≤ item.encode.length := by
  cases item with
  | nv header type hmem id payload hle =>
    simp [McfgItem.encode]
    omega
  | file header type hmem first second =>
    simp [McfgItem.encode, McfgNvfilePart.length_encode]
    omega

/-- An item ends where the next one is. -/
theorem placeOf_succ (start : ℕ) {i : ℕ} (hi : i < items.length) :
    placeOf start items (i + 1) = placeOf start items i + items[i].encode.length := by
  rw [placeOf, placeOf, List.take_add_one, List.getElem?_eq_getElem hi, Option.toList_some,
    List.flatMap_append, List.flatMap_singleton, List.length_append, Nat.add_assoc]

theorem placeOf_mono (start : ℕ) {i j : ℕ} (h : i ≤ j) :
    placeOf start items i ≤ placeOf start items j := by
  have hsplit : items.take j = items.take i ++ (items.drop i).take (j - i) := by
    rw [← List.take_add, Nat.add_sub_cancel' h]
  rw [placeOf, placeOf, hsplit, List.flatMap_append, List.length_append]
  omega

/-- An item ends where the footer is, or before. -/
theorem placeOf_add_le (start : ℕ) {i : ℕ} (hi : i < items.length) :
    placeOf start items i + items[i].encode.length ≤ placeOf start items items.length := by
  rw [← placeOf_succ start hi]
  exact placeOf_mono start hi

/-- There are not many items in a few bytes. -/
theorem mul_length_le_placeOf (start : ℕ) (items : List McfgItem) :
    start + 12 * items.length ≤ placeOf start items items.length := by
  have hlen : 12 * items.length ≤ (items.flatMap McfgItem.encode).length := by
    induction items with
    | nil => simp
    | cons item items ih =>
      have hitem := item.le_length_encode
      rw [List.length_cons, List.flatMap_cons, List.length_append]
      omega
  rw [placeOf_length]
  omega

theorem countedSize_of_holds {item : McfgItem} (h : Holds buf.byte c (item.encode ++ rest)) :
    buf.countedSize c = item.encode.length % 65536 := by
  rw [← itemSize_of_holds h]
  have hfoot := item.type_ne_foot
  unfold FileBuffer.countedSize
  rw [McfgItem.itemType_of_holds h]
  cases htype : item.type with
  | foot => exact absurd htype hfoot
  | _ => rfl

/-- Item `i` lies at its place. -/
theorem holds_item (h : Holds buf.byte c (items.flatMap McfgItem.encode ++ rest)) {i : ℕ}
    (hi : i < items.length) :
    ∃ tail, Holds buf.byte (placeOf c items i) (items[i].encode ++ tail) := by
  have hsplit : items.flatMap McfgItem.encode = (items.take i).flatMap McfgItem.encode ++
      (items[i].encode ++ (items.drop (i + 1)).flatMap McfgItem.encode) := by
    rw [← List.flatMap_cons, ← List.drop_eq_getElem_cons hi, ← List.flatMap_append,
      List.take_append_drop]
  rw [hsplit, List.append_assoc, List.append_assoc] at h
  exact ⟨_, (holds_append.1 h).2⟩

end Items

/-- An NV element, of whichever type. -/
def McfgItem.IsNv : McfgItem → Prop
  | nv _ _ _ _ _ _ => True
  | file _ _ _ _ _ => False

namespace McfgImage

variable (image : McfgImage)

/-- The offset of item `i` in the file; the footer is behind the last item. -/
def itemPlace (i : ℕ) : ℕ := placeOf (image.pre.length + 24) image.segment.items i

@[inherit_doc itemPlace]
def footerPlace : ℕ := image.itemPlace image.segment.items.length

/-- A record describes the item at a place: its offset and its size, and the bytes of an NV item are
those of the file. -/
structure Describes (place : ℕ) (item : McfgItem) (record : ItemBlob) : Prop where
  offset : record.offset.toNat = place
  size : record.size.toNat = item.encode.length
  bytes : item.IsNv →
    record.blob.take record.size.toNat = (image.bytes.drop place).take record.size.toNat

/-- Each record describes its own item. -/
def DescribesItems (s : LocateState) : Prop :=
  ∀ i (hi : i < image.segment.items.length),
    image.Describes (image.itemPlace i) image.segment.items[i] (s.nvItems i)

/-- The records of the items are right, and so is the sum of their sizes. -/
structure RecordsItems (s : LocateState) : Prop where
  items : image.DescribesItems s
  total : s.inputNvitemsSize.toNat = (image.segment.items.flatMap McfgItem.encode).length

/-- **The records are right**, also that of the footer, which has a place and a size. -/
structure Recorded (s : LocateState) : Prop extends image.RecordsItems s where
  footerOffset : (s.nvItems image.segment.items.length).offset.toNat = image.footerPlace
  footerSize : (s.nvItems image.segment.items.length).size.toNat = image.segment.footer.size

/-- The file ends with the footer. -/
theorem footerPlace_add_size : image.footerPlace + image.segment.footer.size =
    image.bytes.length := by
  rw [footerPlace, itemPlace, placeOf_length, McfgImage.bytes]
  simp only [McfgSegment.encode, List.length_append, McfgFileHeader.length_encode,
    McfgSubVersionData.length_encode, McfgFooter.length_encode]
  omega

section Run

variable {image} {rest : List UInt8} (hlt : image.bytes.length < 2 ^ 32)

include hlt

/-- The record of an item that 16 bits are enough for. -/
theorem describes_itemRecord {place : ℕ} {item : McfgItem} {tail : List UInt8}
    (h : Holds (FileBuffer.read image.bytes rest).byte place (item.encode ++ tail))
    (hplace : place < 65536) (hlen : item.encode.length < 65536)
    (hinside : place + item.encode.length ≤ image.bytes.length) (old : ItemBlob) :
    image.Describes place item ((FileBuffer.read image.bytes rest).itemRecord place old) := by
  have htype := McfgItem.itemType_of_holds h
  have hsize := itemSize_of_holds h
  have hbytes := bytesAt_inside (FileBuffer.holds_read hlt rest) hinside
  rw [Nat.mod_eq_of_lt hlen] at hsize
  rw [Nat.zero_add] at hbytes
  have hoffset : (UInt16.ofNat place).toNat = place := UInt16.toNat_ofNat_of_lt' hplace
  have hsize' : (UInt16.ofNat item.encode.length).toNat = item.encode.length :=
    UInt16.toNat_ofNat_of_lt' hlen
  have hcopy : (copyInto old.blob (bytesAt (FileBuffer.read image.bytes rest).byte place
      item.encode.length)).take (UInt16.ofNat item.encode.length).toNat =
      (image.bytes.drop place).take (UInt16.ofNat item.encode.length).toNat := by
    rw [hsize', ← hbytes]
    exact List.take_left' (length_bytesAt _ _ _)
  unfold FileBuffer.itemRecord
  rw [htype, hsize, Nat.mod_eq_of_lt hplace]
  cases item with
  | nv header type hmem id payload hle =>
    simp only [McfgItemType.nvTypes, List.mem_cons, List.not_mem_nil, or_false] at hmem
    rcases hmem with rfl | rfl
    · exact ⟨hoffset, hsize', fun _ => hcopy⟩
    · exact ⟨hoffset, hsize', fun _ => hcopy⟩
  | file header type hmem first second =>
    simp only [McfgItemType.fileTypes, List.mem_cons, List.not_mem_nil, or_false] at hmem
    rcases hmem with rfl | rfl
    · exact ⟨hoffset, hsize', False.elim⟩
    · exact ⟨hoffset, hsize', False.elim⟩

variable (h : image.WellFormed)

include h

theorem itemsStart_read :
    (FileBuffer.read image.bytes rest).itemsStart = image.pre.length + 24 := by
  rw [FileBuffer.itemsStart, pOffset_read rest hlt h (by norm_num), h.offset_eq]

/-- What a run records, when all items are counted, whether or not the process survives the
footer. -/
theorem records_run (rest : List UInt8) (hnum : image.segment.items.length + 1 < 65536)
    (s : LocateState) :
    (processNvConfigurationData (.read image.bytes rest)
      ((FileBuffer.read image.bytes rest).setHeaders s)).1.records =
      ((FileBuffer.read image.bytes rest).takeItems (image.segment.items.length + 1) 0
        (FileBuffer.read image.bytes rest).itemsStart
        { (FileBuffer.read image.bytes rest).setHeaders s with inputNvitemsSize := 0 }).records := by
  have hitems := holds_items rest hlt h
  have hcount := (header_read rest hlt h).2.2.1
  obtain ⟨hfooter, -⟩ := footer_read rest hlt h
  rw [← List.append_nil image.segment.footer.encode] at hfooter
  have hloop := records_processItems image.segment.items.length 0
    (FileBuffer.read image.bytes rest).itemsStart
    { (FileBuffer.read image.bytes rest).setHeaders s with inputNvitemsSize := 0 }
    (fun k hk => known_of_holds hitems hk) (itemSurvived_itemOffset hitems)
    (itemType_footer hfooter)
  have hcount' : loadLE (FileBuffer.read image.bytes rest).byte
      ((FileBuffer.read image.bytes rest).pOffset 2 + 8) 4 % 65536 =
      image.segment.items.length + 1 := by
    rw [← Nat.mod_eq_of_lt hnum, ← hcount]
    rfl
  rw [processNvConfigurationData, get_bind, (load_performs _ _).state_bind (survived_readsOf _ _),
    (load_performs _ _).state_bind (survived_readsOf _ _),
    (show Performs Fatal _ _ _ _ from .modify _).state_bind survived_nil]
  show (processItems _ (loadLE (FileBuffer.read image.bytes rest).byte
    ((FileBuffer.read image.bytes rest).pOffset 2 + 8) 4 % 65536) 0 _ _).1.records = _
  rw [hcount']
  exact hloop

/-- The records that a run leaves, when all items are counted. -/
theorem nvItems_run (hnum : image.segment.items.length + 1 < 65536) (s : LocateState) :
    ∀ i ≤ image.segment.items.length,
      (processNvConfigurationData (.read image.bytes rest)
        ((FileBuffer.read image.bytes rest).setHeaders s)).1.nvItems i =
        (FileBuffer.read image.bytes rest).itemRecord (image.itemPlace i) (s.nvItems i) := by
  have hitems := holds_items rest hlt h
  have hcount := (header_read rest hlt h).2.2.1
  have hknown (k : ℕ) (hk : k < (FileBuffer.read image.bytes rest).noOfItems % 65536) :=
    knownItem_read rest hlt h hk
  rw [hcount, Nat.mod_eq_of_lt hnum] at hknown
  intro i hi
  have hrun := congrArg Prod.fst (records_run hlt h rest hnum s)
  refine (congrFun hrun i).trans ?_
  show ((FileBuffer.read image.bytes rest).takeItems (image.segment.items.length + 1) 0
    (FileBuffer.read image.bytes rest).itemsStart _).nvItems i = _
  rw [itemsStart_read hlt h]
  have hrecords := ((FileBuffer.read image.bytes rest).nvItems_takeItems _ 0
    (FileBuffer.read image.bytes rest).itemsStart
    { (FileBuffer.read image.bytes rest).setHeaders s with inputNvitemsSize := 0 } hknown).2 i
    (by omega)
  rw [Nat.zero_add, itemOffset_of_holds hitems i hi, itemsStart_read hlt h] at hrecords
  exact hrecords

/-- The sum that a run leaves, when all items are counted and 16 bits are enough for each. -/
theorem inputNvitemsSize_run (hnum : image.segment.items.length + 1 < 65536)
    (hsizes : ∀ i (hi : i < image.segment.items.length),
      image.segment.items[i].encode.length < 65536) (s : LocateState) :
    (processNvConfigurationData (.read image.bytes rest)
      ((FileBuffer.read image.bytes rest).setHeaders s)).1.inputNvitemsSize =
      UInt32.ofNat (image.segment.items.flatMap McfgItem.encode).length := by
  have hitems := holds_items rest hlt h
  have hcount := (header_read rest hlt h).2.2.1
  have hknown (k : ℕ) (hk : k < (FileBuffer.read image.bytes rest).noOfItems % 65536) :=
    knownItem_read rest hlt h hk
  rw [hcount, Nat.mod_eq_of_lt hnum] at hknown
  obtain ⟨hfooter, -⟩ := footer_read rest hlt h
  rw [← List.append_nil image.segment.footer.encode] at hfooter
  have hlast : (FileBuffer.read image.bytes rest).countedSize
      ((FileBuffer.read image.bytes rest).itemOffset
        (FileBuffer.read image.bytes rest).itemsStart image.segment.items.length) = 0 := by
    rw [FileBuffer.countedSize, itemType_footer hfooter]
  have hsizes' : (List.range image.segment.items.length).map (fun k =>
      (FileBuffer.read image.bytes rest).countedSize
        ((FileBuffer.read image.bytes rest).itemOffset
          (FileBuffer.read image.bytes rest).itemsStart k)) =
      image.segment.items.map fun item => item.encode.length := by
    refine List.ext_getElem (by simp) fun k hk _ => ?_
    have hk' : k < image.segment.items.length := by simpa using hk
    obtain ⟨tail, hitem⟩ := holds_item hitems hk'
    rw [List.getElem_map, List.getElem_map, List.getElem_range,
      itemOffset_of_holds hitems k hk'.le]
    exact (countedSize_of_holds hitem).trans (Nat.mod_eq_of_lt (hsizes k hk'))
  have hsum := (FileBuffer.read image.bytes rest).inputNvitemsSize_takeItems _ 0
    (FileBuffer.read image.bytes rest).itemsStart
    { (FileBuffer.read image.bytes rest).setHeaders s with inputNvitemsSize := 0 } hknown
  rw [List.range_succ, List.map_append, hsizes', List.map_singleton, hlast, List.sum_append,
    List.sum_singleton, Nat.add_zero, ← List.length_flatMap] at hsum
  have hrun := congrArg Prod.snd (records_run hlt h rest hnum s)
  exact hrun.trans (hsum.trans (UInt32.zero_add _))

/-- The records of the items and the sum of their sizes, when 16 bits are enough for all of them. -/
theorem recordsItems_run (hnum : image.segment.items.length + 1 < 65536)
    (hfits : ∀ i (hi : i < image.segment.items.length),
      image.itemPlace i < 65536 ∧ image.segment.items[i].encode.length < 65536)
    (s : LocateState) :
    image.RecordsItems (processNvConfigurationData (.read image.bytes rest)
      ((FileBuffer.read image.bytes rest).setHeaders s)).1 := by
  have hfooter := image.footerPlace_add_size
  constructor
  · intro i hi
    obtain ⟨hplace, hlen⟩ := hfits i hi
    have hitems := holds_items rest hlt h
    rw [itemsStart_read hlt h] at hitems
    obtain ⟨tail, hitem⟩ := holds_item hitems hi
    have hend : image.itemPlace i + image.segment.items[i].encode.length ≤
      image.footerPlace := placeOf_add_le _ hi
    rw [nvItems_run hlt h hnum s i hi.le]
    exact describes_itemRecord hlt hitem hplace hlen
      (hend.trans (Nat.le.intro hfooter)) _
  · have hplace : image.footerPlace = image.pre.length + 24 +
      (image.segment.items.flatMap McfgItem.encode).length := placeOf_length _ _
    have htotal : (image.segment.items.flatMap McfgItem.encode).length < 2 ^ 32 := by omega
    rw [inputNvitemsSize_run hlt h hnum (fun i hi => (hfits i hi).2) s,
      UInt32.toNat_ofNat_of_lt' htotal]

/-- The record of the footer has its offset, and the size that was there. -/
theorem footerRecord_run (rest : List UInt8) (hnum : image.segment.items.length + 1 < 65536)
    (s : LocateState) :
    ((processNvConfigurationData (.read image.bytes rest)
        ((FileBuffer.read image.bytes rest).setHeaders s)).1.nvItems
          image.segment.items.length).offset = UInt16.ofNat image.footerPlace ∧
      ((processNvConfigurationData (.read image.bytes rest)
        ((FileBuffer.read image.bytes rest).setHeaders s)).1.nvItems
          image.segment.items.length).size = (s.nvItems image.segment.items.length).size := by
  have hfooter := holds_place (holds_items rest hlt h)
  rw [itemsStart_read hlt h, ← List.append_nil image.segment.footer.encode] at hfooter
  have htype : (FileBuffer.read image.bytes rest).itemType
      (image.itemPlace image.segment.items.length) = some .foot := itemType_footer hfooter
  rw [nvItems_run hlt h hnum s _ le_rfl, FileBuffer.itemRecord, htype]
  exact ⟨rfl, rfl⟩

omit hlt

/-- A file whose footer begins early is small, and so is its number of items. -/
theorem bounds_of_footerPlace (hplace : image.footerPlace < 2 * 65536) :
    image.bytes.length < 2 ^ 32 ∧ image.segment.items.length + 1 < 65536 := by
  have hfile := image.footerPlace_add_size
  have hfooter := h.footer_lt
  have hcount := mul_length_le_placeOf (image.pre.length + 24) image.segment.items
  have hplace' : image.footerPlace =
    placeOf (image.pre.length + 24) image.segment.items image.segment.items.length := rfl
  omega

/-- So are a file whose items all begin early and its number of items. -/
theorem bounds_of_itemsFit (hsome : image.segment.items ≠ [] ∨ image.bytes.length < 2 ^ 32)
    (hfits : ∀ i (hi : i < image.segment.items.length),
      image.itemPlace i < 65536 ∧ image.segment.items[i].encode.length < 65536) :
    image.bytes.length < 2 ^ 32 ∧ image.segment.items.length + 1 < 65536 := by
  by_cases hnone : image.segment.items = []
  · refine ⟨hsome.resolve_left fun hne => hne hnone, ?_⟩
    rw [hnone]
    decide
  · -- the last item begins below 65536, and ends below twice of it
    obtain ⟨n, hn⟩ := Nat.exists_eq_succ_of_ne_zero (List.length_eq_zero_iff.not.2 hnone)
    have hn' : n < image.segment.items.length := by omega
    obtain ⟨hplace, hlen⟩ := hfits n hn'
    have hlast : image.footerPlace = image.itemPlace (n + 1) := by rw [footerPlace, hn]
    have hend : image.itemPlace (n + 1) =
      image.itemPlace n + image.segment.items[n].encode.length := placeOf_succ _ hn'
    exact bounds_of_footerPlace h (by omega)

/-- **When the records describe the items**, for every well-formed file and whatever lies behind its
buffer: all of them, with that of the footer, and those of the items alone.  (A file of 4 GiB that
has no item has nothing but a sum to get wrong.) -/
theorem recorded_iff (rest : List UInt8) (s : LocateState) :
    (image.Recorded (processNvConfigurationData (.read image.bytes rest)
        ((FileBuffer.read image.bytes rest).setHeaders s)).1 ↔
      image.footerPlace < 65536 ∧
        (s.nvItems image.segment.items.length).size.toNat = image.segment.footer.size) ∧
    (image.segment.items ≠ [] ∨ image.bytes.length < 2 ^ 32 →
      (image.RecordsItems (processNvConfigurationData (.read image.bytes rest)
          ((FileBuffer.read image.bytes rest).setHeaders s)).1 ↔
        ∀ i (hi : i < image.segment.items.length),
          image.itemPlace i < 65536 ∧ image.segment.items[i].encode.length < 65536)) := by
  constructor
  · constructor
    · rintro ⟨-, hoffset, hsize⟩
      have hplace : image.footerPlace < 65536 := hoffset ▸ UInt16.toNat_lt _
      obtain ⟨hlt, hnum⟩ := bounds_of_footerPlace h (by omega)
      rw [(footerRecord_run hlt h rest hnum s).2] at hsize
      exact ⟨hplace, hsize⟩
    · rintro ⟨hplace, hsize⟩
      obtain ⟨hlt, hnum⟩ := bounds_of_footerPlace h (by omega)
      have hfits : ∀ i (hi : i < image.segment.items.length),
          image.itemPlace i < 65536 ∧ image.segment.items[i].encode.length < 65536 := by
        intro i hi
        have hend : image.itemPlace i + image.segment.items[i].encode.length ≤
          image.footerPlace := placeOf_add_le _ hi
        omega
      obtain ⟨hoffset, hold⟩ := footerRecord_run hlt h rest hnum s
      refine ⟨recordsItems_run hlt h hnum hfits s, ?_, ?_⟩
      · rw [hoffset, UInt16.toNat_ofNat_of_lt' hplace]
      · rw [hold, hsize]
  · intro hsome
    constructor
    · rintro ⟨hdescribes, -⟩ i hi
      obtain ⟨hoffset, hsize, -⟩ := hdescribes i hi
      exact ⟨hoffset ▸ UInt16.toNat_lt _, hsize ▸ UInt16.toNat_lt _⟩
    · intro hfits
      obtain ⟨hlt, hnum⟩ := bounds_of_itemsFit h hsome hfits
      exact recordsItems_run hlt h hnum hfits s

end Run

/-- A state whose records hold a size. -/
def stateWithSize (size : UInt16) : LocateState :=
  { LocateState.initial with nvItems := fun _ => ⟨0, 0, 0, 0, size, []⟩ }

/-- An item and a footer of 44 bytes, at an offset that 16 bits are enough for. -/
theorem recorded_sampleSegment :
    (imageAt 0x2000 (McfgFile.sampleSegment 204 4)).Recorded (processNvConfigurationData
      (.read (imageAt 0x2000 (McfgFile.sampleSegment 204 4)).bytes [])
      ((FileBuffer.read (imageAt 0x2000 (McfgFile.sampleSegment 204 4)).bytes []).setHeaders
        (stateWithSize 44))).1 ∧
    (imageAt 0x2000 (McfgFile.sampleSegment 204 4)).RecordsItems (processNvConfigurationData
      (.read (imageAt 0x2000 (McfgFile.sampleSegment 204 4)).bytes [])
      ((FileBuffer.read (imageAt 0x2000 (McfgFile.sampleSegment 204 4)).bytes []).setHeaders
        .initial)).1 := by
  have hfooter := McfgFile.size_footer_sampleSegment 204 4
  have hwell : (imageAt 0x2000 (McfgFile.sampleSegment 204 4)).WellFormed :=
    imageAt_wellFormed _ (by norm_num) (by norm_num) (by decide) (by rw [hfooter]; norm_num)
  have hplace : (imageAt 0x2000 (McfgFile.sampleSegment 204 4)).footerPlace = 0x2000 + 24 + 13 := by
    rw [footerPlace, itemPlace, length_pre_imageAt _ (by norm_num)]
    rfl
  refine ⟨(recorded_iff hwell [] (stateWithSize 44)).1.2
    ⟨by rw [hplace]; norm_num, hfooter.symm⟩, ?_⟩
  refine ((recorded_iff hwell [] .initial).2 (.inl (List.cons_ne_nil _ _))).2 fun i hi => ?_
  have hend : (imageAt 0x2000 (McfgFile.sampleSegment 204 4)).itemPlace i +
    (imageAt 0x2000 (McfgFile.sampleSegment 204 4)).segment.items[i].encode.length ≤
    (imageAt 0x2000 (McfgFile.sampleSegment 204 4)).footerPlace := placeOf_add_le _ hi
  omega

/-- The same at an offset that takes 17 bits. -/
theorem not_recorded_sampleSegment :
    (imageAt 0x10000 (McfgFile.sampleSegment 204 4)).WellFormed ∧
      ¬ (imageAt 0x10000 (McfgFile.sampleSegment 204 4)).RecordsItems (processNvConfigurationData
        (.read (imageAt 0x10000 (McfgFile.sampleSegment 204 4)).bytes [])
        ((FileBuffer.read (imageAt 0x10000 (McfgFile.sampleSegment 204 4)).bytes []).setHeaders
          .initial)).1 := by
  have hfooter := McfgFile.size_footer_sampleSegment 204 4
  refine ⟨imageAt_wellFormed _ (by norm_num) (by norm_num) (by decide)
    (by rw [hfooter]; norm_num), fun hrecorded => ?_⟩
  have hplace : (imageAt 0x10000 (McfgFile.sampleSegment 204 4)).itemPlace 0 = 0x10000 + 24 := by
    rw [itemPlace, length_pre_imageAt _ (by norm_num)]
    rfl
  have hoffset := (hrecorded.items 0 (by decide)).offset
  rw [hplace] at hoffset
  exact absurd (hoffset ▸ UInt16.toNat_lt _) (by norm_num)

end McfgImage

end Imsd
