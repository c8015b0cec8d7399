import Imsd.PdcLocate
import Mathlib.Data.List.GetD

/-!
# What the functions of the walk do

No branch of `analyze_footer`, and none of the walk over the items, depends on the state: what is
read, copied and returned depends on the bytes of the buffer alone.  So each of these functions
`Performs` a change of the state, with a log and a value that are given by the buffer:
`footerSections_performs`, `analyzeFooter_performs`, `processItem_performs` and
`processItems_performs`.  The log is the one of a process that survives all its accesses; any other
process ends at the first fatal one.

The sections of a footer and the items are named by their addresses.  They are the iterates of
`sectionEnd` and of `itemEnd`.
-/

namespace Imsd

open Bytes Exec
open LocateAccess (Fatal)

/-! ### Reading -/

/-- The reads of `n` bytes at an address. -/
def readsOf (a n : ℕ) : List LocateAccess := (List.range n).map fun i => LocateAccess.read (a + i)

theorem mem_readsOf {e : LocateAccess} {a n : ℕ} :
    e ∈ readsOf a n ↔ ∃ b, e = .read b ∧ a ≤ b ∧ b < a + n := by
  rw [readsOf, List.mem_map]
  constructor
  · rintro ⟨i, hi, rfl⟩
    have := List.mem_range.1 hi
    exact ⟨a + i, rfl, by omega, by omega⟩
  · rintro ⟨b, rfl, hle, hlt⟩
    exact ⟨b - a, List.mem_range.2 (by omega), by rw [Nat.add_sub_cancel' hle]⟩

@[simp] theorem read_mem_readsOf {a b n : ℕ} :
    LocateAccess.read b ∈ readsOf a n ↔ a ≤ b ∧ b < a + n := by
  rw [mem_readsOf]
  constructor
  · rintro ⟨b', hb, h⟩
    cases hb
    exact h
  · exact fun h => ⟨b, rfl, h⟩

variable {buf : FileBuffer}

/-- Reads are not fatal. -/
@[simp] theorem survived_readsOf (a n : ℕ) : Survived Fatal (readsOf a n) := by
  intro e he
  obtain ⟨b, rfl, -⟩ := mem_readsOf.1 he
  exact not_false

theorem access_performs (e : LocateAccess) : Performs Fatal (access e) id [e] ⟨⟩ :=
  Performs.attempt e

theorem loadBytes_performs (a n : ℕ) :
    Performs Fatal (buf.loadBytes a n) id (readsOf a n) (bytesAt buf.byte a n) :=
  (Performs.emitAll (survived_readsOf a n)).bind_pure _

theorem load_performs (a w : ℕ) :
    Performs Fatal (buf.load a w) id (readsOf a w) (loadLE buf.byte a w) :=
  (loadBytes_performs a w).bind_pure _

theorem loadString_performs (a : ℕ) :
    Performs Fatal (buf.loadString a) id (readsOf a ((buf.string a).length + 1)) (buf.string a) :=
  (Performs.emitAll (survived_readsOf a _)).bind_pure _

/-! ### Sections -/

namespace FileBuffer

variable (buf : FileBuffer)

/-- A string goes on until the first zero byte. -/
theorem string_eq (a : ℕ) :
    buf.string a = if buf.byte a = 0 then [] else buf.byte a :: buf.string (a + 1) := by
  unfold string byte
  by_cases h : a < buf.mem.length
  · rw [List.drop_eq_getElem_cons h, List.getD_eq_getElem _ _ h, cString_cons]
  · rw [List.drop_eq_nil_of_le (by omega), List.getD_eq_default _ _ (by omega)]
    rfl

theorem string_eq_nil_iff (a : ℕ) : buf.string a = [] ↔ buf.byte a = 0 := by
  rw [string_eq]
  split_ifs with h <;> simp [h]

/-- The id of the section at an address. -/
def sectionId (a : ℕ) : Option McfgFooterSectionId :=
  McfgFooterSectionId.ofCode (loadLE buf.byte a 1)

/-- The end of the section at an address; an empty section takes a byte more. -/
def sectionEnd (a : ℕ) : ℕ :=
  a + 3 + loadLE buf.byte (a + 1) 2 + if loadLE buf.byte (a + 1) 2 = 0 then 1 else 0

/-- The sections met from address `a` on, when the last one ends at `stop` or behind it. -/
def sectionsFrom (stop : ℕ) : ℕ → ℕ → List ℕ
  | 0, _ => []
  | remaining + 1, a =>
    a :: if stop ≤ buf.sectionEnd a then [] else sectionsFrom stop remaining (buf.sectionEnd a)

theorem lt_sectionEnd (a : ℕ) : a < buf.sectionEnd a := by
  unfold sectionEnd
  omega

theorem le_iterate_sectionEnd (n a : ℕ) : a ≤ buf.sectionEnd^[n] a :=
  Function.id_le_iterate_of_id_le (fun a => (buf.lt_sectionEnd a).le) n a

/-- What the `switch` over the section at an address reads and copies. -/
def switchLog (a : ℕ) (sec3 : Option ℕ) : List LocateAccess :=
  match buf.sectionId a with
  | some .version1 => readsOf (a + 3) 2
  | some .version2 => readsOf (a + 3) 4
  | some .applicableMccMnc => readsOf (a + 3) 2 ++ readsOf (a + 5) 2
  | some .profileName =>
    readsOf (a + 3) ((buf.string (a + 3)).length + 1) ++
      [.writeInternalName (buf.string (a + 3)).length]
  | some .allowedIccids => readsOf (a + 4) 1 ++ readsOf (a + 5) (4 * loadLE buf.byte (a + 4) 1)
  | some .carrierVersionId => readsOf (a + 3) 4
  | none =>
    match sec3 with
    | none => [.uninitialised]
    | some name => readsOf (name + 3) ((buf.string (name + 3)).length + 1)

/-- `sec3` behind the section at an address. -/
def sec3After (a : ℕ) (sec3 : Option ℕ) : Option ℕ :=
  if buf.sectionId a = some .profileName then some a else sec3

/-- What the `switch` changes. -/
def switchSection (a : ℕ) (s : LocateState) : LocateState :=
  match buf.sectionId a with
  | some .applicableMccMnc =>
    { s with
      mcc := UInt8.ofNat (loadLE buf.byte (a + 3) 2)
      mnc := UInt8.ofNat (loadLE buf.byte (a + 5) 2) }
  | some .profileName =>
    { s with internalName := copyInto s.internalName (buf.string (a + 3)) }
  | _ => s

/-- The record of the section at an address, over an old one. -/
def sectionRecord (a : ℕ) (old : McfgFooterSection) : McfgFooterSection :=
  { id := UInt8.ofNat (loadLE buf.byte a 1)
    size := UInt16.ofNat (buf.sectionEnd a - a)
    blob := copyInto old.blob (bytesAt buf.byte a (buf.sectionEnd a - a)) }

def recordSection (k a : ℕ) (s : LocateState) : LocateState :=
  { s with
    footerItems := Function.update s.footerItems k (buf.sectionRecord a (s.footerItems k)) }

/-- What section `k` at an address reads and copies. -/
def sectionLog (k a : ℕ) (sec3 : Option ℕ) : List LocateAccess :=
  readsOf a 1 ++ (readsOf (a + 1) 2 ++ (buf.switchLog a sec3 ++
    (readsOf a (buf.sectionEnd a - a) ++ [.writeFooterItem k (buf.sectionEnd a - a)])))

/-- What sections, from section `k` on, read and copy. -/
def sectionsLog : List ℕ → ℕ → Option ℕ → List LocateAccess
  | [], _, _ => []
  | a :: as, k, sec3 =>
    buf.sectionLog k a sec3 ++ sectionsLog as (k + 1) (buf.sec3After a sec3)

/-- What sections, from section `k` on, change. -/
def takeSections : List ℕ → ℕ → LocateState → LocateState
  | [], _, s => s
  | a :: as, k, s => takeSections as (k + 1) (buf.recordSection k a (buf.switchSection a s))

end FileBuffer

theorem footerSection_performs (a : ℕ) (sec3 : Option ℕ) :
    Performs Fatal (footerSection buf a (loadLE buf.byte a 1) sec3) (buf.switchSection a)
      (buf.switchLog a sec3) (buf.sec3After a sec3) := by
  have hid : McfgFooterSectionId.ofCode (loadLE buf.byte a 1) = buf.sectionId a := rfl
  unfold footerSection FileBuffer.switchSection FileBuffer.switchLog FileBuffer.sec3After
  rw [hid]
  cases buf.sectionId a with
  | none =>
    cases sec3 with
    | none => exact (access_performs _).bind_pure _
    | some name => exact (loadString_performs _).bind_pure _
  | some id =>
    cases id with
    | version1 => exact (load_performs _ _).bind_pure _
    | version2 => exact (load_performs _ _).bind_pure _
    | applicableMccMnc =>
      exact (load_performs _ _).bind_id ((load_performs _ _).bind_silent
        ((Performs.modify _).bind_pure _))
    | profileName =>
      exact (loadString_performs _).bind_id ((access_performs _).bind_silent
        ((Performs.modify _).bind_pure _))
    | allowedIccids =>
      exact (load_performs _ _).bind_id ((loadBytes_performs _ _).bind_pure _)
    | carrierVersionId => exact (load_performs _ _).bind_pure _

/-- The record of section `k`, at an address, and what follows it. -/
theorem recordSection_performs {k a n : ℕ} {y : LocateM ℤ} {g : LocateState → LocateState}
    {log : List LocateAccess} {result : ℤ} (hn : n = buf.sectionEnd a - a)
    (hy : Performs Fatal y g log result) :
    Performs Fatal (do
      let blob ← buf.loadBytes a n
      access (.writeFooterItem k n)
      Exec.modify fun s =>
        { s with
          footerItems := Function.update s.footerItems k
            { id := UInt8.ofNat (loadLE buf.byte a 1)
              size := UInt16.ofNat n
              blob := copyInto (s.footerItems k).blob blob } }
      y) (g ∘ buf.recordSection k a)
      (readsOf a (buf.sectionEnd a - a) ++
        (.writeFooterItem k (buf.sectionEnd a - a) :: log)) result := by
  subst hn
  exact (loadBytes_performs _ _).bind_id ((access_performs _).bind_id
    ((Performs.modify (buf.recordSection k a)).bind hy))

/-- One round of the loop over the sections, with the record left. -/
theorem sectionRound_performs {k a : ℕ} {sec3 : Option ℕ} {as : List ℕ}
    {f : ℕ → Option ℕ → LocateM ℤ} {result : ℤ}
    (hf : Performs Fatal (f (loadLE buf.byte a 1) (buf.sec3After a sec3))
      (buf.takeSections as (k + 1) ∘ buf.recordSection k a)
      (readsOf a (buf.sectionEnd a - a) ++ (.writeFooterItem k (buf.sectionEnd a - a) ::
        buf.sectionsLog as (k + 1) (buf.sec3After a sec3))) result) :
    Performs Fatal (do
      let id ← buf.load a 1
      let _len ← buf.load (a + 1) 2
      let sec3 ← footerSection buf a id sec3
      f id sec3) (buf.takeSections (a :: as) k) (buf.sectionsLog (a :: as) k sec3) result := by
  simp only [FileBuffer.sectionsLog, FileBuffer.sectionLog, List.append_assoc]
  exact (load_performs _ _).bind_id ((load_performs _ _).bind_id
    ((footerSection_performs _ _).bind hf))

/-- The loop over the sections succeeds if they get to the stop in time. -/
theorem footerSections_performs (footer maxSize : ℕ) (remaining : ℕ) :
    ∀ (k curr : ℕ) (sec3 : Option ℕ),
      Performs Fatal (footerSections buf footer maxSize remaining k curr sec3)
        (buf.takeSections (buf.sectionsFrom (footer + maxSize) remaining (footer + curr)) k)
        (buf.sectionsLog (buf.sectionsFrom (footer + maxSize) remaining (footer + curr)) k sec3)
        (if 0 < remaining ∧ footer + maxSize ≤ buf.sectionEnd^[remaining] (footer + curr) then 0
          else -enospc) := by
  induction remaining with
  | zero => exact fun k curr sec3 => Performs.pure _
  | succ remaining ih =>
    intro k curr sec3
    let next := curr + 3 + loadLE buf.byte (footer + curr + 1) 2 +
      if loadLE buf.byte (footer + curr + 1) 2 = 0 then 1 else 0
    have hnext : buf.sectionEnd (footer + curr) = footer + next := by
      simp only [FileBuffer.sectionEnd, next]
      omega
    have hsize : next - curr = buf.sectionEnd (footer + curr) - (footer + curr) := by omega
    have hle := buf.le_iterate_sectionEnd remaining (footer + next)
    rw [FileBuffer.sectionsFrom, Function.iterate_succ_apply, hnext]
    by_cases hstop : maxSize ≤ next
    · rw [if_pos (Nat.add_le_add_left hstop footer), if_pos ⟨Nat.succ_pos _, by omega⟩]
      refine sectionRound_performs ?_
      exact recordSection_performs hsize (.ite_pos hstop (.pure _))
    · have hresult : (0 < remaining + 1 ∧
          footer + maxSize ≤ buf.sectionEnd^[remaining] (footer + next)) ↔
          0 < remaining ∧ footer + maxSize ≤ buf.sectionEnd^[remaining] (footer + next) := by
        cases remaining with
        | zero => simpa using Nat.lt_of_not_le hstop
        | succ remaining => simp
      have hlt : ¬ footer + maxSize ≤ footer + next := by rwa [Nat.add_le_add_iff_left]
      rw [if_neg hlt, if_congr hresult rfl rfl]
      refine sectionRound_performs ?_
      exact recordSection_performs hsize (.ite_neg hstop (ih (k + 1) next _))

/-! ### The footer -/

namespace FileBuffer

variable (buf : FileBuffer)

/-- The checks of `analyze_footer` before the sections. -/
def FooterHeader (footer sz : ℕ) : Prop :=
  20 ≤ sz ∧ bytesAt buf.byte (footer + 12) 8 = mcfgFileFooterMagic ∧
    loadLE buf.byte (footer + 4) 4 = McfgItemType.foot.code ∧
    loadLE buf.byte (footer + 8) 2 = 0xa1

instance (footer sz : ℕ) : Decidable (buf.FooterHeader footer sz) :=
  inferInstanceAs (Decidable (_ ∧ _))

/-- The address at which the sections of a footer stop. -/
def footerStop (footer sz : ℕ) : ℕ :=
  footer + maxSectionOffset (loadLE buf.byte footer 4) (loadLE buf.byte (footer + sz - 4) 4)

/-- The sections that `analyze_footer` meets. -/
def footerSectionsMet (footer sz : ℕ) : List ℕ :=
  if buf.FooterHeader footer sz then
    buf.sectionsFrom (buf.footerStop footer sz) maxFooterSections (footer + 20)
  else []

/-- **The footers that `analyze_footer` accepts**: the sections behind the header, laid one after
the other, get to the stop within 16 of them. -/
def FooterAccepted (footer sz : ℕ) : Prop :=
  buf.FooterHeader footer sz ∧
    buf.footerStop footer sz ≤ buf.sectionEnd^[maxFooterSections] (footer + 20)

instance (footer sz : ℕ) : Decidable (buf.FooterAccepted footer sz) :=
  inferInstanceAs (Decidable (_ ∧ _))

/-- What `analyze_footer` returns. -/
def footerResult (footer sz : ℕ) : ℤ :=
  if buf.FooterAccepted footer sz then 0
  else if buf.FooterHeader footer sz then -enospc else -einval

/-- What `analyze_footer` reads before the sections. -/
def footerHeaderLog (footer sz : ℕ) : List LocateAccess :=
  if sz < 20 then []
  else readsOf (footer + 12) 8 ++
    if bytesAt buf.byte (footer + 12) 8 ≠ mcfgFileFooterMagic then []
    else readsOf (footer + 4) 4 ++ (readsOf (footer + 8) 2 ++
      if loadLE buf.byte (footer + 4) 4 ≠ McfgItemType.foot.code ∨
          loadLE buf.byte (footer + 8) 2 ≠ 0xa1 then []
      else readsOf footer 4 ++ (readsOf (footer + 10) 2 ++ readsOf (footer + sz - 4) 4))

def footerLog (footer sz : ℕ) : List LocateAccess :=
  buf.footerHeaderLog footer sz ++ buf.sectionsLog (buf.footerSectionsMet footer sz) 0 none

/-- What `analyze_footer` changes. -/
def takeFooter (footer sz : ℕ) (s : LocateState) : LocateState :=
  buf.takeSections (buf.footerSectionsMet footer sz) 0
    { s with footerItems := fun _ => McfgFooterSection.zero }

theorem footerSectionsMet_of_not_header {footer sz : ℕ} (h : ¬ buf.FooterHeader footer sz) :
    buf.footerSectionsMet footer sz = [] ∧ buf.footerResult footer sz = -einval :=
  ⟨if_neg h, by rw [footerResult, if_neg fun h' => h h'.1, if_neg h]⟩

/-- A footer with a header is accepted if its sections get to the stop. -/
theorem footerResult_of_header {footer sz : ℕ} (h : buf.FooterHeader footer sz) :
    buf.footerResult footer sz =
      if 0 < maxFooterSections ∧
        buf.footerStop footer sz ≤ buf.sectionEnd^[maxFooterSections] (footer + 20) then (0 : ℤ)
      else -enospc := by
  rw [footerResult, if_pos h]
  apply if_congr _ rfl rfl
  rw [FooterAccepted]
  exact and_congr_left fun _ => iff_of_true h (by decide)

end FileBuffer

theorem analyzeFooter_performs (footer sz : ℕ) :
    Performs Fatal (analyzeFooter buf footer sz) (buf.takeFooter footer sz)
      (buf.footerLog footer sz) (buf.footerResult footer sz) := by
  show Performs Fatal _ (buf.takeSections (buf.footerSectionsMet footer sz) 0 ∘ fun s =>
    { s with footerItems := fun _ => McfgFooterSection.zero }) _ _
  refine (Performs.modify _).bind_nil ?_
  unfold FileBuffer.footerLog FileBuffer.footerHeaderLog
  by_cases hheader : buf.FooterHeader footer sz
  · have hresult := buf.footerResult_of_header hheader
    have hmet : buf.footerSectionsMet footer sz =
        buf.sectionsFrom (buf.footerStop footer sz) maxFooterSections (footer + 20) :=
      if_pos hheader
    obtain ⟨hsize, hmagic, hmagics⟩ := hheader
    have hsize' := Nat.not_lt.2 hsize
    have hmagic' := not_not.2 hmagic
    have hmagics' := not_or.2 (hmagics.imp not_not.2 not_not.2)
    rw [hmet, hresult, if_neg hsize', if_neg hsize', if_neg hmagic', if_neg hmagics']
    simp only [List.append_assoc]
    refine (loadBytes_performs _ _).bind_id (.ite_neg hmagic' ?_)
    refine (load_performs _ _).bind_id ((load_performs _ _).bind_id (.ite_neg hmagics' ?_))
    refine (load_performs _ _).bind_id ((load_performs _ _).bind_id
      ((load_performs _ _).bind_id ?_))
    exact footerSections_performs footer _ maxFooterSections 0 20 none
  · obtain ⟨hmet, hresult⟩ := buf.footerSectionsMet_of_not_header hheader
    rw [hmet, hresult, FileBuffer.sectionsLog, List.append_nil]
    by_cases hsize : sz < 20
    · rw [if_pos hsize, if_pos hsize]
      exact .pure _
    rw [if_neg hsize, if_neg hsize]
    refine (loadBytes_performs _ _).bind_id ?_
    by_cases hmagic : bytesAt buf.byte (footer + 12) 8 ≠ mcfgFileFooterMagic
    · rw [if_pos hmagic, if_pos hmagic]
      exact .pure _
    rw [if_neg hmagic, if_neg hmagic]
    refine (load_performs _ _).bind_id ((load_performs _ _).bind_id ?_)
    by_cases hmagics : loadLE buf.byte (footer + 4) 4 ≠ McfgItemType.foot.code ∨
        loadLE buf.byte (footer + 8) 2 ≠ 0xa1
    · rw [if_pos hmagics, if_pos hmagics]
      exact .pure _
    push Not at hsize hmagic hmagics
    exact absurd ⟨hsize, hmagic, hmagics⟩ hheader

/-! ### Items -/

/-- A footer in the file goes on to the end of the file. -/
theorem toNat_footerSize {a : ℕ} (h : a ≤ buf.size.toNat) :
    (footerSize buf a).toNat = buf.size.toNat - a := by
  have ha : a < 2 ^ 32 := h.trans_lt buf.size.toNat_lt
  have hle : UInt32.ofNat a ≤ buf.size := by
    rwa [UInt32.le_iff_toNat_le, UInt32.toNat_ofNat_of_lt' ha]
  rw [footerSize, UInt32.toNat_sub_of_le _ _ hle, UInt32.toNat_ofNat_of_lt' ha]

/-- Change a record of `nv_items`. -/
def LocateState.setNvItem (i : ℕ) (g : ItemBlob → ItemBlob) (s : LocateState) : LocateState :=
  { s with nvItems := Function.update s.nvItems i (g (s.nvItems i)) }

/-- Add to `input_nvitems_size`. -/
def LocateState.countNvItem (size : ℕ) (s : LocateState) : LocateState :=
  { s with inputNvitemsSize := s.inputNvitemsSize + UInt32.ofNat size }

theorem updateNvItem_performs (i : ℕ) (g : ItemBlob → ItemBlob) :
    Performs Fatal (updateNvItem i g) (LocateState.setNvItem i g) [] ⟨⟩ :=
  Performs.modify _

theorem addNvitemsSize_performs (size : ℕ) :
    Performs Fatal (addNvitemsSize size) (LocateState.countNvItem size) [] ⟨⟩ :=
  Performs.modify _

namespace FileBuffer

variable (buf : FileBuffer)

/-- The type of the item at an address. -/
def itemType (a : ℕ) : Option McfgItemType := McfgItemType.ofCode (loadLE buf.byte (a + 4) 1)

/-- The end of the section of a file at an address, if its kind is known. -/
def partEnd (a : ℕ) : ℕ :=
  if loadLE buf.byte a 2 = efsFilename ∨ loadLE buf.byte a 2 = efsFilecontents then
    a + 4 + loadLE buf.byte (a + 2) 2
  else a

/-- The end of the item at an address; only the item header of a footer is passed, and nothing of
an unknown item. -/
def itemEnd (a : ℕ) : ℕ :=
  match buf.itemType a with
  | some .nv | some .unknown => a + 12 + loadLE buf.byte (a + 10) 2
  | some .nvfile | some .file => buf.partEnd (buf.partEnd (a + 8))
  | some .foot => a + 8
  | none => a

/-- The offset of item `k`, when the first one is at `start`. -/
def itemOffset (start k : ℕ) : ℕ := buf.itemEnd^[k] start

/-- The size of a footer as `analyze_footer` gets it. -/
def footerBytes (a : ℕ) : ℕ := (footerSize buf a).toNat % 65536

theorem itemOffset_succ (start k : ℕ) :
    buf.itemOffset start (k + 1) = buf.itemOffset (buf.itemEnd start) k :=
  Function.iterate_succ_apply _ k start

/-- `nv_items[i].size` for the item at an address, if it has an end. -/
def itemSize (a : ℕ) : ℕ := nvItemSize a (buf.itemEnd a)

/-- What the section of a file at an address reads and copies. -/
def partLog (a : ℕ) : List LocateAccess :=
  readsOf a 2 ++
    if loadLE buf.byte a 2 = efsFilename then
      readsOf (a + 2) 2 ++ (readsOf (a + 4) (loadLE buf.byte (a + 2) 2) ++
        [.writeEfsfilenametmp (loadLE buf.byte (a + 2) 2)])
    else if loadLE buf.byte a 2 = efsFilecontents then readsOf (a + 2) 2
    else []

/-- What item `i` at an address reads and copies behind its header. -/
def contentLog (i a : ℕ) : List LocateAccess :=
  match buf.itemType a with
  | some .nv | some .unknown =>
    readsOf (a + 8) 2 ++ (readsOf (a + 10) 2 ++
      (readsOf (a % 65536) (buf.itemSize a) ++ [.writeNvItem i (buf.itemSize a)]))
  | some .nvfile | some .file =>
    .writeEfsfilenametmp 256 :: (buf.partLog (a + 8) ++ buf.partLog (buf.partEnd (a + 8)))
  | some .foot =>
    buf.footerLog a (buf.footerBytes a) ++
      [.footer a (buf.footerBytes a) (buf.footerResult a (buf.footerBytes a))]
  | none => []

/-- What item `i` at an address reads and copies. -/
def itemLog (i a : ℕ) : List LocateAccess :=
  .item i a :: (readsOf a 4 ++ (readsOf (a + 4) 1 ++ (readsOf (a + 5) 1 ++ buf.contentLog i a)))

/-- The record of an item, without its size and bytes. -/
def itemHeader (a : ℕ) (item : ItemBlob) : ItemBlob :=
  { item with
    offset := UInt16.ofNat a
    attrib := UInt8.ofNat (loadLE buf.byte (a + 5) 1)
    type := UInt8.ofNat (loadLE buf.byte (a + 4) 1)
    id := UInt32.ofNat (loadLE buf.byte a 4) }

/-- What item `i` at an address changes behind the record of its header. -/
def takeContent (i a : ℕ) (s : LocateState) : LocateState :=
  match buf.itemType a with
  | some .nv | some .unknown =>
    (s.setNvItem i fun item =>
      { item with
        size := UInt16.ofNat (buf.itemSize a)
        blob := copyInto item.blob (bytesAt buf.byte (a % 65536) (buf.itemSize a)) }).countNvItem
      (buf.itemSize a)
  | some .nvfile | some .file =>
    (s.setNvItem i fun item =>
      { item with size := UInt16.ofNat (buf.itemSize a) }).countNvItem (buf.itemSize a)
  | some .foot =>
    buf.takeFooter a (buf.footerBytes a) { s with inputFooterSize := footerSize buf a }
  | none => s

/-- What item `i` at an address changes. -/
def takeItem (i a : ℕ) (s : LocateState) : LocateState :=
  buf.takeContent i a (s.setNvItem i (buf.itemHeader a))

/-- What `n` items, from item `i` at an address on, read and copy. -/
def itemsLog : ℕ → ℕ → ℕ → List LocateAccess
  | 0, _, _ => []
  | n + 1, i, a =>
    buf.itemLog i a ++ if (buf.itemType a).isSome then itemsLog n (i + 1) (buf.itemEnd a) else []

/-- What `n` items, from item `i` at an address on, change. -/
def takeItems : ℕ → ℕ → ℕ → LocateState → LocateState
  | 0, _, _, s => s
  | n + 1, i, a, s =>
    if (buf.itemType a).isSome then takeItems n (i + 1) (buf.itemEnd a) (buf.takeItem i a s)
    else buf.takeItem i a s

/-- What the loop over `n` items returns. -/
def itemsResult (start n : ℕ) : ℤ :=
  if ∀ k < n, (buf.itemType (buf.itemOffset start k)).isSome then 0 else -einval

end FileBuffer

theorem nvfilePart_performs (a : ℕ) :
    Performs Fatal (nvfilePart buf a) id (buf.partLog a) (buf.partEnd a) := by
  unfold FileBuffer.partEnd FileBuffer.partLog
  refine (load_performs _ _).bind_id ?_
  by_cases hname : loadLE buf.byte a 2 = efsFilename
  · rw [if_pos hname, if_pos hname, if_pos (Or.inl hname)]
    exact (load_performs _ _).bind_id ((loadBytes_performs _ _).bind_id
      ((access_performs _).bind_pure _))
  · rw [if_neg hname, if_neg hname]
    by_cases hcontents : loadLE buf.byte a 2 = efsFilecontents
    · rw [if_pos hcontents, if_pos hcontents, if_pos (Or.inr hcontents)]
      exact (load_performs _ _).bind_pure _
    · rw [if_neg hcontents, if_neg hcontents, if_neg (not_or.2 ⟨hname, hcontents⟩)]
      exact .pure _

/-- The end of an item: its record is changed, and its size is counted. -/
theorem countItem_performs (i size next : ℕ) (g : ItemBlob → ItemBlob) :
    Performs Fatal (do
      updateNvItem i g
      addNvitemsSize size
      pure next)
      (LocateState.countNvItem size ∘ LocateState.setNvItem i g) [] next := by
  have hcount : Performs Fatal (do
      addNvitemsSize size
      pure next) (LocateState.countNvItem size) [] next :=
    (addNvitemsSize_performs size).bind_pure _
  exact (updateNvItem_performs i g).bind_nil hcount

theorem nvItem_performs (i a : ℕ) {next size : ℕ}
    (hnext : a + 12 + loadLE buf.byte (a + 10) 2 = next) (hsize : nvItemSize a next = size) :
    Performs Fatal (nvItem buf i a)
      (fun s => (s.setNvItem i fun item =>
        { item with
          size := UInt16.ofNat size
          blob := copyInto item.blob (bytesAt buf.byte (a % 65536) size) }).countNvItem size)
      (readsOf (a + 8) 2 ++ (readsOf (a + 10) 2 ++
        (readsOf (a % 65536) size ++ [.writeNvItem i size]))) next := by
  subst hnext hsize
  exact (load_performs _ _).bind_id ((load_performs _ _).bind_id ((loadBytes_performs _ _).bind_id
    ((access_performs _).bind_silent (countItem_performs _ _ _ _))))

theorem fileItem_performs (i a : ℕ) {next size : ℕ}
    (hnext : buf.partEnd (buf.partEnd (a + 8)) = next) (hsize : nvItemSize a next = size) :
    Performs Fatal (fileItem buf i a)
      (fun s =>
        (s.setNvItem i fun item => { item with size := UInt16.ofNat size }).countNvItem size)
      (.writeEfsfilenametmp 256 :: (buf.partLog (a + 8) ++ buf.partLog (buf.partEnd (a + 8))))
      next := by
  subst hnext hsize
  exact (access_performs _).bind_id ((nvfilePart_performs _).bind_id
    ((nvfilePart_performs _).bind_silent (countItem_performs _ _ _ _)))

theorem footItem_performs (a : ℕ) :
    Performs Fatal (footItem buf a)
      (fun s => buf.takeFooter a (buf.footerBytes a) { s with inputFooterSize := footerSize buf a })
      (buf.footerLog a (buf.footerBytes a) ++
        [.footer a (buf.footerBytes a) (buf.footerResult a (buf.footerBytes a))]) (a + 8) := by
  have hresult : Performs Fatal ((do
      access (.footer a (buf.footerBytes a) (buf.footerResult a (buf.footerBytes a)))
      pure (a + 8)) : LocateM ℕ) id
      [.footer a (buf.footerBytes a) (buf.footerResult a (buf.footerBytes a))] (a + 8) :=
    (access_performs _).bind_pure _
  have hfooter : Performs Fatal (do
      let result ← analyzeFooter buf a (buf.footerBytes a)
      access (.footer a (buf.footerBytes a) result)
      pure (a + 8)) (id ∘ buf.takeFooter a (buf.footerBytes a))
      (buf.footerLog a (buf.footerBytes a) ++
        [.footer a (buf.footerBytes a) (buf.footerResult a (buf.footerBytes a))]) (a + 8) :=
    (analyzeFooter_performs a _).bind hresult
  show Performs Fatal _ ((id ∘ buf.takeFooter a (buf.footerBytes a)) ∘ fun s =>
    { s with inputFooterSize := footerSize buf a }) _ _
  exact (Performs.modify _).bind_nil hfooter

/-- **The step of the walk.** -/
theorem processItem_performs (buf : FileBuffer) (i a : ℕ) :
    Performs Fatal (processItem buf i a) (buf.takeItem i a) (buf.itemLog i a)
      (if (buf.itemType a).isSome then some (buf.itemEnd a) else none) := by
  show Performs Fatal _ (buf.takeContent i a ∘ LocateState.setNvItem i (buf.itemHeader a)) _ _
  refine (access_performs _).bind_id ((load_performs _ _).bind_id ((load_performs _ _).bind_id
    ((load_performs _ _).bind_id ((updateNvItem_performs _ _).bind_nil ?_))))
  have htype : McfgItemType.ofCode (loadLE buf.byte (a + 4) 1) = buf.itemType a := rfl
  unfold FileBuffer.takeContent FileBuffer.contentLog FileBuffer.itemSize FileBuffer.itemEnd
  rw [htype]
  cases buf.itemType a with
  | none => exact .pure _
  | some type =>
    cases type with
    | nv => exact (nvItem_performs i a rfl rfl).bind_pure _
    | unknown => exact (nvItem_performs i a rfl rfl).bind_pure _
    | nvfile => exact (fileItem_performs i a rfl rfl).bind_pure _
    | file => exact (fileItem_performs i a rfl rfl).bind_pure _
    | foot => exact (footItem_performs a).bind_pure _

/-- The items behind the first one. -/
theorem FileBuffer.itemsResult_succ (buf : FileBuffer) (start n : ℕ) :
    buf.itemsResult start (n + 1) =
      if (buf.itemType start).isSome then buf.itemsResult (buf.itemEnd start) n else -einval := by
  unfold itemsResult
  by_cases hstart : (buf.itemType start).isSome
  · rw [if_pos hstart]
    refine if_congr ?_ rfl rfl
    rw [Nat.forall_lt_succ_left]
    simp only [itemOffset_succ]
    exact and_iff_right hstart
  · rw [if_neg hstart]
    exact if_neg fun h => hstart (h 0 (Nat.succ_pos n))

/-- **The walk over the items.** -/
theorem processItems_performs (buf : FileBuffer) (n : ℕ) : ∀ (i start : ℕ),
    Performs Fatal (processItems buf n i start) (buf.takeItems n i start) (buf.itemsLog n i start)
      (buf.itemsResult start n) := by
  induction n with
  | zero =>
    intro i start
    rw [FileBuffer.itemsResult, if_pos (by simp)]
    exact .pure _
  | succ n ih =>
    intro i start
    rw [buf.itemsResult_succ]
    have hitem := processItem_performs buf i start
    by_cases hstart : (buf.itemType start).isSome
    · have htake : buf.takeItems (n + 1) i start =
          buf.takeItems n (i + 1) (buf.itemEnd start) ∘ buf.takeItem i start :=
        funext fun s => if_pos hstart
      rw [if_pos hstart] at hitem
      rw [if_pos hstart, FileBuffer.itemsLog, if_pos hstart, htake]
      exact hitem.bind (ih (i + 1) (buf.itemEnd start))
    · have htake : buf.takeItems (n + 1) i start = id ∘ buf.takeItem i start :=
        funext fun s => if_neg hstart
      rw [if_neg hstart] at hitem
      rw [if_neg hstart, FileBuffer.itemsLog, if_neg hstart, htake]
      exact hitem.bind (.pure _)

end Imsd
