import Imsd.PdcLocateFooter
import Imsd.PdcLocateHeaders

/-!
# Does the walk over the items stay in its objects?

`process_nv_configuration_data` never compares its offset with the size of the file, and takes the
lengths in the items as they come: an item may lie behind the end of the file, an NV item may be
longer than a record, and a file name longer than `efsfilenametmp`.

`ItemInside` are the items of which only bytes of the file are read, and whose copies fit.  An item
may run past the end of the file, or be too long for a record, without being read or copied there:
the contents of a file are skipped, and the size of an NV item is cut to 16 bits.  `ItemFits`
excludes these items, too.  `processes_inside_iff`: the function stays in its objects, and returns
an error for an item that does not fit, exactly when all the items that it comes to are inside, and
fit if their types are known.
-/

namespace Imsd

open Bytes Exec

namespace FileBuffer

variable (buf : FileBuffer)

/-- The section of a file at an address lies before the stop, as far as it is read; a name fits
`efsfilenametmp`. -/
def PartInside (stop a : ℕ) : Prop :=
  a + 2 ≤ stop ∧
    (loadLE buf.byte a 2 = efsFilename →
      a + 4 + loadLE buf.byte (a + 2) 2 ≤ stop ∧ loadLE buf.byte (a + 2) 2 ≤ 256) ∧
    (loadLE buf.byte a 2 = efsFilecontents → a + 4 ≤ stop)

/-- The sections of the footer at an address lie in the file and fit their records, and no unknown
one comes before a name. -/
def FootInside (a : ℕ) : Prop :=
  (∀ b ∈ buf.footerSectionsMet a (buf.footerBytes a), buf.SectionInside buf.size.toNat b) ∧
    buf.NameFirst (buf.footerSectionsMet a (buf.footerBytes a))

/-- **The item at an address lies in the file, as far as it is read, and its copies fit.** -/
def ItemInside (a : ℕ) : Prop :=
  a + 6 ≤ buf.size.toNat ∧
    match buf.itemType a with
    | some .nv | some .unknown =>
      a + 12 ≤ buf.size.toNat ∧ a % 65536 + buf.itemSize a ≤ buf.size.toNat ∧
        buf.itemSize a ≤ maxObjSize
    | some .nvfile | some .file =>
      buf.PartInside buf.size.toNat (a + 8) ∧
        buf.PartInside buf.size.toNat (buf.partEnd (a + 8))
    | some .foot => buf.FootInside a
    | none => True

/-- The end of an item by its own lengths; that of a footer is the one that it gives itself. -/
def itemStop (a : ℕ) : ℕ :=
  match buf.itemType a with
  | some .foot =>
    if buf.FooterHeader a (buf.footerBytes a) then max (a + 8) (a + loadLE buf.byte a 4) else a + 8
  | some _ => buf.itemEnd a
  | none => a + 8

/-- **The item at an address ends in the file and fits where it goes**: an NV item with its header a
record, the name of a file `efsfilenametmp`, and the sections of a footer their records. -/
def ItemFits (a : ℕ) : Prop :=
  buf.itemStop a ≤ buf.size.toNat ∧
    match buf.itemType a with
    | some .nv | some .unknown => 12 + loadLE buf.byte (a + 10) 2 ≤ maxObjSize
    | some .nvfile | some .file => buf.PartFits (a + 8) ∧ buf.PartFits (buf.partEnd (a + 8))
    | some .foot =>
      ∀ b ∈ buf.footerSectionsMet a (buf.footerBytes a), buf.SectionInside buf.size.toNat b
    | none => True

/-- **The files whose items stay inside**: each item that the walk comes to is inside, and if the
walk gets to its end, each of them fits. -/
def ItemsInside : Prop :=
  (∀ k, buf.ComesTo k → buf.ItemInside (buf.itemOffset buf.itemsStart k)) ∧
    ((∀ k < buf.noOfItems % 65536, buf.KnownItem k) →
      ∀ k < buf.noOfItems % 65536, buf.ItemFits (buf.itemOffset buf.itemsStart k))

end FileBuffer

/-- A run of `process_nv_configuration_data` stays in its objects, and returns an error if it has
come to an item that does not fit. -/
structure ProcessesInside (buf : FileBuffer) (run : LocateState × Traced LocateAccess ℤ) :
    Prop where
  safe : AllSafe buf.size.toNat run.2.log
  rejects : ∀ k a, .item k a ∈ run.2.log → ¬ buf.ItemFits a → ∃ r < 0, run.2.res = some r

/-! ### What is read and copied -/

section AllSafe

variable {buf : FileBuffer}

theorem allSafe_partLog {stop a : ℕ} : AllSafe stop (buf.partLog a) ↔ buf.PartInside stop a := by
  unfold FileBuffer.partLog FileBuffer.PartInside
  by_cases hname : loadLE buf.byte a 2 = efsFilename
  · have hother : efsFilename ≠ efsFilecontents := by decide
    simp [hname, hother, allSafe_readsOf, LocateAccess.Safe]
    omega
  · by_cases hcontents : loadLE buf.byte a 2 = efsFilecontents
    · have hother : efsFilecontents ≠ efsFilename := by decide
      simp [hcontents, hother, Nat.add_assoc]
    · simp [hname, hcontents]

/-- The footer of an item in the file ends there. -/
theorem footerBytes_le {a : ℕ} (h : a ≤ buf.size.toNat) :
    a + buf.footerBytes a ≤ buf.size.toNat := by
  rw [FileBuffer.footerBytes, toNat_footerSize h]
  omega

/-- What one item reads and copies. -/
theorem allSafe_itemLog {i a : ℕ} :
    AllSafe buf.size.toNat (buf.itemLog i a) ↔ buf.ItemInside a := by
  have hheader : AllSafe buf.size.toNat (buf.itemLog i a) ↔
      a + 6 ≤ buf.size.toNat ∧ AllSafe buf.size.toNat (buf.contentLog i a) := by
    simp only [FileBuffer.itemLog, allSafe_cons, allSafe_append, allSafe_readsOf_succ]
    constructor
    · rintro ⟨-, -, -, hlast, hcontent⟩
      exact ⟨hlast, hcontent⟩
    · rintro ⟨hlast, hcontent⟩
      exact ⟨trivial, by omega, by omega, by omega, hcontent⟩
  rw [hheader, FileBuffer.ItemInside]
  refine and_congr_right fun hhead => ?_
  unfold FileBuffer.contentLog
  have hnv : AllSafe buf.size.toNat (readsOf (a + 8) 2 ++ (readsOf (a + 10) 2 ++
      (readsOf (a % 65536) (buf.itemSize a) ++ [.writeNvItem i (buf.itemSize a)]))) ↔
      a + 12 ≤ buf.size.toNat ∧ a % 65536 + buf.itemSize a ≤ buf.size.toNat ∧
        buf.itemSize a ≤ maxObjSize := by
    simp [allSafe_readsOf, LocateAccess.Safe]
    omega
  have hfile : AllSafe buf.size.toNat (.writeEfsfilenametmp 256 ::
      (buf.partLog (a + 8) ++ buf.partLog (buf.partEnd (a + 8)))) ↔
      buf.PartInside buf.size.toNat (a + 8) ∧
        buf.PartInside buf.size.toNat (buf.partEnd (a + 8)) := by
    simp [allSafe_partLog, LocateAccess.Safe]
  have hfoot : AllSafe buf.size.toNat (buf.footerLog a (buf.footerBytes a) ++
      [.footer a (buf.footerBytes a) (buf.footerResult a (buf.footerBytes a))]) ↔
      buf.FootInside a := by
    rw [allSafe_append, FileBuffer.allSafe_footerLog (footerBytes_le (by omega))]
    simp [LocateAccess.Safe, FileBuffer.FootInside]
  cases buf.itemType a with
  | none => simp
  | some type =>
    cases type with
    | nv => exact hnv
    | unknown => exact hnv
    | nvfile => exact hfile
    | file => exact hfile
    | foot => exact hfoot

/-- **What the items read and copy.** -/
theorem allSafe_itemsLog (n : ℕ) : ∀ (i a : ℕ), AllSafe buf.size.toNat (buf.itemsLog n i a) ↔
    ∀ k < n, (∀ j < k, (buf.itemType (buf.itemOffset a j)).isSome) →
      buf.ItemInside (buf.itemOffset a k) := by
  induction n with
  | zero => simp [FileBuffer.itemsLog]
  | succ n ih =>
    intro i a
    rw [FileBuffer.itemsLog, allSafe_append, allSafe_itemLog, Nat.forall_lt_succ_left]
    simp only [Nat.forall_lt_succ_left, Nat.not_lt_zero, IsEmpty.forall_iff, forall_const,
      buf.itemOffset_succ]
    have hstart : buf.itemOffset a 0 = a := rfl
    rw [hstart]
    by_cases hknown : (buf.itemType a).isSome
    · simp [hknown, ih]
    · simp [hknown]

/-- An item of the log is an item that the walk comes to. -/
theorem item_mem_itemsLog {n i a j b : ℕ}
    (hknown : ∀ k < n, (buf.itemType (buf.itemOffset a k)).isSome) :
    .item j b ∈ buf.itemsLog n i a ↔ ∃ k < n, j = i + k ∧ b = buf.itemOffset a k := by
  obtain ⟨-, -, -, hsteps⟩ := buf.takeItems_spec n i .initial hknown
  rw [← mem_filterMap_step rfl, hsteps, FileBuffer.walkSteps, List.mem_flatMap]
  simp only [List.mem_range, FileBuffer.itemSteps, List.mem_cons, LocateAccess.item.injEq]
  constructor
  · rintro ⟨k, hk, h | h⟩
    · exact ⟨k, hk, h⟩
    · split_ifs at h <;> simp at h
  · rintro ⟨k, hk, h⟩
    exact ⟨k, hk, .inl h⟩

end AllSafe

/-- **`process_nv_configuration_data` stays in its objects exactly when the items do**, for every
file whose headers lie in it. -/
theorem processes_inside_iff (buf : FileBuffer) (s : LocateState) (hheaders : ∀ h, buf.Inside h) :
    ProcessesInside buf (processNvConfigurationData buf (buf.setHeaders s)) ↔ buf.ItemsInside := by
  have hph : buf.phoff + 2 * 32 + 32 ≤ buf.size.toNat := hheaders .ph2
  have hmcfg : buf.pOffset 2 + 16 ≤ buf.size.toNat := hheaders .mcfgHead
  have hlog : AllSafe buf.size.toNat buf.processLog ↔
      ∀ k, buf.ComesTo k → buf.ItemInside (buf.itemOffset buf.itemsStart k) := by
    have hhead : AllSafe buf.size.toNat (readsOf (buf.pOffset 2 + 8) 4) :=
      allSafe_readsOf.2 (by omega)
    have hoffset : AllSafe buf.size.toNat (readsOf (loadLE buf.byte 28 4 + 2 * 32 + 4) 4) := by
      rw [allSafe_readsOf]
      unfold FileBuffer.phoff at hph
      omega
    simp only [FileBuffer.processLog, allSafe_append, hhead, hoffset, true_and, allSafe_itemsLog]
    exact forall_congr' fun k => and_imp.symm
  have hsafe : AllSafe buf.size.toNat
      (processNvConfigurationData buf (buf.setHeaders s)).2.log ↔
      ∀ k, buf.ComesTo k → buf.ItemInside (buf.itemOffset buf.itemsStart k) := by
    rw [(processNvConfigurationData_run buf s).1, ← hlog]
    exact allSafe_upToFatal
  -- a run that stays in its objects is one that the process survives
  have hrun (hinside : ∀ k, buf.ComesTo k → buf.ItemInside (buf.itemOffset buf.itemsStart k)) :
      (processNvConfigurationData buf (buf.setHeaders s)).2 =
        ⟨buf.processLog, some (buf.itemsResult buf.itemsStart (buf.noOfItems % 65536))⟩ := by
    have hsurvived := buf.survived_processLog.1 (hlog.2 hinside).survived
    rw [processNvConfigurationData_eq hsurvived]
  by_cases hknown : ∀ k < buf.noOfItems % 65536, buf.KnownItem k
  · have hres : buf.itemsResult buf.itemsStart (buf.noOfItems % 65536) = 0 := if_pos hknown
    have hitem (k a : ℕ) : .item k a ∈ buf.processLog ↔
        k < buf.noOfItems % 65536 ∧ a = buf.itemOffset buf.itemsStart k := by
      simp [FileBuffer.processLog, mem_readsOf, item_mem_itemsLog hknown]
    constructor
    · rintro ⟨hsafe', hrejects⟩
      have hinside := hsafe.1 hsafe'
      rw [hrun hinside, hres] at hrejects
      refine ⟨hinside, fun _ k hk => ?_⟩
      by_contra hout
      obtain ⟨r, hneg, hr⟩ := hrejects k _ ((hitem k _).2 ⟨hk, rfl⟩) hout
      cases hr
      exact absurd hneg (lt_irrefl 0)
    · rintro ⟨hinside, hfits⟩
      refine ⟨hsafe.2 hinside, fun k a ha hout => ?_⟩
      rw [hrun hinside] at ha
      obtain ⟨hk, rfl⟩ := (hitem k a).1 ha
      exact absurd (hfits hknown k hk) hout
  · have hres : buf.itemsResult buf.itemsStart (buf.noOfItems % 65536) = -(einval : ℤ) :=
      if_neg hknown
    constructor
    · rintro ⟨hsafe', -⟩
      exact ⟨hsafe.1 hsafe', fun hall => absurd hall hknown⟩
    · rintro ⟨hinside, -⟩
      refine ⟨hsafe.2 hinside, fun k a ha hout => ⟨-(einval : ℤ), by decide, ?_⟩⟩
      rw [hrun hinside, hres]

/-- A file of 0x2100 bytes with one NV item; there are zeros behind it. -/
def oneItemFile (payload : List UInt8) : FileBuffer :=
  ⟨0x2100, elfHeaders 148 ++ (McfgFileHeader.encode ⟨1, 1, 1, 0x0101, 0⟩ ++
    (McfgSubVersionData.encode ⟨4995, 4, 1⟩ ++ (McfgItemHeader.encode ⟨28, 0, 0⟩ .nv ++
      (toLE 2 10 ++ (toLE 2 payload.length ++ payload)))))⟩

theorem processes_inside_oneItemFile :
    ProcessesInside (oneItemFile [1]) (processNvConfigurationData (oneItemFile [1])
      ((oneItemFile [1]).setHeaders .initial)) := by
  have hone (k : ℕ) (hk : k < (oneItemFile [1]).noOfItems % 65536) : k = 0 := by
    have hitems : (oneItemFile [1]).noOfItems % 65536 = 1 := by decide
    omega
  have htype : (oneItemFile [1]).itemType
      ((oneItemFile [1]).itemOffset (oneItemFile [1]).itemsStart 0) = some .nv := by decide
  refine (processes_inside_iff (oneItemFile [1]) .initial ?_).2 ⟨?_, ?_⟩
  · intro h
    cases h <;> (unfold FileBuffer.Inside; decide)
  · rintro k ⟨hk, -⟩
    obtain rfl := hone k hk
    rw [FileBuffer.ItemInside, htype]
    exact ⟨by decide, by decide, by decide, by decide⟩
  · intro _ k hk
    obtain rfl := hone k hk
    rw [FileBuffer.ItemFits, htype]
    exact ⟨by decide, by decide⟩

/-- An item with 53 bytes: the copy does not fit its record. -/
theorem not_processes_inside :
    (oneItemFile (List.replicate 53 0)).Accepted ∧
      (∀ h, (oneItemFile (List.replicate 53 0)).Inside h) ∧
      ¬ ProcessesInside (oneItemFile (List.replicate 53 0))
        (processNvConfigurationData (oneItemFile (List.replicate 53 0))
          ((oneItemFile (List.replicate 53 0)).setHeaders .initial)) := by
  refine ⟨by decide, ?_, fun h => ?_⟩
  · intro h
    cases h <;> (unfold FileBuffer.Inside; decide)
  · have hmem : .writeNvItem 0 65 ∈ (oneItemFile (List.replicate 53 0)).itemsLog 1 0 172 := by
      decide
    have hsafe := h.safe
    rw [(processNvConfigurationData_run _ _).1] at hsafe
    have hcopy : 65 ≤ maxObjSize := allSafe_upToFatal.1 hsafe (.writeNvItem 0 65)
      (List.mem_append_right _ (List.mem_append_right _ hmem))
    exact absurd hcopy (by decide)

end Imsd
