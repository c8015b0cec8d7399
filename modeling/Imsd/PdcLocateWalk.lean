import Imsd.PdcLocateSurvival

/-!
# The walks over a file, whatever it contains

What `check_file_header` finds in a file depends on the bytes alone: it is a fold over the list of
the sections met, and the steps of the walk are the items met, one after the other.

`Walks x out a g` says of a computation that from every state it ends with the value `a` and the
steps `out`, and changes what has been found by `g`.  What a function of the walk performs is more
than that, when the process survives it (`Walks.of_performs`); `processItems_walks` and
`processItems_walks_unknown` say it of the walk over the items.  `checkBuffer_does` puts the walk
behind the checks of the headers, which `Accepted` describes, and `checkBuffer_returns_iff` says
which files the process survives.
-/

namespace Imsd

open Bytes Exec
open LocateAccess (Fatal)

/-- The entries of the log that tell the steps of the walk. -/
def LocateAccess.step? : LocateAccess → Option LocateAccess
  | .item i current => some (.item i current)
  | .footer start sz result => some (.footer start sz result)
  | _ => none

/-- Reads and copies are not steps. -/
@[simp] theorem LocateAccess.step?_eq :
    (∀ i a, (item i a).step? = some (item i a)) ∧
      (∀ a sz r, (footer a sz r).step? = some (footer a sz r)) ∧
      (∀ a, (read a).step? = none) ∧ (∀ i n, (writeNvItem i n).step? = none) ∧
      (∀ n, (writeEfsfilenametmp n).step? = none) ∧ (∀ n, (writeInternalName n).step? = none) ∧
      (∀ k n, (writeFooterItem k n).step? = none) ∧ uninitialised.step? = none :=
  ⟨fun _ _ => rfl, fun _ _ _ => rfl, fun _ => rfl, fun _ _ => rfl, fun _ => rfl, fun _ => rfl,
    fun _ _ => rfl, rfl⟩

theorem mem_filterMap_step {e : LocateAccess} (he : e.step? = some e) {log : List LocateAccess} :
    e ∈ log.filterMap LocateAccess.step? ↔ e ∈ log := by
  rw [List.mem_filterMap]
  constructor
  · rintro ⟨e', he', hstep⟩
    cases e' <;> simp only [LocateAccess.step?, Option.some.injEq, reduceCtorEq] at hstep
    · exact hstep ▸ he'
    · exact hstep ▸ he'
  · exact fun h => ⟨e, h, he⟩

/-- Bytes that are read are not steps. -/
@[simp] theorem filterMap_step_readsOf (a n : ℕ) :
    (readsOf a n).filterMap LocateAccess.step? = [] := by
  rw [List.filterMap_eq_nil_iff]
  intro e he
  obtain ⟨b, rfl, -⟩ := mem_readsOf.1 he
  rfl

/-- What the walk takes from a file. -/
structure Found where
  mcc : UInt8
  mnc : UInt8
  internalName : List UInt8

def LocateState.found (s : LocateState) : Found := ⟨s.mcc, s.mnc, s.internalName⟩

/-! ### Walks -/

/-- From every state the computation ends with the value `a` and the steps `out`, changes what has
been found by `g`, and leaves the validity and the carrier id alone. -/
def Walks {α : Type} (x : LocateM α) (out : List LocateAccess) (a : α) (g : Found → Found) :
    Prop :=
  ∀ s, ∃ s', Does LocateAccess.step? x s s' out a ∧ s'.found = g s.found ∧
    s'.isValid = s.isValid ∧ s'.carrierId = s.carrierId

namespace Walks

variable {α β : Type} {x : LocateM α} {f : α → LocateM β} {out : List LocateAccess} {a : α}
  {b : β} {g : Found → Found}

/-- A computation that takes the same course from every state, and that the process survives. -/
theorem of_performs {h : LocateState → LocateState} {log : List LocateAccess}
    (hx : Performs Fatal x h log a) (hlog : Survived Fatal log)
    (hfound : ∀ s, (h s).found = g s.found)
    (hvalid : ∀ s, (h s).isValid = s.isValid) (hcarrier : ∀ s, (h s).carrierId = s.carrierId) :
    Walks x (log.filterMap LocateAccess.step?) a g :=
  fun s => ⟨h s, hx.does hlog _ s, hfound s, hvalid s, hcarrier s⟩

theorem pure (a : α) : Walks (Pure.pure a) [] a id := fun s => ⟨s, Does.pure a s, rfl, rfl, rfl⟩

/-- `bind` for a first part that finds nothing and takes no step. -/
theorem quiet (hx : Walks x [] a id) (hf : Walks (f a) out b g) : Walks (x >>= f) out b g := by
  intro s
  obtain ⟨s₁, hdoes, hfound, hvalid, hcarrier⟩ := hx s
  obtain ⟨s₂, hdoes', hfound', hvalid', hcarrier'⟩ := hf s₁
  exact ⟨s₂, hdoes.bind_nil hdoes', by rw [hfound', hfound]; rfl, hvalid'.trans hvalid,
    hcarrier'.trans hcarrier⟩

/-- A check that fails, or one that fails later. -/
theorem fails {p : Prop} [Decidable p] (hx : ¬ p → Walks x [] a id) :
    Walks (if p then Pure.pure a else x) [] a id := by
  by_cases h : p
  · rw [if_pos h]
    exact pure _
  · rw [if_neg h]
    exact hx h

/-- `quiet` for a change of what is not found. -/
theorem modifyThen {h : LocateState → LocateState} {f : PUnit → LocateM β}
    (hf : Walks (f ⟨⟩) out b g) (hfound : ∀ s, (h s).found = s.found)
    (hvalid : ∀ s, (h s).isValid = s.isValid) (hcarrier : ∀ s, (h s).carrierId = s.carrierId) :
    Walks (Exec.modify h >>= f) out b g :=
  (of_performs (Performs.modify h) survived_nil hfound hvalid hcarrier).quiet hf

variable {buf : FileBuffer}

theorem loadBytes (a n : ℕ) : Walks (buf.loadBytes a n) [] (bytesAt buf.byte a n) id :=
  filterMap_step_readsOf a n ▸
    of_performs (loadBytes_performs a n) (survived_readsOf a n) (fun _ => rfl) (fun _ => rfl)
      fun _ => rfl

theorem load (a w : ℕ) : Walks (buf.load a w) [] (loadLE buf.byte a w) id :=
  (loadBytes a w).quiet (pure _)

end Walks

/-! ### Sections -/

namespace FileBuffer

variable (buf : FileBuffer)

/-- What the section at an address adds to what has been found. -/
def store (found : Found) (a : ℕ) : Found :=
  match buf.sectionId a with
  | some .applicableMccMnc =>
    { found with
      mcc := UInt8.ofNat (loadLE buf.byte (a + 3) 2)
      mnc := UInt8.ofNat (loadLE buf.byte (a + 5) 2) }
  | some .profileName =>
    { found with internalName := copyInto found.internalName (buf.string (a + 3)) }
  | _ => found

/-- What a section changes is what it adds, and its record. -/
theorem switchSection_spec (a : ℕ) (s : LocateState) :
    (buf.switchSection a s).found = buf.store s.found a ∧
      (buf.switchSection a s).isValid = s.isValid ∧
      (buf.switchSection a s).carrierId = s.carrierId := by
  unfold switchSection store
  cases buf.sectionId a with
  | none => exact ⟨rfl, rfl, rfl⟩
  | some id => cases id <;> exact ⟨rfl, rfl, rfl⟩

theorem takeSections_spec (as : List ℕ) : ∀ (k : ℕ) (s : LocateState),
    (buf.takeSections as k s).found = as.foldl buf.store s.found ∧
      (buf.takeSections as k s).isValid = s.isValid ∧
      (buf.takeSections as k s).carrierId = s.carrierId := by
  induction as with
  | nil => exact fun _ _ => ⟨rfl, rfl, rfl⟩
  | cons a as ih =>
    intro k s
    obtain ⟨hfound, hvalid, hcarrier⟩ := buf.switchSection_spec a s
    obtain ⟨hfound', hvalid', hcarrier'⟩ :=
      ih (k + 1) (buf.recordSection k a (buf.switchSection a s))
    refine ⟨hfound'.trans ?_, hvalid'.trans hvalid, hcarrier'.trans hcarrier⟩
    rw [List.foldl_cons, ← hfound]
    rfl

/-- There are no steps inside of a section. -/
theorem steps_switchLog (a : ℕ) (sec3 : Option ℕ) :
    (buf.switchLog a sec3).filterMap LocateAccess.step? = [] := by
  unfold switchLog
  split
  · simp
  · simp
  · simp
  · simp
  · simp
  · simp
  · split <;> simp

theorem steps_sectionsLog (as : List ℕ) : ∀ (k : ℕ) (sec3 : Option ℕ),
    (buf.sectionsLog as k sec3).filterMap LocateAccess.step? = [] := by
  induction as with
  | nil => exact fun _ _ => rfl
  | cons a as ih =>
    intro k sec3
    simp [sectionsLog, sectionLog, steps_switchLog, ih]

theorem steps_footerLog (footer sz : ℕ) :
    (buf.footerLog footer sz).filterMap LocateAccess.step? = [] := by
  unfold footerLog footerHeaderLog
  rw [List.filterMap_append, steps_sectionsLog, List.append_nil]
  split_ifs <;> simp

end FileBuffer

/-! ### Items -/

namespace FileBuffer

variable (buf : FileBuffer)

/-- The steps of item `i` at an address. -/
def itemSteps (i a : ℕ) : List LocateAccess :=
  .item i a :: if buf.itemType a = some .foot then
    [.footer a (buf.footerBytes a) (buf.footerResult a (buf.footerBytes a))] else []

/-- The sections met in the item at an address, if it is a footer. -/
def itemSections (a : ℕ) : List ℕ :=
  if buf.itemType a = some .foot then buf.footerSectionsMet a (buf.footerBytes a) else []

/-- The steps of `n` items, from item `i` at `start` on. -/
def walkSteps (start i n : ℕ) : List LocateAccess :=
  (List.range n).flatMap fun k => buf.itemSteps (i + k) (buf.itemOffset start k)

/-- The sections met in the first `n` items. -/
def sectionsMet (start n : ℕ) : List ℕ :=
  (List.range n).flatMap fun k => buf.itemSections (buf.itemOffset start k)

theorem walkSteps_succ (start i n : ℕ) :
    buf.walkSteps start i (n + 1) =
      buf.itemSteps i start ++ buf.walkSteps (buf.itemEnd start) (i + 1) n := by
  simp only [walkSteps, List.range_succ_eq_map, List.flatMap_cons, List.flatMap_map,
    itemOffset_succ, Nat.succ_eq_add_one, Nat.add_zero, Nat.add_assoc, Nat.add_comm 1]
  rfl

theorem sectionsMet_succ (start n : ℕ) :
    buf.sectionsMet start (n + 1) =
      buf.itemSections start ++ buf.sectionsMet (buf.itemEnd start) n := by
  simp only [sectionsMet, List.range_succ_eq_map, List.flatMap_cons, List.flatMap_map,
    itemOffset_succ, Nat.succ_eq_add_one]
  rfl

/-- The other end of `sectionsMet_succ`. -/
theorem sectionsMet_snoc (start n : ℕ) :
    buf.sectionsMet start (n + 1) =
      buf.sectionsMet start n ++ buf.itemSections (buf.itemOffset start n) := by
  simp only [sectionsMet, List.range_succ, List.flatMap_append, List.flatMap_cons,
    List.flatMap_nil, List.append_nil]

theorem steps_partLog (a : ℕ) : (buf.partLog a).filterMap LocateAccess.step? = [] := by
  unfold partLog
  split_ifs <;> simp

/-- The steps of one item. -/
theorem steps_itemLog (i a : ℕ) :
    (buf.itemLog i a).filterMap LocateAccess.step? = buf.itemSteps i a := by
  have hcontent : (buf.contentLog i a).filterMap LocateAccess.step? =
      if buf.itemType a = some .foot then
        [.footer a (buf.footerBytes a) (buf.footerResult a (buf.footerBytes a))] else [] := by
    unfold contentLog
    cases buf.itemType a with
    | none => rfl
    | some type =>
      cases type <;> simp [steps_partLog, steps_footerLog]
  simp [itemLog, itemSteps, hcontent]

/-- What one item changes. -/
theorem takeItem_spec (i a : ℕ) (s : LocateState) :
    (buf.takeItem i a s).found = (buf.itemSections a).foldl buf.store s.found ∧
      (buf.takeItem i a s).isValid = s.isValid ∧
      (buf.takeItem i a s).carrierId = s.carrierId := by
  unfold takeItem takeContent itemSections
  cases buf.itemType a with
  | none => exact ⟨rfl, rfl, rfl⟩
  | some type =>
    cases type with
    | foot => exact buf.takeSections_spec _ 0 _
    | _ => exact ⟨rfl, rfl, rfl⟩

/-- What items of known types change, and their steps. -/
theorem takeItems_spec (n : ℕ) : ∀ {start : ℕ} (i : ℕ) (s : LocateState),
    (∀ k < n, (buf.itemType (buf.itemOffset start k)).isSome) →
    (buf.takeItems n i start s).found = (buf.sectionsMet start n).foldl buf.store s.found ∧
      (buf.takeItems n i start s).isValid = s.isValid ∧
      (buf.takeItems n i start s).carrierId = s.carrierId ∧
      (buf.itemsLog n i start).filterMap LocateAccess.step? = buf.walkSteps start i n := by
  induction n with
  | zero => exact fun _ _ _ => ⟨rfl, rfl, rfl, rfl⟩
  | succ n ih =>
    intro start i s hknown
    have hhead : (buf.itemType start).isSome := hknown 0 (Nat.succ_pos n)
    obtain ⟨hfound, hvalid, hcarrier⟩ := buf.takeItem_spec i start s
    obtain ⟨hfound', hvalid', hcarrier', hsteps⟩ :=
      ih (i + 1) (buf.takeItem i start s) fun k hk => by
        rw [← buf.itemOffset_succ]
        exact hknown (k + 1) (Nat.succ_lt_succ hk)
    rw [takeItems, if_pos hhead, itemsLog, if_pos hhead, List.filterMap_append, steps_itemLog,
      hsteps, walkSteps_succ, sectionsMet_succ, List.foldl_append, ← hfound]
    exact ⟨hfound', hvalid'.trans hvalid, hcarrier'.trans hcarrier, rfl⟩

/-- The same when item `j` is the first one of an unknown type: it is the last one, and nothing
more is found. -/
theorem takeItems_spec_unknown (j : ℕ) : ∀ {n start : ℕ} (i : ℕ) (s : LocateState), j < n →
    (∀ k < j, (buf.itemType (buf.itemOffset start k)).isSome) →
    buf.itemType (buf.itemOffset start j) = none →
    (buf.takeItems n i start s).found = (buf.sectionsMet start j).foldl buf.store s.found ∧
      (buf.takeItems n i start s).isValid = s.isValid ∧
      (buf.takeItems n i start s).carrierId = s.carrierId ∧
      (buf.itemsLog n i start).filterMap LocateAccess.step? = buf.walkSteps start i (j + 1) := by
  induction j with
  | zero =>
    intro n start i s hlt _ hunknown
    obtain ⟨n, rfl⟩ := Nat.exists_eq_succ_of_ne_zero hlt.ne'
    have htype : buf.itemType start = none := hunknown
    have hnone : ¬ (buf.itemType start).isSome := by simp [htype]
    have hsections : buf.itemSections start = [] := if_neg (by simp [htype])
    have hspec := buf.takeItem_spec i start s
    rw [hsections] at hspec
    rw [takeItems, if_neg hnone, itemsLog, if_neg hnone, List.append_nil, steps_itemLog]
    exact ⟨hspec.1, hspec.2.1, hspec.2.2, (buf.walkSteps_succ _ _ _).symm ▸ by simp [walkSteps]⟩
  | succ j ih =>
    intro n start i s hlt hknown hunknown
    obtain ⟨n, rfl⟩ := Nat.exists_eq_succ_of_ne_zero (Nat.ne_zero_of_lt hlt)
    have hhead : (buf.itemType start).isSome := hknown 0 (Nat.succ_pos j)
    rw [buf.itemOffset_succ] at hunknown
    obtain ⟨hfound, hvalid, hcarrier⟩ := buf.takeItem_spec i start s
    obtain ⟨hfound', hvalid', hcarrier', hsteps⟩ :=
      ih (i + 1) (buf.takeItem i start s) (Nat.lt_of_succ_lt_succ hlt) (fun k hk => by
        rw [← buf.itemOffset_succ]
        exact hknown (k + 1) (Nat.succ_lt_succ hk)) hunknown
    rw [takeItems, if_pos hhead, itemsLog, if_pos hhead, List.filterMap_append, steps_itemLog,
      hsteps, buf.walkSteps_succ start i (j + 1), sectionsMet_succ, List.foldl_append, ← hfound]
    exact ⟨hfound', hvalid'.trans hvalid, hcarrier'.trans hcarrier, rfl⟩

end FileBuffer

variable {buf : FileBuffer}

/-- **The walk over items of known types.** -/
theorem processItems_walks (n : ℕ) {start : ℕ} (i : ℕ)
    (hknown : ∀ k < n, (buf.itemType (buf.itemOffset start k)).isSome)
    (hsurvived : ∀ k < n, buf.ItemSurvived (buf.itemOffset start k)) :
    Walks (processItems buf n i start) (buf.walkSteps start i n) 0
      fun found => (buf.sectionsMet start n).foldl buf.store found := by
  intro s
  obtain ⟨hfound, hvalid, hcarrier, hsteps⟩ := buf.takeItems_spec n i s hknown
  have hlog : Survived Fatal (buf.itemsLog n i start) :=
    (FileBuffer.survived_itemsLog n i start).2 fun k hk _ => hsurvived k hk
  have hdoes := (processItems_performs buf n i start).does hlog LocateAccess.step? s
  rw [hsteps, FileBuffer.itemsResult, if_pos hknown] at hdoes
  exact ⟨_, hdoes, hfound, hvalid, hcarrier⟩

/-- **The walk that meets an item of an unknown type**: item `j` is the last one, and nothing more
is found. -/
theorem processItems_walks_unknown (j : ℕ) {n start : ℕ} (i : ℕ) (hlt : j < n)
    (hknown : ∀ k < j, (buf.itemType (buf.itemOffset start k)).isSome)
    (hunknown : buf.itemType (buf.itemOffset start j) = none)
    (hsurvived : ∀ k < j, buf.ItemSurvived (buf.itemOffset start k)) :
    Walks (processItems buf n i start) (buf.walkSteps start i (j + 1)) (-einval)
      fun found => (buf.sectionsMet start j).foldl buf.store found := by
  intro s
  obtain ⟨hfound, hvalid, hcarrier, hsteps⟩ :=
    buf.takeItems_spec_unknown j i s hlt hknown hunknown
  have hlog : Survived Fatal (buf.itemsLog n i start) := by
    refine (FileBuffer.survived_itemsLog n i start).2 fun k hk hbefore => ?_
    rcases lt_trichotomy k j with hlt | rfl | hlt
    · exact hsurvived k hlt
    · -- an item of an unknown type is left as it is
      rw [FileBuffer.ItemSurvived, hunknown]
      trivial
    · have hsome := hbefore j hlt
      rw [hunknown] at hsome
      cases hsome
  have hdoes := (processItems_performs buf n i start).does hlog LocateAccess.step? s
  have hfails : ¬ ∀ k < n, (buf.itemType (buf.itemOffset start k)).isSome := fun h => by
    have := h j hlt
    simp [hunknown] at this
  rw [hsteps, FileBuffer.itemsResult, if_neg hfails] at hdoes
  exact ⟨_, hdoes, hfound, hvalid, hcarrier⟩

/-! ### Headers -/

namespace FileBuffer

variable (buf : FileBuffer)

/-- `p_offset` of program header `k`. -/
def pOffset (k : ℕ) : ℕ := loadLE buf.byte (loadLE buf.byte 28 4 + k * 32 + 4) 4

/-- The fields of the MCFG header. -/
def configType : ℕ := loadLE buf.byte (buf.pOffset 2 + 6) 2
@[inherit_doc configType] def noOfItems : ℕ := loadLE buf.byte (buf.pOffset 2 + 8) 4
@[inherit_doc configType] def carrierId : ℕ := loadLE buf.byte (buf.pOffset 2 + 12) 2

/-- The offset of the first item. -/
def itemsStart : ℕ := buf.pOffset 2 + 24

/-- Item `k` has a known type. -/
def KnownItem (k : ℕ) : Prop := (buf.itemType (buf.itemOffset buf.itemsStart k)).isSome

/-- **The files that `check_input_file` accepts.** -/
def Accepted : Prop :=
  0x2000 ≤ buf.size.toNat ∧ bytesAt buf.byte 0 4 = elfmag ∧ 3 ≤ loadLE buf.byte 44 2 ∧
    buf.pOffset 0 ≤ buf.size.toNat ∧ buf.pOffset 1 ≤ buf.size.toNat ∧
    buf.pOffset 2 ≤ buf.size.toNat ∧ bytesAt buf.byte (buf.pOffset 2) 4 = mcfgFileHeaderMagic ∧
    buf.configType = mcfgFiletypeSw

instance : Decidable buf.Accepted := inferInstanceAs (Decidable (_ ∧ _))

/-- The files whose walk gets to its end, whatever the footers are. -/
def Walked : Prop := buf.Accepted ∧ ∀ k < buf.noOfItems % 65536, buf.KnownItem k

/-- The walk comes to item `k`. -/
def ComesTo (k : ℕ) : Prop := k < buf.noOfItems % 65536 ∧ ∀ j < k, buf.KnownItem j

/-- **The files that the process survives**: each item that the walk comes to is one that it
survives. -/
def WalkSurvived : Prop :=
  ∀ k, buf.ComesTo k → buf.ItemSurvived (buf.itemOffset buf.itemsStart k)

/-- What that walk leaves, when the name was `name` before. -/
def leaves (name : List UInt8) : Found :=
  (buf.sectionsMet buf.itemsStart (buf.noOfItems % 65536)).foldl buf.store ⟨0, 0, name⟩

/-- A walk that does not get to its end has a first item of an unknown type. -/
theorem exists_first_unknown {n : ℕ} (h : ¬ ∀ k < n, buf.KnownItem k) :
    ∃ j < n, (∀ k < j, buf.KnownItem k) ∧ ¬ buf.KnownItem j := by
  classical
  push Not at h
  obtain ⟨hlt, hunknown⟩ := Nat.find_spec h
  refine ⟨Nat.find h, hlt, fun k hk => ?_, hunknown⟩
  by_contra hk'
  exact Nat.find_min h hk ⟨hk.trans hlt, hk'⟩

theorem itemType_of_unknown {j : ℕ} (h : ¬ buf.KnownItem j) :
    buf.itemType (buf.itemOffset buf.itemsStart j) = none := by
  rwa [KnownItem, Option.not_isSome_iff_eq_none] at h

end FileBuffer

theorem checkMcfgHeader_walks {head : ℕ} (h : ¬ (bytesAt buf.byte head 4 = mcfgFileHeaderMagic ∧
    loadLE buf.byte (head + 6) 2 = mcfgFiletypeSw)) :
    Walks (checkMcfgHeader buf head) [] (-einval) id := by
  unfold checkMcfgHeader
  refine Walks.modifyThen ?_ (fun _ => rfl) (fun _ => rfl) fun _ => rfl
  refine (Walks.loadBytes _ _).quiet (Walks.fails fun hmagic => ?_)
  refine (Walks.load _ _).quiet ((Walks.load _ _).quiet ((Walks.load _ _).quiet
    ((Walks.load _ _).quiet ((Walks.load _ _).quiet ((Walks.load _ _).quiet
      ((Walks.load _ _).quiet (Walks.fails fun htype => ?_)))))))
  exact absurd ⟨not_not.1 hmagic, not_not.1 htype⟩ h

theorem checkInputFile_walks (h : ¬ buf.Accepted) :
    Walks (checkInputFile buf) [] (-einval) id := by
  unfold checkInputFile
  refine Walks.fails fun hsize => ?_
  refine (Walks.loadBytes _ _).quiet (Walks.fails fun hmagic => ?_)
  refine (Walks.load _ _).quiet (Walks.fails fun hnum => ?_)
  refine (Walks.load _ _).quiet ((Walks.load _ _).quiet (Walks.fails fun h₀ => ?_))
  refine (Walks.load _ _).quiet (Walks.fails fun h₁ => ?_)
  refine Walks.modifyThen ?_ (fun _ => rfl) (fun _ => rfl) fun _ => rfl
  refine (Walks.load _ _).quiet (Walks.fails fun h₂ => ?_)
  apply checkMcfgHeader_walks
  rintro ⟨hhead, htype⟩
  exact h ⟨Nat.not_lt.1 hsize, not_not.1 hmagic, Nat.not_lt.1 hnum, Nat.not_lt.1 h₀,
    Nat.not_lt.1 h₁, Nat.not_lt.1 h₂, hhead, htype⟩

section Accepted

variable (s : LocateState)

theorem loadBytes_does (a n : ℕ) :
    Does LocateAccess.step? (buf.loadBytes a n) s s [] (bytesAt buf.byte a n) :=
  filterMap_step_readsOf a n ▸ (loadBytes_performs a n).does (survived_readsOf a n) _ s

theorem load_does (a w : ℕ) :
    Does LocateAccess.step? (buf.load a w) s s [] (loadLE buf.byte a w) :=
  (loadBytes_does s a w).bind_nil (Does.pure _ s)

theorem passes_does {α : Type} {p : Prop} [Decidable p] {fail x : LocateM α} {s s' : LocateState}
    {out : List LocateAccess} {a : α} (h : ¬ p) (hx : Does LocateAccess.step? x s s' out a) :
    Does LocateAccess.step? (if p then fail else x) s s' out a := by
  rw [if_neg h]
  exact hx

/-- What an accepted file leaves in the state. -/
def FileBuffer.setHeaders (buf : FileBuffer) (s : LocateState) : LocateState :=
  { s with
    ph2In := loadLE buf.byte 28 4 + 2 * 32
    mcfgHeadIn := buf.pOffset 2
    carrierId := UInt32.ofNat buf.carrierId }

theorem checkInputFile_does (h : buf.Accepted) :
    Does LocateAccess.step? (checkInputFile buf) s (buf.setHeaders s) [] 0 := by
  obtain ⟨hsize, hmagic, hnum, h₀, h₁, h₂, hhead, htype⟩ := h
  refine passes_does (Nat.not_lt.2 hsize) ((loadBytes_does s _ _).bind_nil ?_)
  refine passes_does (not_not.2 hmagic) ((load_does s _ _).bind_nil ?_)
  refine passes_does (Nat.not_lt.2 hnum)
    ((load_does s _ _).bind_nil ((load_does s _ _).bind_nil ?_))
  refine passes_does (Nat.not_lt.2 h₀) ((load_does s _ _).bind_nil ?_)
  refine passes_does (Nat.not_lt.2 h₁) ((Does.modify _ s).bind_nil ((load_does _ _ _).bind_nil ?_))
  refine passes_does (Nat.not_lt.2 h₂) ((Does.modify _ _).bind_nil
    ((loadBytes_does _ _ _).bind_nil ?_))
  refine passes_does (not_not.2 hhead) ?_
  refine (load_does _ _ _).bind_nil ((load_does _ _ _).bind_nil ((load_does _ _ _).bind_nil
    ((load_does _ _ _).bind_nil ((load_does _ _ _).bind_nil ((load_does _ _ _).bind_nil
      ((load_does _ _ _).bind_nil ?_))))))
  exact passes_does (not_not.2 htype) ((Does.modify _ _).bind_nil (Does.pure _ _))

/-- What `process_nv_configuration_data` reads and copies in an accepted file. -/
def FileBuffer.processLog (buf : FileBuffer) : List LocateAccess :=
  readsOf (buf.pOffset 2 + 8) 4 ++ (readsOf (loadLE buf.byte 28 4 + 2 * 32 + 4) 4 ++
    buf.itemsLog (buf.noOfItems % 65536) 0 buf.itemsStart)

theorem FileBuffer.survived_processLog (buf : FileBuffer) :
    Survived Fatal buf.processLog ↔ buf.WalkSurvived := by
  simp only [processLog, survived_append, survived_readsOf, true_and, survived_itemsLog]
  exact forall_congr' fun k => and_imp.symm

/-- **The run over the items of an accepted file**, up to a fatal access. -/
theorem processNvConfigurationData_run (buf : FileBuffer) (s : LocateState) :
    (processNvConfigurationData buf (buf.setHeaders s)).2 =
        ⟨upToFatal Fatal buf.processLog, if Survived Fatal buf.processLog then
          some (buf.itemsResult buf.itemsStart (buf.noOfItems % 65536)) else none⟩ ∧
      (buf.WalkSurvived → (processNvConfigurationData buf (buf.setHeaders s)).1 =
        buf.takeItems (buf.noOfItems % 65536) 0 buf.itemsStart
          { buf.setHeaders s with inputNvitemsSize := 0 }) := by
  have hitems : Performs Fatal (do
      let numItems ← buf.load (buf.pOffset 2 + 8) 4
      let offset2 ← buf.load (loadLE buf.byte 28 4 + 2 * 32 + 4) 4
      Exec.modify fun s => { s with inputNvitemsSize := 0 }
      processItems buf (numItems % 65536) 0 (offset2 + 16 + 8))
      (buf.takeItems (buf.noOfItems % 65536) 0 buf.itemsStart ∘
        fun s => { s with inputNvitemsSize := 0 }) buf.processLog _ :=
    (load_performs _ _).bind_id ((load_performs _ _).bind_id
      ((Performs.modify _).bind_nil (processItems_performs buf _ 0 buf.itemsStart)))
  rw [processNvConfigurationData, Exec.get_bind]
  exact ⟨hitems.run _, fun h => hitems.state (buf.survived_processLog.2 h) _⟩

/-- The run that the process survives. -/
theorem processNvConfigurationData_eq {buf : FileBuffer} (h : buf.WalkSurvived) (s : LocateState) :
    processNvConfigurationData buf (buf.setHeaders s) =
      (buf.takeItems (buf.noOfItems % 65536) 0 buf.itemsStart
          { buf.setHeaders s with inputNvitemsSize := 0 },
        ⟨buf.processLog, some (buf.itemsResult buf.itemsStart (buf.noOfItems % 65536))⟩) := by
  obtain ⟨hrun, hstate⟩ := processNvConfigurationData_run buf s
  have hlog := buf.survived_processLog.2 h
  rw [upToFatal_of_survived hlog, if_pos hlog] at hrun
  exact Prod.ext (hstate h) hrun

/-- Any other run ends with the process. -/
theorem processNvConfigurationData_res_eq_none {buf : FileBuffer} (h : ¬ buf.WalkSurvived)
    (s : LocateState) : (processNvConfigurationData buf (buf.setHeaders s)).2.res = none := by
  rw [(processNvConfigurationData_run buf s).1,
    if_neg fun hlog => h (buf.survived_processLog.1 hlog)]

variable {s} {steps : List LocateAccess} {result : ℤ} {g : Found → Found}

/-- The items of an accepted file. -/
theorem processNvConfigurationData_does
    (hwalks : Walks (processItems buf (buf.noOfItems % 65536) 0 buf.itemsStart) steps result g) :
    ∃ s', Does LocateAccess.step? (processNvConfigurationData buf) (buf.setHeaders s) s' steps
        result ∧
      s'.found = g s.found ∧ s'.isValid = s.isValid ∧
      s'.carrierId = UInt32.ofNat buf.carrierId := by
  obtain ⟨s', hdoes, hfound, hvalid, hcarrier⟩ :=
    hwalks { buf.setHeaders s with inputNvitemsSize := 0 }
  refine ⟨s', ?_, hfound, hvalid, hcarrier⟩
  exact (Does.get _).bind_nil ((load_does _ _ _).bind_nil ((load_does _ _ _).bind_nil
    ((Does.modify _ _).bind_nil hdoes)))

/-- **An accepted file is valid if and only if the walk over its items succeeds.** -/
theorem checkBuffer_does (h : buf.Accepted)
    (hwalks : Walks (processItems buf (buf.noOfItems % 65536) 0 buf.itemsStart) steps result g)
    (hs : s.isValid = false) :
    ∃ s', Does LocateAccess.step? (checkBuffer buf) s s' steps ⟨⟩ ∧
      s'.found = g s.found ∧ s'.isValid = decide (0 ≤ result) ∧
      s'.carrierId = UInt32.ofNat buf.carrierId := by
  obtain ⟨s', hdoes, hfound, hvalid, hcarrier⟩ := processNvConfigurationData_does (s := s) hwalks
  obtain ⟨s'', hend, hfound', hvalid', hcarrier'⟩ : ∃ s'', Does LocateAccess.step?
      (if result < 0 then pure ⟨⟩ else Exec.modify fun s => { s with isValid := true }) s' s'' []
      ⟨⟩ ∧ s''.found = s'.found ∧ s''.isValid = decide (0 ≤ result) ∧
      s''.carrierId = s'.carrierId := by
    by_cases hresult : result < 0
    · rw [if_pos hresult]
      exact ⟨s', Does.pure _ s', rfl, by rw [hvalid, hs]; simpa using hresult, rfl⟩
    · rw [if_neg hresult]
      exact ⟨_, Does.modify _ s', rfl, by simpa using hresult, rfl⟩
  refine ⟨s'', (checkInputFile_does s h).bind_nil (passes_does (lt_irrefl 0) ?_),
    hfound'.trans hfound, hvalid', hcarrier'.trans hcarrier⟩
  have hdoes' := hdoes.bind (f := fun processed => if processed < 0 then pure ⟨⟩
    else Exec.modify fun s => { s with isValid := true }) hend
  rw [List.append_nil] at hdoes'
  exact hdoes'

end Accepted

/-- Any other file is not valid, and nothing is found in it. -/
theorem checkBuffer_walks (h : ¬ buf.Accepted) : Walks (checkBuffer buf) [] ⟨⟩ id :=
  (checkInputFile_walks h).quiet (Walks.pure _)

/-- The state with its outputs cleared. -/
def LocateState.cleared (s : LocateState) : LocateState :=
  { s with isValid := false, mcc := 0, mnc := 0, carrierId := 0 }

/-- The run over a file begins with cleared outputs. -/
theorem checkFileHeader_some (file rest : List UInt8) (s : LocateState) :
    checkFileHeader (some file) rest s = checkBuffer (.read file rest) s.cleared := rfl

/-- The walk gets to its end: the file is valid, whatever the footers were. -/
theorem checkBuffer_walked (h : buf.Walked) (hsurvived : buf.WalkSurvived) (s : LocateState) :
    ∃ s', Does LocateAccess.step? (checkBuffer buf) s.cleared s'
        (buf.walkSteps buf.itemsStart 0 (buf.noOfItems % 65536)) ⟨⟩ ∧
      s'.isValid = true ∧ s'.carrierId = UInt32.ofNat buf.carrierId ∧
      s'.found = buf.leaves s.internalName := by
  obtain ⟨s', hdoes, hfound, hvalid, hcarrier⟩ :=
    checkBuffer_does (s := s.cleared) h.1 (processItems_walks _ 0 h.2 fun k hk =>
      hsurvived k ⟨hk, fun j hj => h.2 j (hj.trans hk)⟩) rfl
  exact ⟨s', hdoes, hvalid, hcarrier, hfound⟩

/-- The walk ends at item `j`, of an unknown type: the file is not valid. -/
theorem checkBuffer_unknown (h : buf.Accepted) (hsurvived : buf.WalkSurvived) {j : ℕ}
    (hj : j < buf.noOfItems % 65536) (hknown : ∀ k < j, buf.KnownItem k)
    (hunknown : ¬ buf.KnownItem j) (s : LocateState) :
    ∃ s', Does LocateAccess.step? (checkBuffer buf) s.cleared s'
        (buf.walkSteps buf.itemsStart 0 (j + 1)) ⟨⟩ ∧
      s'.isValid = false ∧ s'.carrierId = UInt32.ofNat buf.carrierId ∧
      s'.found = (buf.sectionsMet buf.itemsStart j).foldl buf.store ⟨0, 0, s.internalName⟩ := by
  obtain ⟨s', hdoes, hfound, hvalid, hcarrier⟩ := checkBuffer_does (s := s.cleared) h
    (processItems_walks_unknown j 0 hj hknown (buf.itemType_of_unknown hunknown) fun k hk =>
      hsurvived k ⟨hk.trans hj, fun i hi => hknown i (hi.trans hk)⟩) rfl
  exact ⟨s', hdoes, hvalid, hcarrier, hfound⟩

/-- **The check returns if and only if the process survives it.** -/
theorem checkBuffer_returns_iff (s : LocateState) :
    (checkBuffer buf s.cleared).2.res = some ⟨⟩ ↔ (buf.Accepted → buf.WalkSurvived) := by
  by_cases haccepted : buf.Accepted
  · by_cases hsurvived : buf.WalkSurvived
    · refine iff_of_true ?_ fun _ => hsurvived
      by_cases hknown : ∀ k < buf.noOfItems % 65536, buf.KnownItem k
      · obtain ⟨s', ⟨-, hres, -⟩, -⟩ := checkBuffer_walked ⟨haccepted, hknown⟩ hsurvived s
        exact hres
      · obtain ⟨j, hj, hbefore, hunknown⟩ := buf.exists_first_unknown hknown
        obtain ⟨s', ⟨-, hres, -⟩, -⟩ :=
          checkBuffer_unknown haccepted hsurvived hj hbefore hunknown s
        exact hres
    · refine iff_of_false ?_ fun h => hsurvived (h haccepted)
      have hinput := (checkInputFile_does s.cleared haccepted).bind_apply fun input =>
        if input < 0 then (pure ⟨⟩ : LocateM PUnit)
        else do
          let processed ← processNvConfigurationData buf
          if processed < 0 then pure ⟨⟩
          else Exec.modify fun s => { s with isValid := true }
      have hres : (checkBuffer buf s.cleared).2.res = none := by
        refine hinput.2.1.trans ?_
        rw [if_neg (lt_irrefl 0)]
        exact res_bind_of_none (processNvConfigurationData_res_eq_none hsurvived s.cleared) _
      simp [hres]
  · obtain ⟨s', ⟨-, hres, -⟩, -⟩ := checkBuffer_walks haccepted s.cleared
    exact iff_of_true hres fun h => absurd h haccepted

/-- **A file that the process survives is valid if and only if the walk gets to its end.** -/
theorem checkBuffer_isValid_iff (hsurvived : buf.Accepted → buf.WalkSurvived) (s : LocateState) :
    (checkBuffer buf s.cleared).1.isValid = true ↔ buf.Walked := by
  constructor
  · intro hvalid
    by_cases haccepted : buf.Accepted
    · refine ⟨haccepted, ?_⟩
      by_contra hall
      obtain ⟨j, hj, hknown, hunknown⟩ := buf.exists_first_unknown hall
      obtain ⟨s', ⟨rfl, -, -⟩, hinvalid, -⟩ :=
        checkBuffer_unknown haccepted (hsurvived haccepted) hj hknown hunknown s
      rw [hinvalid] at hvalid
      cases hvalid
    · obtain ⟨s', ⟨rfl, -, -⟩, -, hinvalid, -⟩ := checkBuffer_walks haccepted s.cleared
      rw [hinvalid] at hvalid
      cases hvalid
  · intro hwalked
    obtain ⟨s', ⟨rfl, -, -⟩, hvalid, -⟩ := checkBuffer_walked hwalked (hsurvived hwalked.1) s
    exact hvalid

end Imsd
