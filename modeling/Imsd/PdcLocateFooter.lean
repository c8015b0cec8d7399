import Imsd.McfgFormat
import Imsd.PdcLocateSurvival

/-!
# Does the walk over a footer stay in its objects?

`analyze_footer` counts its sections, so that no more than 16 are recorded, but it takes the size of
each of them as it comes.  Sections may get behind the end of the footer or be longer than a record;
the name is copied up to its NUL, wherever that is, and a section with an unknown id is reported
with the help of `sec3`, whether or not there has been a name.

`LocateAccess.Safe` are the accesses that stay in their objects, and `allSafe_sectionsLog` says
which sections lead to them only.  `analyzes_inside_iff`: the function stays inside, or returns an
error, exactly when all the sections that it meets are of that kind.
-/

namespace Imsd

open Bytes Exec
open LocateAccess (Fatal)

/-- An access that stays in its object, when the bytes end at `stop`. -/
def LocateAccess.Safe (stop : ℕ) : LocateAccess → Prop
  | read a => a < stop
  | writeNvItem _ n => n ≤ maxObjSize
  | writeEfsfilenametmp n => n ≤ 256
  | writeInternalName n => n ≤ 128
  | writeFooterItem k n => k < maxFooterSections ∧ n ≤ maxObjSize
  | uninitialised => False
  | item _ _ => True
  | footer _ _ _ => True

theorem LocateAccess.Safe.not_fatal {stop : ℕ} {e : LocateAccess} (h : e.Safe stop) :
    ¬ Fatal e := by
  cases e with
  | read a => exact not_false
  | writeNvItem i n => exact Nat.not_lt.2 h
  | writeEfsfilenametmp n => exact Nat.not_lt.2 h
  | writeInternalName n => exact Nat.not_lt.2 h
  | writeFooterItem k n => exact not_or.2 ⟨Nat.not_le.2 h.1, Nat.not_lt.2 h.2⟩
  | uninitialised => exact fun _ => h
  | item i a => exact not_false
  | footer a sz result => exact not_false

/-- All accesses stay in their objects. -/
def AllSafe (stop : ℕ) (log : List LocateAccess) : Prop := ∀ e ∈ log, e.Safe stop

/-- The accesses before a fatal one, and with it, tell it already. -/
theorem allSafe_upToFatal {stop : ℕ} {log : List LocateAccess} :
    AllSafe stop (upToFatal Fatal log) ↔ AllSafe stop log :=
  forall_mem_upToFatal_iff fun _ => LocateAccess.Safe.not_fatal

theorem AllSafe.survived {stop : ℕ} {log : List LocateAccess} (h : AllSafe stop log) :
    Survived Fatal log := fun e he => (h e he).not_fatal

section AllSafe

variable {stop : ℕ} {log log' : List LocateAccess} {e : LocateAccess}

@[simp] theorem allSafe_nil : AllSafe stop [] := fun _ h => absurd h List.not_mem_nil

@[simp] theorem allSafe_cons : AllSafe stop (e :: log) ↔ e.Safe stop ∧ AllSafe stop log :=
  List.forall_mem_cons

@[simp] theorem allSafe_append :
    AllSafe stop (log ++ log') ↔ AllSafe stop log ∧ AllSafe stop log' :=
  List.forall_mem_append

/-- Some bytes are read before the stop. -/
theorem allSafe_readsOf {a n : ℕ} : AllSafe stop (readsOf a n) ↔ n = 0 ∨ a + n ≤ stop := by
  constructor
  · intro h
    by_cases hn : n = 0
    · exact Or.inl hn
    · have hlast : a + (n - 1) < stop := h _ (read_mem_readsOf.2 ⟨by omega, by omega⟩)
      exact Or.inr (by omega)
  · intro h e he
    obtain ⟨b, rfl, hle, hlt⟩ := mem_readsOf.1 he
    show b < stop
    omega

@[simp] theorem allSafe_readsOf_succ {a n : ℕ} :
    AllSafe stop (readsOf a (n + 1)) ↔ a + (n + 1) ≤ stop := by
  simp [allSafe_readsOf]

end AllSafe

/-! ### Sections -/

namespace FileBuffer

variable (buf : FileBuffer)

/-- The length that the section at an address gives its payload. -/
def sectionLen (a : ℕ) : ℕ := loadLE buf.byte (a + 1) 2

/-- The end of the name in the section at an address, with its NUL. -/
def nameEnd (a : ℕ) : ℕ := a + 3 + ((buf.string (a + 3)).length + 1)

/-- The end of what the `switch` reads of the section at an address. -/
def fieldsEnd (a : ℕ) : ℕ :=
  match buf.sectionId a with
  | some .version1 => a + 5
  | some .version2 | some .applicableMccMnc | some .carrierVersionId => a + 7
  | some .profileName => buf.nameEnd a
  | some .allowedIccids => a + 5 + 4 * loadLE buf.byte (a + 4) 1
  | none => a + 3

/-- The section at an address lies before the stop, with what is read of it, and fits its record;
a name fits `internal_name`. -/
def SectionInside (stop a : ℕ) : Prop :=
  (buf.sectionEnd a ≤ stop ∧ buf.fieldsEnd a ≤ stop) ∧ buf.sectionEnd a ≤ a + maxObjSize ∧
    (buf.sectionId a = some .profileName → (buf.string (a + 3)).length ≤ 128)

variable {buf}

/-- What the `switch` over one section reads and copies. -/
theorem allSafe_switchLog {stop a : ℕ} {sec3 : Option ℕ}
    (hsec3 : ∀ name ∈ sec3, buf.nameEnd name ≤ stop) (hhead : a + 3 ≤ stop) :
    AllSafe stop (buf.switchLog a sec3) ↔ buf.fieldsEnd a ≤ stop ∧
      (buf.sectionId a = some .profileName → (buf.string (a + 3)).length ≤ 128) ∧
      (buf.sectionId a = none → sec3.isSome) := by
  unfold switchLog fieldsEnd
  cases buf.sectionId a with
  | none =>
    cases sec3 with
    | none => simp [LocateAccess.Safe]
    | some name =>
      have hname : name + 3 + ((buf.string (name + 3)).length + 1) ≤ stop := hsec3 name rfl
      simp [hname, hhead]
  | some id =>
    cases id with
    | version1 => simp
    | version2 => simp
    | applicableMccMnc =>
      simp
      omega
    | profileName => simp [LocateAccess.Safe, nameEnd]
    | allowedIccids =>
      simp [allSafe_readsOf]
      omega
    | carrierVersionId => simp

/-- What one section reads and copies. -/
theorem allSafe_sectionLog {stop k a : ℕ} {sec3 : Option ℕ} (hk : k < maxFooterSections)
    (hsec3 : ∀ name ∈ sec3, buf.nameEnd name ≤ stop) :
    AllSafe stop (buf.sectionLog k a sec3) ↔
      buf.SectionInside stop a ∧ (buf.sectionId a = none → sec3.isSome) := by
  have hend : a + 3 ≤ buf.sectionEnd a := by
    unfold sectionEnd
    omega
  have hsize : AllSafe stop (readsOf a (buf.sectionEnd a - a)) ↔ buf.sectionEnd a ≤ stop := by
    rw [allSafe_readsOf]
    omega
  have hrecord : LocateAccess.Safe stop (.writeFooterItem k (buf.sectionEnd a - a)) ↔
      buf.sectionEnd a ≤ a + maxObjSize := by
    simp only [LocateAccess.Safe, hk, true_and]
    omega
  unfold sectionLog SectionInside
  simp only [allSafe_append, allSafe_cons, allSafe_nil, and_true, hsize, hrecord]
  constructor
  · rintro ⟨-, -, hswitch, hinside, hfits⟩
    obtain ⟨hfields, hname, hunknown⟩ := (allSafe_switchLog hsec3 (hend.trans hinside)).1 hswitch
    exact ⟨⟨⟨hinside, hfields⟩, hfits, hname⟩, hunknown⟩
  · rintro ⟨⟨⟨hinside, hfields⟩, hfits, hname⟩, hunknown⟩
    refine ⟨?_, ?_, ?_, hinside, hfits⟩
    · exact allSafe_readsOf.2 (by omega)
    · exact allSafe_readsOf.2 (by omega)
    · exact (allSafe_switchLog hsec3 (hend.trans hinside)).2 ⟨hfields, hname, hunknown⟩

/-- **What sections read and copy**: it stays in the objects when each of them is inside, and no
unknown one comes before a name. -/
theorem allSafe_sectionsLog {stop : ℕ} (as : List ℕ) : ∀ (k : ℕ) (sec3 : Option ℕ),
    k + as.length ≤ maxFooterSections → (∀ name ∈ sec3, buf.nameEnd name ≤ stop) →
    (AllSafe stop (buf.sectionsLog as k sec3) ↔
      (∀ a ∈ as, buf.SectionInside stop a) ∧ (sec3.isSome ∨ buf.NameFirst as)) := by
  induction as with
  | nil => simp [sectionsLog, NameFirst]
  | cons a as ih =>
    intro k sec3 hk hsec3
    rw [List.length_cons] at hk
    rw [sectionsLog, allSafe_append, allSafe_sectionLog (by omega) hsec3, List.forall_mem_cons,
      NameFirst]
    have hrest (hinside : buf.SectionInside stop a) := by
      refine ih (k + 1) (buf.sec3After a sec3) (by omega) fun name hname => ?_
      unfold sec3After at hname
      split_ifs at hname with hid
      · obtain rfl : a = name := by simpa using hname
        have hfields := hinside.1.2
        rwa [fieldsEnd, hid] at hfields
      · exact hsec3 name hname
    by_cases hinside : buf.SectionInside stop a
    · have hknown : buf.sectionId a = some .profileName → buf.sectionId a ≠ none := by
        rintro h
        simp [h]
      rw [hrest hinside, isSome_sec3After]
      grind
    · grind

/-! ### Footers -/

/-- The checks of the header read the footer only. -/
theorem allSafe_footerHeaderLog (footer sz : ℕ) :
    AllSafe (footer + sz) (buf.footerHeaderLog footer sz) := by
  unfold footerHeaderLog
  split_ifs with hsz hmagic hmagics <;> simp
  all_goals omega

/-- What `analyze_footer` reads and copies. -/
theorem allSafe_footerLog {stop footer sz : ℕ} (hstop : footer + sz ≤ stop) :
    AllSafe stop (buf.footerLog footer sz) ↔
      (∀ a ∈ buf.footerSectionsMet footer sz, buf.SectionInside stop a) ∧
        buf.NameFirst (buf.footerSectionsMet footer sz) := by
  have hlen := buf.length_footerSectionsMet_le footer sz
  have hheader : AllSafe stop (buf.footerHeaderLog footer sz) := by
    intro e he
    have hsafe := allSafe_footerHeaderLog footer sz e he
    cases e with
    | read a => exact Nat.lt_of_lt_of_le hsafe hstop
    | _ => exact hsafe
  rw [footerLog, allSafe_append, allSafe_sectionsLog _ 0 none (by omega) (by simp)]
  simp [hheader]

end FileBuffer

/-! ### Names -/

/-- The lengths of the names that are copied. -/
def nameCopies (log : List LocateAccess) : List ℕ :=
  log.filterMap fun
    | .writeInternalName n => some n
    | _ => none

@[simp] theorem nameCopies_nil : nameCopies [] = [] := rfl

@[simp] theorem nameCopies_cons (log : List LocateAccess) :
    (∀ n, nameCopies (.writeInternalName n :: log) = n :: nameCopies log) ∧
      (∀ k n, nameCopies (.writeFooterItem k n :: log) = nameCopies log) ∧
      nameCopies (.uninitialised :: log) = nameCopies log :=
  ⟨fun _ => rfl, fun _ _ => rfl, rfl⟩

@[simp] theorem nameCopies_append (log log' : List LocateAccess) :
    nameCopies (log ++ log') = nameCopies log ++ nameCopies log' :=
  List.filterMap_append

@[simp] theorem nameCopies_readsOf (a n : ℕ) : nameCopies (readsOf a n) = [] := by
  rw [nameCopies, List.filterMap_eq_nil_iff]
  intro e he
  obtain ⟨b, rfl, -⟩ := mem_readsOf.1 he
  rfl

namespace FileBuffer

variable (buf : FileBuffer)

/-- The sections that have a name. -/
def namesAmong (as : List ℕ) : List ℕ :=
  as.filter fun a => buf.sectionId a = some .profileName

theorem nameCopies_switchLog (a : ℕ) (sec3 : Option ℕ) :
    nameCopies (buf.switchLog a sec3) =
      if buf.sectionId a = some .profileName then [(buf.string (a + 3)).length] else [] := by
  unfold switchLog
  cases buf.sectionId a with
  | none => cases sec3 <;> simp
  | some id => cases id <;> simp

/-- The names are copied one after the other. -/
theorem nameCopies_sectionsLog (as : List ℕ) : ∀ (k : ℕ) (sec3 : Option ℕ),
    nameCopies (buf.sectionsLog as k sec3) =
      (buf.namesAmong as).map fun a => (buf.string (a + 3)).length := by
  unfold namesAmong
  induction as with
  | nil => exact fun _ _ => rfl
  | cons a as ih =>
    intro k sec3
    rw [sectionsLog, sectionLog, List.filter_cons]
    by_cases hid : buf.sectionId a = some .profileName
    · simp [nameCopies_switchLog, ih, hid]
    · simp [nameCopies_switchLog, ih, hid]

theorem nameCopies_footerLog (footer sz : ℕ) :
    nameCopies (buf.footerLog footer sz) =
      (buf.namesAmong (buf.footerSectionsMet footer sz)).map
        fun a => (buf.string (a + 3)).length := by
  have hheader : nameCopies (buf.footerHeaderLog footer sz) = [] := by
    unfold footerHeaderLog
    split_ifs <;> simp
  rw [footerLog, nameCopies_append, hheader, nameCopies_sectionsLog, List.nil_append]

/-- A name that ends inside its section. -/
def NameInside (a : ℕ) : Prop :=
  buf.sectionId a = some .profileName → (buf.string (a + 3)).length ≤ buf.sectionLen a

/-- **The footers whose sections stay inside**: each section met lies in the footer, with what is
read of it, and fits its record; its name lies in it; and no unknown section comes before a name. -/
def FooterInside (footer sz : ℕ) : Prop :=
  (∀ a ∈ buf.footerSectionsMet footer sz,
    buf.SectionInside (footer + sz) a ∧ buf.NameInside a) ∧
    buf.NameFirst (buf.footerSectionsMet footer sz)

end FileBuffer

/-- A run of `analyze_footer` stays in its objects, copies no more of a name than its section has,
and returns an error for a section that does not fit. -/
structure AnalyzesInside (buf : FileBuffer) (footer sz : ℕ)
    (run : LocateState × Traced LocateAccess ℤ) : Prop where
  safe : AllSafe (footer + sz) run.2.log
  names : List.Forall₂ (· ≤ ·) (nameCopies run.2.log)
    ((buf.namesAmong (buf.footerSectionsMet footer sz)).map buf.sectionLen)
  rejects : ∀ a ∈ buf.footerSectionsMet footer sz,
    ¬ (buf.SectionInside (footer + sz) a ∧ buf.NameInside a) → ∃ r < 0, run.2.res = some r

/-- **`analyze_footer` stays inside exactly when the sections that it meets do**, for every
content. -/
theorem analyzes_inside_iff (buf : FileBuffer) (footer sz : ℕ) (s : LocateState) :
    AnalyzesInside buf footer sz (analyzeFooter buf footer sz s) ↔
      buf.FooterInside footer sz := by
  have hperforms : Performs Fatal (analyzeFooter buf footer sz) _ _ _ :=
    analyzeFooter_performs footer sz
  have hnames : List.Forall₂ (· ≤ ·) (nameCopies (buf.footerLog footer sz))
      ((buf.namesAmong (buf.footerSectionsMet footer sz)).map buf.sectionLen) ↔
      ∀ a ∈ buf.footerSectionsMet footer sz, buf.NameInside a := by
    rw [buf.nameCopies_footerLog, List.forall₂_map_left_iff, List.forall₂_map_right_iff,
      List.forall₂_same]
    simp [FileBuffer.namesAmong, FileBuffer.NameInside]
  constructor
  · rintro ⟨hsafe, hcopies, -⟩
    rw [hperforms.run s] at hsafe
    have hall := allSafe_upToFatal.1 hsafe
    obtain ⟨hinside, hfirst⟩ := (FileBuffer.allSafe_footerLog le_rfl).1 hall
    rw [hperforms.apply hall.survived s] at hcopies
    exact ⟨fun a ha => ⟨hinside a ha, hnames.1 hcopies a ha⟩, hfirst⟩
  · rintro ⟨hinside, hfirst⟩
    have hall : AllSafe (footer + sz) (buf.footerLog footer sz) :=
      (FileBuffer.allSafe_footerLog le_rfl).2 ⟨fun a ha => (hinside a ha).1, hfirst⟩
    rw [hperforms.apply hall.survived s]
    exact ⟨hall, hnames.2 fun a ha => (hinside a ha).2,
      fun a ha hout => absurd (hinside a ha) hout⟩

/-- A footer with one section, of an unknown id. -/
def unnamedFooter : List UInt8 :=
  toLE 4 28 ++ (toLE 4 McfgItemType.foot.code ++ (toLE 2 0xa1 ++ (toLE 2 12 ++
    (mcfgFileFooterMagic ++ ([6, 1, 0, 0] ++ toLE 4 28)))))

/-- `sec3` is used, and there has been no name. -/
theorem not_analyzes_inside : ¬ AnalyzesInside (.read unnamedFooter []) 0 unnamedFooter.length
    (analyzeFooter (.read unnamedFooter []) 0 unnamedFooter.length .initial) := by
  intro h
  have hmem : .uninitialised ∈ (FileBuffer.read unnamedFooter []).footerLog 0 28 := by decide
  have hsafe := h.safe
  rw [(analyzeFooter_performs _ _).run] at hsafe
  exact allSafe_upToFatal.1 hsafe _ hmem

end Imsd
