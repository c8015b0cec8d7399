import Imsd.PdcLocateRun

/-!
# Which files the process survives

`analyze_footer` copies each section into a record and each name into `internal_name`, and the walk
over the items copies NV items and the names of files: all of them as long as they say they are.
For a section with an unknown id, `sec3` is used, which only a name sets.

`survived_footerLog` says which footers the process survives (`FooterSurvived`), and
`survived_itemsLog` says it of items: each one that the walk comes to has to be one that the process
survives (`ItemSurvived`).
-/

namespace Imsd

open Bytes Exec
open LocateAccess (Fatal)

namespace FileBuffer

variable (buf : FileBuffer)

/-! ### Footers -/

/-- The section at an address fits its record, and a name `internal_name`. -/
def SectionFits (a : ℕ) : Prop :=
  buf.sectionEnd a ≤ a + maxObjSize ∧
    (buf.sectionId a = some .profileName → (buf.string (a + 3)).length ≤ 128)

instance (a : ℕ) : Decidable (buf.SectionFits a) := inferInstanceAs (Decidable (_ ∧ _))

/-- No section with an unknown id comes before the first name. -/
def NameFirst : List ℕ → Prop
  | [] => True
  | a :: as => buf.sectionId a = some .profileName ∨ buf.sectionId a ≠ none ∧ NameFirst as

instance instDecidablePredNameFirst : DecidablePred buf.NameFirst
  | [] => isTrue trivial
  | _ :: as =>
    have := instDecidablePredNameFirst as
    inferInstanceAs (Decidable (_ ∨ _ ∧ _))

/-- **The footers that the process survives**: the sections that are met fit, and no unknown one
comes before a name. -/
def FooterSurvived (footer sz : ℕ) : Prop :=
  (∀ a ∈ buf.footerSectionsMet footer sz, buf.SectionFits a) ∧
    buf.NameFirst (buf.footerSectionsMet footer sz)

instance (footer sz : ℕ) : Decidable (buf.FooterSurvived footer sz) :=
  inferInstanceAs (Decidable (_ ∧ _))

variable {buf}

theorem nameFirst_of_known {as : List ℕ} (h : ∀ a ∈ as, buf.sectionId a ≠ none) :
    buf.NameFirst as := by
  induction as with
  | nil => trivial
  | cons a as ih =>
    obtain ⟨ha, has⟩ := List.forall_mem_cons.1 h
    exact Or.inr ⟨ha, ih has⟩

theorem isSome_sec3After (a : ℕ) (sec3 : Option ℕ) :
    (buf.sec3After a sec3).isSome ↔ buf.sectionId a = some .profileName ∨ sec3.isSome := by
  unfold sec3After
  split_ifs with h
  · simp [h]
  · simp [h]

/-- The `switch` over one section. -/
theorem survived_switchLog (a : ℕ) (sec3 : Option ℕ) :
    Survived Fatal (buf.switchLog a sec3) ↔
      (buf.sectionId a = some .profileName → (buf.string (a + 3)).length ≤ 128) ∧
        (buf.sectionId a = none → sec3.isSome) := by
  unfold switchLog
  cases buf.sectionId a with
  | none => cases sec3 <;> simp [Fatal]
  | some id => cases id <;> simp [Fatal]

/-- One section. -/
theorem survived_sectionLog {k : ℕ} (hk : k < maxFooterSections) (a : ℕ) (sec3 : Option ℕ) :
    Survived Fatal (buf.sectionLog k a sec3) ↔
      buf.SectionFits a ∧ (buf.sectionId a = none → sec3.isSome) := by
  have hrecord : ¬ Fatal (.writeFooterItem k (buf.sectionEnd a - a)) ↔
      buf.sectionEnd a ≤ a + maxObjSize := by
    simp only [Fatal]
    omega
  simp only [sectionLog, survived_append, survived_cons, survived_nil, survived_readsOf, hrecord,
    survived_switchLog, SectionFits, true_and, and_true]
  constructor
  · rintro ⟨⟨hname, hunknown⟩, hfits⟩
    exact ⟨⟨hfits, hname⟩, hunknown⟩
  · rintro ⟨⟨hfits, hname⟩, hunknown⟩
    exact ⟨⟨hname, hunknown⟩, hfits⟩

theorem survived_sectionsLog (as : List ℕ) : ∀ (k : ℕ) (sec3 : Option ℕ),
    k + as.length ≤ maxFooterSections →
    (Survived Fatal (buf.sectionsLog as k sec3) ↔
      (∀ a ∈ as, buf.SectionFits a) ∧ (sec3.isSome ∨ buf.NameFirst as)) := by
  induction as with
  | nil => simp [sectionsLog, NameFirst]
  | cons a as ih =>
    intro k sec3 hk
    rw [List.length_cons] at hk
    rw [sectionsLog, survived_append, survived_sectionLog (by omega), ih (k + 1) _ (by omega),
      isSome_sec3After, List.forall_mem_cons, NameFirst]
    have hknown : buf.sectionId a = some .profileName → buf.sectionId a ≠ none := by
      intro h
      simp [h]
    grind

/-- No more than 16 sections are met. -/
theorem length_footerSectionsMet_le (buf : FileBuffer) (footer sz : ℕ) :
    (buf.footerSectionsMet footer sz).length ≤ maxFooterSections := by
  have hfrom (stop n : ℕ) : ∀ a, (buf.sectionsFrom stop n a).length ≤ n := by
    induction n with
    | zero => exact fun _ => le_rfl
    | succ n ih =>
      intro a
      rw [sectionsFrom, List.length_cons]
      split_ifs
      · simp
      · exact Nat.succ_le_succ (ih _)
  unfold footerSectionsMet
  split_ifs
  · exact hfrom _ _ _
  · simp

theorem survived_footerHeaderLog (footer sz : ℕ) :
    Survived Fatal (buf.footerHeaderLog footer sz) := by
  unfold footerHeaderLog
  split_ifs <;> simp

/-- **When the process survives a footer.** -/
theorem survived_footerLog (footer sz : ℕ) :
    Survived Fatal (buf.footerLog footer sz) ↔ buf.FooterSurvived footer sz := by
  have hlen := buf.length_footerSectionsMet_le footer sz
  rw [footerLog, survived_append, survived_sectionsLog _ 0 none (by omega)]
  simp [survived_footerHeaderLog, FooterSurvived]

/-! ### Items -/

variable (buf)

/-- The name of a file, if it is one, fits `efsfilenametmp`. -/
def PartFits (a : ℕ) : Prop :=
  loadLE buf.byte a 2 = efsFilename → loadLE buf.byte (a + 2) 2 ≤ 256

/-- **The items that the process survives**: an NV item fits its record, by the size that is
recorded, and the names of a file fit; a footer is one that the process survives. -/
def ItemSurvived (a : ℕ) : Prop :=
  match buf.itemType a with
  | some .nv | some .unknown => buf.itemSize a ≤ maxObjSize
  | some .nvfile | some .file => buf.PartFits (a + 8) ∧ buf.PartFits (buf.partEnd (a + 8))
  | some .foot => buf.FooterSurvived a (buf.footerBytes a)
  | none => True

variable {buf}

theorem survived_partLog (a : ℕ) : Survived Fatal (buf.partLog a) ↔ buf.PartFits a := by
  unfold partLog PartFits
  by_cases hname : loadLE buf.byte a 2 = efsFilename
  · simp [hname, Fatal]
  · rw [if_neg hname]
    split_ifs <;> simp [hname]

theorem survived_itemLog (i a : ℕ) : Survived Fatal (buf.itemLog i a) ↔ buf.ItemSurvived a := by
  have hheader : Survived Fatal (buf.itemLog i a) ↔ Survived Fatal (buf.contentLog i a) := by
    simp [itemLog, Fatal]
  rw [hheader]
  unfold contentLog ItemSurvived
  cases buf.itemType a with
  | none => simp
  | some type =>
    cases type with
    | nv => simp [Fatal]
    | unknown => simp [Fatal]
    | nvfile => simp [Fatal, survived_partLog]
    | file => simp [Fatal, survived_partLog]
    | foot => simp [Fatal, survived_footerLog]

/-- **When the process survives items.** -/
theorem survived_itemsLog (n : ℕ) : ∀ (i a : ℕ), Survived Fatal (buf.itemsLog n i a) ↔
    ∀ k < n, (∀ j < k, (buf.itemType (buf.itemOffset a j)).isSome) →
      buf.ItemSurvived (buf.itemOffset a k) := by
  induction n with
  | zero => simp [itemsLog]
  | succ n ih =>
    intro i a
    rw [itemsLog, survived_append, survived_itemLog, Nat.forall_lt_succ_left]
    simp only [Nat.forall_lt_succ_left, Nat.not_lt_zero, IsEmpty.forall_iff, forall_const,
      buf.itemOffset_succ]
    have hstart : buf.itemOffset a 0 = a := rfl
    rw [hstart]
    by_cases hknown : (buf.itemType a).isSome
    · simp [hknown, ih]
    · simp [hknown]

end FileBuffer

end Imsd
