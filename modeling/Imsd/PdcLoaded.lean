import Imsd.PdcListing
import Imsd.Lib.Trace

/-!
# Counting the entries that have their details

`configs_loaded` counts the entries of the list whose details have come, so that the list can be
printed when it equals the length.  The counter, the list and the tokens are written in different
places: a new list leaves the counter as it is, the details of an entry count again each time they
come, and the search for a token that no entry has ends at the last entry.

`countsRight_iff`: an indication leaves the counter right, an unknown token without effect and an
incomplete list unprinted (`CountsRight`) exactly when it is none of these (`FitsList`).  Then the
counter is right in every run (`Loaded`).
-/

namespace Imsd

open Exec EventSystem

/-! ### What the check leaves alone, and what it prints -/

section Check

variable {γ : Type} {g : PdcContext → γ}

theorem keeps_readField {α : Type} (field : PdcField) (f : PdcContext → α) :
    Keeps g (readField field f) :=
  (Keeps.emitAll _).bind fun _ => Keeps.get.bind fun _ => .pure _

theorem keeps_writeField (field : PdcField) {f : PdcContext → PdcContext}
    (h : ∀ s, g (f s) = g s) : Keeps g (writeField field f) :=
  (Keeps.emitAll _).bind fun _ => .modify h

theorem keeps_nextToken (h : ∀ s token, g { s with token := token } = g s) : Keeps g nextToken :=
  (keeps_readField _ _).bind fun _ => (keeps_writeField _ fun s => h s _).bind fun _ => .pure _

/-- The loop over the list changes nothing but the token. -/
theorem keeps_printEach (h : ∀ s token, g { s with token := token } = g s)
    (configs : List ConfigInfo) : Keeps g (printEach configs) := by
  have hstatus : ∀ id, Keeps g (statusString id) := fun id =>
    (keeps_readField _ _).bind fun _ => .ite (.pure _)
      ((keeps_readField _ _).bind fun _ => .ite (.pure _) (.pure _))
  have hselect : ∀ config, Keeps g (selectRowCommercial config) := by
    intro config
    unfold selectRowCommercial
    split
    · exact .lift _
    · exact .ite ((keeps_nextToken h).bind fun _ => .emitAll _) (.pure _)
  induction configs with
  | nil => exact .pure _
  | cons config configs ih => exact (hstatus _).bind fun _ => (hselect _).bind fun _ => ih

/-- The check changes nothing but the token. -/
theorem keeps_check (h : ∀ s token, g { s with token := token } = g s) :
    Keeps g checkListConfigCompleted := by
  intro s
  by_cases hcomplete : s.configsLoaded = UInt32.ofNat s.configList.length ∧ s.idsLoaded = true
  · rw [(check_continues hcomplete.1 hcomplete.2).state]
    exact keeps_printEach h _ s
  · rw [(check_does_nothing hcomplete).state]

/-- The check prints nothing but the list, and that when its length is counted. -/
theorem printed_by_check {s : PdcContext} {configs : List ConfigInfo}
    (h : .printConfigs configs ∈ (checkListConfigCompleted s).2.log.filterMap PdcAccess.output?) :
    configs = s.configList ∧ s.configsLoaded = UInt32.ofNat s.configList.length := by
  by_cases hcomplete : s.configsLoaded = UInt32.ofNat s.configList.length ∧ s.idsLoaded = true
  · rw [(check_continues hcomplete.1 hcomplete.2).out] at h
    rcases List.mem_append.1 h with h | h
    · obtain rfl : configs = s.configList := by simpa using h
      exact ⟨rfl, hcomplete.1⟩
    · obtain ⟨e, he, hout⟩ := List.mem_filterMap.1 h
      obtain ⟨config, -, -, token, hselects⟩ := logs_printEach s.configList s e he _ hout
      cases hselects
  · rw [(check_does_nothing hcomplete).out] at h
    cases h

end Check

/-! ### Counting -/

/-- The entries whose details have been stored. -/
def PdcContext.described (ctx : PdcContext) : ℕ :=
  ctx.configList.countP fun config => config.description.isSome

/-- The counter is right. -/
def Counted (ctx : PdcContext) : Prop := ctx.configsLoaded.toNat = ctx.described

instance (ctx : PdcContext) : Decidable (Counted ctx) := inferInstanceAs (Decidable (_ = _))

/-- The counter is right, and the list has a length that a `GArray` can have. -/
structure Loaded (ctx : PdcContext) : Prop where
  counted : Counted ctx
  sized : ctx.configList.length < 2 ^ 32

/-- The list of an indication has a length that a `GArray` can have. -/
def PdcIndication.Sized : PdcIndication → Prop
  | .listConfigs out => ∀ configs ∈ out.configs, configs.length < 2 ^ 32
  | _ => True

/-- The details of a token that no entry has. -/
def PdcIndication.Unknown (ctx : PdcContext) : PdcIndication → Prop
  | .getConfigInfo out => ∃ token ∈ out.token, ∀ config ∈ ctx.configList, config.token ≠ token
  | _ => False

/-- After the indication the counter is right, an unknown token has been handled and has changed no
entry, and a list that was printed has all its descriptions. -/
structure CountsRight (ctx : PdcContext) (indication : PdcIndication) : Prop where
  counted : Counted (indication.handle ctx).1
  unknown : indication.Unknown ctx → (indication.handle ctx).2.res.isSome ∧
    (indication.handle ctx).1.configList = ctx.configList
  described : ∀ configs,
    .printConfigs configs ∈ (indication.handle ctx).2.log.filterMap PdcAccess.output? →
    ∀ config ∈ configs, config.description.isSome

/-- The details say nothing new about the last entry. -/
def GetConfigInfoOutput.Spares (out : GetConfigInfoOutput) (configs : List ConfigInfo) : Prop :=
  out.totalSize = none ∨
    ∃ config ∈ configs.getLast?, out.totalSize = some config.totalSize ∧
      (out.version = none ∨ out.version = some config.version ∧ out.description = none)

/-- A list comes while nothing has been counted; complete details come to an entry that has no
description yet; details with a token that no entry has say nothing new about the last one. -/
def PdcIndication.FitsList (ctx : PdcContext) : PdcIndication → Prop
  | .listConfigs out => out.indicationResult = some 0 → out.configs.isSome → ctx.configsLoaded = 0
  | .getSelectedConfig _ => True
  | .getConfigInfo out => out.indicationResult = some 0 → ∀ token ∈ out.token,
    match ctx.configList.find? fun config => config.token = token with
    | some config => out.Complete → config.description = none
    | none => out.Spares ctx.configList

/-! ### One indication -/

section Handle

variable {s s₁ : PdcContext} {indication : PdcIndication} {outputs : List PdcOutput}

/-- An indication that ends in the check. -/
theorem counted_of_check (h : Continues PdcAccess.output? indication.handle s outputs
    checkListConfigCompleted s₁) : Counted (indication.handle s).1 ↔ Counted s₁ := by
  rw [h.state, Counted, Counted, PdcContext.described, PdcContext.described,
    keeps_check (g := PdcContext.configsLoaded) (fun _ _ => rfl),
    keeps_check (g := PdcContext.configList) (fun _ _ => rfl)]

theorem countsRight_of_check (h : Continues PdcAccess.output? indication.handle s outputs
      checkListConfigCompleted s₁) (houtputs : ∀ configs, .printConfigs configs ∉ outputs)
    (hknown : ¬ indication.Unknown s) (hloaded : Loaded s₁) : CountsRight s indication := by
  refine ⟨(counted_of_check h).2 hloaded.counted, fun hunknown => absurd hunknown hknown, ?_⟩
  intro configs hprinted
  rw [h.out] at hprinted
  obtain ⟨rfl, hlength⟩ :=
    printed_by_check ((List.mem_append.1 hprinted).resolve_left (houtputs configs))
  have hall : s₁.described = s₁.configList.length := by
    rw [← hloaded.counted, hlength, UInt32.toNat_ofNat_of_lt' hloaded.sized]
  exact List.countP_eq_length.1 hall

/-- An indication that does not get to the check. -/
theorem countsRight_of_does (h : Does PdcAccess.output? indication.handle s s₁ [] ⟨⟩)
    (hcounted : Counted s₁) (hunknown : indication.Unknown s → s₁.configList = s.configList) :
    CountsRight s indication := by
  refine ⟨by rwa [h.state], fun hu => ⟨by rw [h.res]; rfl, by rw [h.state, hunknown hu]⟩, ?_⟩
  intro configs hprinted
  rw [h.out] at hprinted
  cases hprinted

/-- Nothing is counted in a new list. -/
theorem counted_bareList {token : UInt32} {elements : List ConfigsElement}
    (h : s.configList = bareList token elements) : Counted s ↔ s.configsLoaded = 0 := by
  have hnone : s.described = 0 := by
    rw [PdcContext.described, h]
    refine List.countP_eq_zero.2 fun config hconfig => ?_
    obtain ⟨i, rfl⟩ := (List.mem_ofFn' _ _).1 hconfig
    exact Bool.false_ne_true
  rw [Counted, hnone, ← UInt32.toNat_inj]
  rfl

theorem length_bareList (token : UInt32) (elements : List ConfigsElement) :
    (bareList token elements).length = elements.length := List.length_ofFn

/-- **A list** leaves the counter right if it was zero. -/
theorem listConfigs_countsRight_iff {out : ListConfigsOutput}
    (hsized : (PdcIndication.listConfigs out).Sized)
    (h : Loaded s ∨ (PdcIndication.listConfigs out).Answers) :
    CountsRight s (.listConfigs out) ↔ (PdcIndication.listConfigs out).FitsList s := by
  by_cases hanswers : (PdcIndication.listConfigs out).Answers
  · obtain ⟨result, configs⟩ := out
    obtain ⟨rfl, hconfigs⟩ := hanswers
    obtain ⟨elements, rfl⟩ := Option.isSome_iff_exists.1 hconfigs
    have hcontinues := listing_continues elements s
    have hcounted := (counted_of_check hcontinues).trans (counted_bareList rfl)
    constructor
    · intro hright _ _
      exact hcounted.1 hright.counted
    · intro hfits
      refine countsRight_of_check hcontinues (fun configs hmem => ?_) id ⟨?_, ?_⟩
      · obtain ⟨i, hi⟩ := (List.mem_ofFn' _ _).1 hmem
        cases hi
      · exact (counted_bareList rfl).2 (hfits rfl rfl)
      · exact (length_bareList _ _).trans_lt (hsized elements rfl)
  · have hloaded := h.resolve_right hanswers
    have hdoes : Does PdcAccess.output? (PdcIndication.handle (.listConfigs out)) s
        { s with timeoutId := 0 } [] ⟨⟩ := by
      rw [listConfigs_of_not_answers hanswers]
      exact (removeTimeout_does s).bind_nil (.pure _ _)
    refine iff_of_true (countsRight_of_does hdoes hloaded.counted fun _ => rfl) ?_
    exact fun hresult hconfigs => absurd ⟨hresult, hconfigs⟩ hanswers

/-- **The selected configuration** has nothing to do with the counter. -/
theorem getSelectedConfig_countsRight (out : GetSelectedConfigOutput) (h : Loaded s) :
    CountsRight s (.getSelectedConfig out) := by
  by_cases hanswers : (PdcIndication.getSelectedConfig out).Answers
  · obtain ⟨s₁, hlist, hloaded, -, -, hcontinues⟩ := getSelectedConfig_continues hanswers s
    refine @countsRight_of_check s s₁ (.getSelectedConfig out) [] hcontinues
      (fun _ => List.not_mem_nil) id ⟨?_, ?_⟩
    · rw [Counted, PdcContext.described, hlist, hloaded]
      exact h.counted
    · rw [hlist]
      exact h.sized
  · have hdoes : Does PdcAccess.output? (PdcIndication.handle (.getSelectedConfig out)) s s []
        ⟨⟩ := by
      rw [getSelectedConfig_of_not_answers hanswers]
      exact .pure _ s
    exact countsRight_of_does hdoes h.counted fun _ => rfl

end Handle

/-! ### Details -/

section Details

variable {out : GetConfigInfoOutput} {token : UInt32} {config : ConfigInfo} {i : ℕ}

/-- Changing one element changes the count by that one. -/
theorem countP_modify_add {α : Type} (p : α → Bool) {l : List α} {a : α} (h : l[i]? = some a)
    (f : α → α) :
    (l.modify i f).countP p + (if p a then 1 else 0) = l.countP p + if p (f a) then 1 else 0 := by
  obtain ⟨hi, rfl⟩ := List.getElem?_eq_some_iff.1 h
  have hsplit : l = l.take i ++ l[i] :: l.drop (i + 1) := by
    rw [← List.drop_eq_getElem_cons hi, List.take_append_drop]
  have hcount := congrArg (List.countP p) hsplit
  rw [List.countP_append, List.countP_cons] at hcount
  rw [List.modify_eq_take_cons_drop hi, List.countP_append, List.countP_cons, hcount]
  omega

/-- An element that is changed to itself. -/
theorem modify_eq_iff {α : Type} {l : List α} {a : α} (h : l[i]? = some a) (f : α → α) :
    l.modify i f = l ↔ f a = a := by
  obtain ⟨hi, rfl⟩ := List.getElem?_eq_some_iff.1 h
  constructor
  · intro heq
    have hget := congrArg (fun l => l[i]?) heq
    simpa [hi] using hget
  · intro heq
    apply List.ext_getElem?
    intro j
    rw [List.getElem?_modify]
    by_cases hij : i = j
    · subst hij
      simp [hi, heq]
    · simp [hij]

/-- The search ends at the entry that it finds. -/
theorem currentConfig_of_find {configs : List ConfigInfo}
    (h : configs.find? (fun config => config.token = token) = some config) :
    ∃ i, currentConfig configs token = some i ∧ configs[i]? = some config := by
  rw [List.find?_eq_bind_findIdx?_getElem?] at h
  obtain ⟨i, hi, hget⟩ := Option.bind_eq_some_iff.1 h
  exact ⟨i, by rw [currentConfig, hi], hget⟩

/-- Without one, it ends at the last. -/
theorem currentConfig_of_find_eq_none {configs : List ConfigInfo}
    (h : configs.find? (fun config => config.token = token) = none) :
    currentConfig configs token =
      if configs.length = 0 then none else some (configs.length - 1) := by
  have hnone : configs.findIdx? (fun config => config.token = token) = none :=
    List.findIdx?_eq_none_iff.2 fun config hconfig =>
      Bool.eq_false_iff.2 (List.find?_eq_none.1 h config hconfig)
  rw [currentConfig, hnone]

theorem stored_of_complete (h : out.Complete) (config : ConfigInfo) :
    (out.stored config).description = out.description := by
  obtain ⟨totalSize, version, description, heq⟩ := h.exists_eq
  rw [heq]
  rfl

/-- Incomplete details bring no description. -/
theorem stored_of_not_complete (h : ¬ out.Complete) (config : ConfigInfo) :
    (out.stored config).description = config.description := by
  obtain ⟨result, token, _ | totalSize, _ | version, _ | description⟩ := out
  case some.some.some => exact absurd ⟨rfl, rfl, rfl⟩ h
  all_goals rfl

/-- Incomplete details stop before the check. -/
theorem storeDetails_does (h : ¬ out.Complete) (i : ℕ) (s : PdcContext) :
    Does PdcAccess.output? (storeDetails (some i) out) s
      { s with configList := s.configList.modify i out.stored } [] ⟨⟩ := by
  obtain ⟨result, token, _ | totalSize, _ | version, _ | description⟩ := out
  case some.some.some => exact absurd ⟨rfl, rfl, rfl⟩ h
  case some.some.none =>
    refine (updateEntry_does s _ _).bind_nil ((updateEntry_does _ _ _).bind_nil ?_)
    simp only [List.modify_modify_eq, Function.comp_def]
    exact .pure _ _
  case some.none.none => exact (updateEntry_does s _ _).bind_nil (.pure _ _)
  case some.none.some => exact (updateEntry_does s _ _).bind_nil (.pure _ _)
  all_goals
    show Does PdcAccess.output? _ s { s with configList := s.configList.modify i id } [] PUnit.unit
    rw [List.modify_id]
    exact .pure _ s

variable {s : PdcContext}

/-- The handler gets to the details. -/
theorem getConfigInfo_of_token {current : Option ℕ} (hresult : out.indicationResult = some 0)
    (htoken : out.token = some token) (hcurrent : currentConfig s.configList token = current) :
    Continues PdcAccess.output? (PdcIndication.handle (.getConfigInfo out)) s []
      (storeDetails current out) s := by
  rw [PdcIndication.handle, getConfigInfoReadyIndication, hresult, htoken, ← hcurrent]
  exact (readField_does s _ _).continues_nil (.refl _ _)

/-- What storing details does to the number of descriptions. -/
theorem described_stored (out : GetConfigInfoOutput) (hget : s.configList[i]? = some config) :
    (s.configList.modify i out.stored).countP (fun config => config.description.isSome) +
        (if config.description.isSome then 1 else 0) =
      s.described + if (out.stored config).description.isSome then 1 else 0 :=
  countP_modify_add _ hget out.stored

/-- Complete details count once if the entry had no description. -/
theorem counted_stored_iff (h : Loaded s) (hcomplete : out.Complete)
    (hget : s.configList[i]? = some config) :
    Counted { s with
      configList := s.configList.modify i out.stored
      configsLoaded := s.configsLoaded + 1 } ↔ config.description = none := by
  have hcount := described_stored out hget
  rw [stored_of_complete hcomplete, if_pos hcomplete.2.2, ← h.counted] at hcount
  have hle : (s.configList.modify i out.stored).countP (fun config => config.description.isSome) ≤
      s.configList.length := List.countP_le_length.trans_eq (List.length_modify _ _ _)
  have hsized := h.sized
  have hone : (s.configsLoaded + 1).toNat = (s.configsLoaded.toNat + 1) % 2 ^ 32 :=
    UInt32.toNat_add _ _
  unfold Counted PdcContext.described
  dsimp only
  rw [hone]
  cases hdescription : config.description with
  | none =>
    rw [hdescription, Option.isSome_none, if_neg Bool.false_ne_true] at hcount
    refine iff_of_true ?_ rfl
    omega
  | some description =>
    rw [hdescription, Option.isSome_some, if_pos rfl] at hcount
    refine iff_of_false ?_ (Option.some_ne_none description)
    omega

/-- Incomplete details are not counted. -/
theorem counted_stored (h : Loaded s) (hincomplete : ¬ out.Complete)
    (hget : s.configList[i]? = some config) :
    Counted { s with configList := s.configList.modify i out.stored } := by
  have hcount := described_stored out hget
  rw [stored_of_not_complete hincomplete, ← h.counted] at hcount
  exact (Nat.add_right_cancel hcount).symm

/-- **Details of an entry** leave the counter right if they are the first that are complete. -/
theorem known_countsRight_iff (h : Loaded s) (hresult : out.indicationResult = some 0)
    (htoken : out.token = some token)
    (hfind : s.configList.find? (fun config => config.token = token) = some config) :
    CountsRight s (.getConfigInfo out) ↔ (out.Complete → config.description = none) := by
  obtain ⟨i, hcurrent, hget⟩ := currentConfig_of_find hfind
  have hhandle := getConfigInfo_of_token hresult htoken hcurrent
  have hknown : ¬ (PdcIndication.getConfigInfo out).Unknown s := by
    rintro ⟨token', htoken', hnone⟩
    obtain rfl : token' = token := Option.some.inj (htoken'.symm.trans htoken)
    have hsome := List.find?_some hfind
    exact hnone config (List.mem_of_find?_eq_some hfind) (of_decide_eq_true hsome)
  by_cases hcomplete : out.Complete
  · have hcontinues := hhandle.trans (storeDetails_continues hcomplete i s)
    have hcounted := (counted_of_check hcontinues).trans (counted_stored_iff h hcomplete hget)
    constructor
    · intro hright _
      exact hcounted.1 hright.counted
    · intro hfits
      refine countsRight_of_check hcontinues (fun _ => List.not_mem_nil) hknown
        ⟨(counted_stored_iff h hcomplete hget).2 (hfits hcomplete), ?_⟩
      exact (List.length_modify _ _ _).trans_lt h.sized
  · have hdoes := hhandle.does (storeDetails_does hcomplete i s)
    exact iff_of_true (countsRight_of_does hdoes (counted_stored h hcomplete hget)
      fun hunknown => absurd hunknown hknown) fun hc => absurd hc hcomplete

/-- Incomplete details say nothing new. -/
theorem stored_eq_iff (hincomplete : ¬ out.Complete) {configs : List ConfigInfo}
    (hlast : configs.getLast? = some config) :
    out.stored config = config ↔ out.Spares configs := by
  obtain ⟨result, token, totalSize, version, description⟩ := out
  obtain ⟨id, configType, token', version', description', totalSize'⟩ := config
  unfold GetConfigInfoOutput.Spares
  rw [hlast]
  rcases totalSize with _ | totalSize
  · exact iff_of_true rfl (Or.inl rfl)
  rcases version with _ | version
  · simp [GetConfigInfoOutput.stored]
  rcases description with _ | description
  · simp [GetConfigInfoOutput.stored]
    tauto
  · exact absurd ⟨rfl, rfl, rfl⟩ hincomplete

/-- **Details with a token that no entry has**. -/
theorem unknown_countsRight_iff (h : Loaded s) (hresult : out.indicationResult = some 0)
    (htoken : out.token = some token)
    (hfind : s.configList.find? (fun config => config.token = token) = none) :
    CountsRight s (.getConfigInfo out) ↔ out.Spares s.configList := by
  have hunknown : (PdcIndication.getConfigInfo out).Unknown s :=
    ⟨token, htoken, fun config hconfig => by simpa using List.find?_eq_none.1 hfind config hconfig⟩
  have hcurrent := currentConfig_of_find_eq_none hfind
  rcases hlast : s.configList.getLast? with _ | config
  · -- an empty list: the details would be stored through a null pointer
    have hnil := List.getLast?_eq_none_iff.1 hlast
    rw [hnil, List.length_nil, if_pos rfl, ← hnil] at hcurrent
    have hhandle := getConfigInfo_of_token hresult htoken hcurrent
    unfold GetConfigInfoOutput.Spares
    rw [hlast]
    cases htotalSize : out.totalSize with
    | none =>
      rw [storeDetails, htotalSize] at hhandle
      exact iff_of_true (countsRight_of_does (hhandle.does (.pure _ s)) h.counted fun _ => rfl)
        (Or.inl rfl)
    | some totalSize =>
      refine iff_of_false (fun hright => ?_) (by simp)
      have hres := (hright.unknown hunknown).1
      rw [hhandle.res, storeDetails, htotalSize] at hres
      cases hres
  · have hget : s.configList[s.configList.length - 1]? = some config := by
      rw [← List.getLast?_eq_getElem?, hlast]
    have hlength : s.configList.length ≠ 0 := by
      intro hzero
      rw [List.length_eq_zero_iff.1 hzero] at hlast
      cases hlast
    rw [if_neg hlength] at hcurrent
    have hhandle := getConfigInfo_of_token hresult htoken hcurrent
    by_cases hcomplete : out.Complete
    · have hcontinues := hhandle.trans (storeDetails_continues hcomplete _ s)
      refine iff_of_false (fun hright => ?_) ?_
      · -- the entry is as it was, and counted again
        have hsame := (hright.unknown hunknown).2
        rw [hcontinues.state, keeps_check (g := PdcContext.configList) (fun _ _ => rfl)] at hsame
        have hdescribed := stored_of_complete hcomplete config
        rw [(modify_eq_iff hget _).1 hsame] at hdescribed
        have hnone := (counted_stored_iff h hcomplete hget).1
          ((counted_of_check hcontinues).1 hright.counted)
        have hsome := hcomplete.2.2
        rw [← hdescribed, hnone] at hsome
        cases hsome
      · rintro (hnone | ⟨-, -, -, hnone | ⟨-, hnone⟩⟩)
        · exact absurd hcomplete.1 (by simp [hnone])
        · exact absurd hcomplete.2.1 (by simp [hnone])
        · exact absurd hcomplete.2.2 (by simp [hnone])
    · have hdoes := hhandle.does (storeDetails_does hcomplete _ s)
      rw [← stored_eq_iff hcomplete hlast, ← modify_eq_iff hget]
      constructor
      · intro hright
        have := (hright.unknown hunknown).2
        rwa [hdoes.state] at this
      · intro hsame
        exact countsRight_of_does hdoes (counted_stored h hcomplete hget) fun _ => hsame

/-- **Details**, whatever they are. -/
theorem getConfigInfo_countsRight_iff (h : Loaded s) :
    CountsRight s (.getConfigInfo out) ↔ (PdcIndication.getConfigInfo out).FitsList s := by
  by_cases htaken : out.indicationResult = some 0 ∧ out.token.isSome
  · obtain ⟨hresult, htoken⟩ := htaken
    obtain ⟨token, htoken⟩ := Option.isSome_iff_exists.1 htoken
    have hfits : (PdcIndication.getConfigInfo out).FitsList s ↔
        match s.configList.find? fun config => config.token = token with
        | some config => out.Complete → config.description = none
        | none => out.Spares s.configList := by
      simp only [PdcIndication.FitsList, hresult, htoken, true_imp_iff, Option.mem_def,
        Option.some.injEq, forall_eq']
    rw [hfits]
    split
    · next config hfind => exact known_countsRight_iff h hresult htoken hfind
    · next hfind => exact unknown_countsRight_iff h hresult htoken hfind
  · have hhandle : PdcIndication.handle (.getConfigInfo out) = pure ⟨⟩ := by
      rw [PdcIndication.handle, getConfigInfoReadyIndication]
      split
      · next hresult htoken => exact absurd ⟨hresult, by rw [htoken]; rfl⟩ htaken
      · rfl
    have hdoes : Does PdcAccess.output? (PdcIndication.handle (.getConfigInfo out)) s s [] ⟨⟩ := by
      rw [hhandle]
      exact .pure _ s
    refine iff_of_true (countsRight_of_does hdoes h.counted fun _ => rfl) ?_
    intro hresult token htoken
    exact absurd ⟨hresult, by rw [Option.mem_def.1 htoken]; rfl⟩ htaken

end Details

/-! ### Runs -/

/-- An indication is handled to its end. -/
def Handles (s : PdcContext) (indication : PdcIndication) (s' : PdcContext) : Prop :=
  indication.Sized ∧ (indication.handle s).2.res = some ⟨⟩ ∧ s' = (indication.handle s).1

/-- The condition on the indications of a run. -/
def EachFits (_ : List PdcIndication) (s : PdcContext) (indication : PdcIndication) : Prop :=
  indication.FitsList s

/-- **The step**, after a list or with one. -/
theorem countsRight_iff_fitsList {s : PdcContext} {indication : PdcIndication}
    (hsized : indication.Sized) (h : Loaded s ∨ indication.Lists) :
    CountsRight s indication ↔ indication.FitsList s := by
  cases indication with
  | listConfigs out =>
    refine listConfigs_countsRight_iff hsized (h.imp_right ?_)
    rintro ⟨_, -, hanswers⟩
    exact hanswers
  | getSelectedConfig out =>
    have hloaded := h.resolve_right fun ⟨_, hlists, _⟩ => PdcIndication.noConfusion hlists
    exact iff_of_true (getSelectedConfig_countsRight out hloaded) trivial
  | getConfigInfo out =>
    have hloaded := h.resolve_right fun ⟨_, hlists, _⟩ => PdcIndication.noConfusion hlists
    exact getConfigInfo_countsRight_iff hloaded

/-- The number of entries. -/
def PdcContext.entries (s : PdcContext) : ℕ := s.configList.length

theorem keeps_entries_check : Keeps PdcContext.entries checkListConfigCompleted :=
  keeps_check fun _ _ => rfl

theorem keeps_entries_storeEntry (current : Option ℕ) (g : ConfigInfo → ConfigInfo) :
    Keeps PdcContext.entries (storeEntry current g) := by
  cases current with
  | none => exact .lift _
  | some i => exact (Keeps.emitAll _).bind fun _ => .modify fun s => List.length_modify _ _ _

theorem keeps_entries_storeDetails (current : Option ℕ) (out : GetConfigInfoOutput) :
    Keeps PdcContext.entries (storeDetails current out) := by
  obtain ⟨result, token, totalSize, version, description⟩ := out
  cases totalSize with
  | none => exact .pure _
  | some totalSize =>
    refine (keeps_entries_storeEntry _ _).bind fun _ => ?_
    cases version with
    | none => exact .pure _
    | some version =>
      refine (keeps_entries_storeEntry _ _).bind fun _ => ?_
      cases description with
      | none => exact .pure _
      | some description =>
        refine (keeps_entries_storeEntry _ _).bind fun _ => (keeps_readField _ _).bind fun _ => ?_
        exact .bind (keeps_writeField _ fun _ => rfl) fun _ => keeps_entries_check

/-- Only a list changes the number of entries. -/
theorem keeps_entries_handle {indication : PdcIndication} (h : ¬ indication.Lists) :
    Keeps PdcContext.entries indication.handle := by
  cases indication with
  | listConfigs out =>
    rw [listConfigs_of_not_answers fun hanswers => h ⟨out, rfl, hanswers⟩]
    refine Keeps.bind ((keeps_readField _ _).bind fun _ => ?_) fun _ => .pure _
    exact .ite (keeps_writeField _ fun _ => rfl) (.pure _)
  | getSelectedConfig out =>
    have hactive : Keeps PdcContext.entries (storeActiveId out.activeId) := by
      cases out.activeId with
      | none => exact .pure _
      | some id => exact keeps_writeField _ fun _ => rfl
    have hpending : Keeps PdcContext.entries (storePendingId out.pendingId) := by
      cases out.pendingId with
      | none => exact .pure _
      | some id => exact keeps_writeField _ fun _ => rfl
    rw [PdcIndication.handle, getSelectedConfigReadyIndication]
    refine .ite (hactive.bind fun _ => hpending.bind fun _ => ?_) (.pure _)
    exact .bind (keeps_writeField _ fun _ => rfl) fun _ => keeps_entries_check
  | getConfigInfo out =>
    rw [PdcIndication.handle, getConfigInfoReadyIndication]
    split
    · exact (keeps_readField _ _).bind fun _ => keeps_entries_storeDetails _ _
    · exact .pure _

/-- An indication that counts right leaves a list that is counted right. -/
theorem Loaded.of_countsRight {s s' : PdcContext} {indication : PdcIndication}
    (hs : Handles s indication s') (h : Loaded s ∨ indication.Lists)
    (hright : CountsRight s indication) : Loaded s' := by
  obtain ⟨hsized, -, rfl⟩ := hs
  refine ⟨hright.counted, ?_⟩
  by_cases hlists : indication.Lists
  · obtain ⟨⟨result, configs⟩, rfl, rfl, hconfigs⟩ := hlists
    obtain ⟨elements, rfl⟩ := Option.isSome_iff_exists.1 hconfigs
    have hcontinues := listing_continues elements s
    have hlist : ((listing elements).handle s).1.configList = bareList s.token elements :=
      (congrArg PdcContext.configList hcontinues.state).trans (keeps_check (fun _ _ => rfl) _)
    have hlength := congrArg List.length hlist
    rw [length_bareList] at hlength
    exact hlength.trans_lt (hsized elements rfl)
  · have hentries : (indication.handle s).1.configList.length = s.configList.length :=
      keeps_entries_handle hlists s
    exact hentries.trans_lt (h.resolve_right hlists).sized

/-- After a list, the counter is right in every run whose indications fit the list. -/
theorem loaded_of_run {indications : List PdcIndication} {s : PdcContext}
    (hr : Run (fun _ => True) Handles EachFits indications s)
    (hlisted : ∃ x ∈ indications, x.Lists) : Loaded s := by
  induction hr with
  | start => simp at hlisted
  | @snoc indications s s' indication _ hfits hs ih =>
    have hbefore : Loaded s ∨ indication.Lists := by
      obtain ⟨x, hx, hlists⟩ := hlisted
      rcases List.mem_append.1 hx with hx | hx
      · exact Or.inl (ih ⟨x, hx, hlists⟩)
      · rw [List.mem_singleton.1 hx] at hlists
        exact Or.inr hlists
    exact .of_countsRight hs hbefore ((countsRight_iff_fitsList hs.1 hbefore).2 hfits)

/-- **An indication counts right exactly when it fits the list**, after any run of indications that
do, from whatever the memory of the context held, as soon as there is a list. -/
theorem countsRight_iff {indications : List PdcIndication} {s : PdcContext}
    {indication : PdcIndication} (hr : Run (fun _ => True) Handles EachFits indications s)
    (hlisted : ∃ x ∈ indications ++ [indication], x.Lists) (hsized : indication.Sized) :
    CountsRight s indication ↔ EachFits indications s indication := by
  refine countsRight_iff_fitsList hsized ?_
  obtain ⟨x, hx, hlists⟩ := hlisted
  rcases List.mem_append.1 hx with hx | hx
  · exact Or.inl (loaded_of_run hr ⟨x, hx, hlists⟩)
  · rw [List.mem_singleton.1 hx] at hlists
    exact Or.inr hlists

/-- The details of one entry out of two. -/
def firstDetails : PdcIndication :=
  .getConfigInfo ⟨some 0, some 0, some 10, some 1, some "Volte_OpenMkt"⟩

/-- The context after a list of two entries. -/
def twoEntries : PdcContext := ((listing [⟨1, [0xaa]⟩, ⟨1, [0xbb]⟩]).handle (.fresh 0)).1

theorem twoEntries_run {G : List PdcIndication → PdcContext → PdcIndication → Prop}
    (h : G [] (.fresh 0) (listing [⟨1, [0xaa]⟩, ⟨1, [0xbb]⟩])) :
    Run (fun _ => True) Handles G [listing [⟨1, [0xaa]⟩, ⟨1, [0xbb]⟩]] twoEntries :=
  .snoc (.start trivial) h ⟨fun configs hconfigs => by cases hconfigs; decide, rfl, rfl⟩

/-- Details that come once. -/
theorem countsRight_firstDetails : CountsRight twoEntries firstDetails := by
  have hsized : firstDetails.Sized := trivial
  refine (countsRight_iff (twoEntries_run fun _ _ => rfl)
    ⟨_, List.mem_cons_self, _, rfl, rfl, rfl⟩ hsized).2 ?_
  rintro - token htoken
  cases htoken
  exact fun _ => rfl

/-- The ids have come, and the details of the first entry. -/
def oneTold : PdcContext :=
  (firstDetails.handle ((PdcIndication.getSelectedConfig ⟨some 0, none, none⟩).handle
    twoEntries).1).1

/-- The details of the first entry come again, and are counted for the second. -/
theorem not_countsRight : ¬ ∀ indications s indication,
    Run (fun _ => True) Handles unguarded indications s →
    (∃ x ∈ indications ++ [indication], PdcIndication.Lists x) → indication.Sized →
    CountsRight s indication := by
  intro hall
  have hsized : firstDetails.Sized := trivial
  have hselected : (PdcIndication.getSelectedConfig ⟨some 0, none, none⟩).Sized := trivial
  have hrun : Run (fun _ => True) Handles unguarded
      [listing [⟨1, [0xaa]⟩, ⟨1, [0xbb]⟩], .getSelectedConfig ⟨some 0, none, none⟩, firstDetails]
      oneTold :=
    .snoc (.snoc (twoEntries_run trivial) trivial ⟨hselected, rfl, rfl⟩) trivial
      ⟨hsized, rfl, rfl⟩
  have hright := hall _ _ firstDetails hrun ⟨_, List.mem_cons_self, _, rfl, rfl, rfl⟩ hsized
  have htwice := hright.counted
  revert htwice
  decide +kernel

end Imsd
