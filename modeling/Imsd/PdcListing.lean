import Imsd.PdcInit

/-!
# One listing, in any order

The list of the modem's configurations has come; now come the details of each entry and the
selected configuration, in any order.  An event is `some i`, the details of entry `i`, or `none`,
the selected configuration; an order is a permutation of them all.

`Seen` says what the context holds after some of the events: which entries have their details, how
many they are, and whether the selected configuration is there.  `handle_seen` is the step: the
list is printed by the last event (`complete_iff`), and by no other.  `print_configs_once` is the
whole run.
-/

namespace Imsd

open Exec

/-! ### What the primitives do -/

section Primitives

variable (s : PdcContext)

theorem readField_does {α : Type} (field : PdcField) (g : PdcContext → α) :
    Does PdcAccess.output? (readField field g) s s [] (g s) :=
  (Does.emitAll [PdcAccess.read field] s).bind_nil ((Does.get s).bind_nil (Does.pure _ s))

theorem writeField_does (field : PdcField) (g : PdcContext → PdcContext) :
    Does PdcAccess.output? (writeField field g) s (g s) [] ⟨⟩ :=
  (Does.emitAll [PdcAccess.write field] s).bind_nil (Does.modify g s)

theorem emit_does (o : PdcOutput) : Does PdcAccess.output? (emit o) s s [o] ⟨⟩ :=
  Does.emitAll [PdcAccess.out o] s

theorem nextToken_does :
    Does PdcAccess.output? nextToken s { s with token := s.token + 1 } [] s.token :=
  (readField_does s _ _).bind_nil ((writeField_does s _ _).bind_nil (Does.pure _ _))

theorem updateEntry_does (i : ℕ) (g : ConfigInfo → ConfigInfo) :
    Does PdcAccess.output? (updateEntry i g) s
      { s with configList := s.configList.modify i g } [] ⟨⟩ :=
  (Does.emitAll [PdcAccess.read .configList] s).bind_nil (Does.modify _ s)

end Primitives

/-! ### Printing a list -/

/-- The description is `ROW_Commercial`. -/
def ConfigInfo.isRowCommercial (config : ConfigInfo) : Bool :=
  config.description = some "ROW_Commercial"

/-- One set-selected-config request for every entry `ROW_Commercial`, with the tokens from
`token + k` on. -/
def selections (token : UInt32) (k : ℕ) (configs : List ConfigInfo) : List PdcOutput :=
  ((configs.filter ConfigInfo.isRowCommercial).zipIdx k).map fun (config, j) =>
    .setSelectedConfig 0x01 config.id (token + UInt32.ofNat j)

theorem statusString_does (id : List UInt8) (s : PdcContext) :
    ∃ status, Does PdcAccess.output? (statusString id) s s [] status := by
  by_cases hactive : s.activeConfigId = some id
  · refine ⟨"Active  ", (readField_does s _ _).bind_nil ?_⟩
    rw [if_pos hactive]
    exact Does.pure _ s
  · refine ⟨if s.pendingConfigId = some id then "Pending" else "Inactive",
      (readField_does s _ _).bind_nil ?_⟩
    rw [if_neg hactive]
    refine (readField_does s _ _).bind_nil ?_
    split_ifs
    · exact Does.pure _ s
    · exact Does.pure _ s

/-- The loop over a list all of whose entries have a description. -/
theorem printEach_does (token : UInt32) {configs : List ConfigInfo}
    (h : ∀ config ∈ configs, config.description.isSome) :
    ∀ {k : ℕ} {s : PdcContext}, s.token = token + UInt32.ofNat k →
      ∃ s', Does PdcAccess.output? (printEach configs) s s' (selections token k configs) ⟨⟩ ∧
        s'.configList = s.configList := by
  induction configs with
  | nil => exact fun {_ s} _ => ⟨s, Does.pure _ s, rfl⟩
  | cons config configs ih =>
    intro k s htoken
    obtain ⟨description, hdescription⟩ :=
      Option.isSome_iff_exists.1 (h config List.mem_cons_self)
    obtain ⟨status, hstatus⟩ := statusString_does config.id s
    have htail : ∀ {k : ℕ} {s : PdcContext}, s.token = token + UInt32.ofNat k →
        ∃ s', Does PdcAccess.output? (printEach configs) s s' (selections token k configs) ⟨⟩ ∧
          s'.configList = s.configList := ih fun x hx => h x (List.mem_cons_of_mem _ hx)
    have hselect : selectRowCommercial config =
        if description = "ROW_Commercial" then setSelectedConfig config else pure ⟨⟩ := by
      rw [selectRowCommercial, hdescription]
    by_cases hrow : description = "ROW_Commercial"
    · have hcons : selections token k (config :: configs) =
          [.setSelectedConfig 0x01 config.id s.token] ++ selections token (k + 1) configs := by
        simp [selections, ConfigInfo.isRowCommercial, hdescription, hrow, htoken]
      have hnext : s.token + 1 = token + UInt32.ofNat (k + 1) := by
        rw [htoken, UInt32.ofNat_add, UInt32.add_assoc]
        rfl
      obtain ⟨s', hs', hlist⟩ := htail (s := { s with token := s.token + 1 }) hnext
      refine ⟨s', hstatus.bind_nil ?_, hlist⟩
      rw [hcons, hselect, if_pos hrow]
      have hset : Does PdcAccess.output? (setSelectedConfig config) s
          { s with token := s.token + 1 } [.setSelectedConfig 0x01 config.id s.token] ⟨⟩ :=
        (nextToken_does s).bind_nil (emit_does _ _)
      exact hset.bind hs'
    · have hcons : selections token k (config :: configs) = selections token k configs := by
        simp [selections, ConfigInfo.isRowCommercial, hdescription, hrow]
      obtain ⟨s', hs', hlist⟩ := htail htoken
      refine ⟨s', hstatus.bind_nil ?_, hlist⟩
      rw [hcons, hselect, if_neg hrow]
      exact (Does.pure _ s).bind_nil hs'

/-- The request selects an entry `ROW_Commercial`. -/
def PdcOutput.Selects (configs : List ConfigInfo) (o : PdcOutput) : Prop :=
  ∃ config ∈ configs, config.isRowCommercial = true ∧
    ∃ token, o = .setSelectedConfig 0x01 config.id token

/-- Whether or not the loop over a list ends, it makes no other requests. -/
theorem logs_printEach (configs : List ConfigInfo) :
    Logs (fun e => ∀ o ∈ e.output?, o.Selects configs) (printEach configs) := by
  induction configs with
  | nil => exact .pure _
  | cons config configs ih =>
    have hstatus : Logs (fun e => ∀ o ∈ e.output?, o.Selects (config :: configs))
        (statusString config.id) :=
      (logs_readField (by simp [PdcAccess.output?]) _).bind fun _ => .ite (.pure _)
        ((logs_readField (by simp [PdcAccess.output?]) _).bind fun _ => .ite (.pure _) (.pure _))
    have hselect : Logs (fun e => ∀ o ∈ e.output?, o.Selects (config :: configs))
        (selectRowCommercial config) := by
      unfold selectRowCommercial
      split
      · exact .lift (by simp)
      · next description hdescription =>
        split_ifs with hrow
        · refine (logs_nextToken (by simp [PdcAccess.output?]) (by simp [PdcAccess.output?])).bind
            fun token => logs_emit fun o ho => ?_
          cases ho
          have hcommercial : config.isRowCommercial = true := by
            rw [ConfigInfo.isRowCommercial, hdescription, hrow]
            exact decide_eq_true rfl
          exact ⟨config, List.mem_cons_self, hcommercial, token, rfl⟩
        · exact .pure _
    refine hstatus.bind fun _ => hselect.bind fun _ => ih.mono fun e he o ho => ?_
    obtain ⟨config', hconfig', h⟩ := he o ho
    exact ⟨config', List.mem_cons_of_mem _ hconfig', h⟩

/-- The check of a list that is not complete. -/
theorem check_does_nothing {s : PdcContext}
    (h : ¬ (s.configsLoaded = UInt32.ofNat s.configList.length ∧ s.idsLoaded = true)) :
    Does PdcAccess.output? checkListConfigCompleted s s [] ⟨⟩ := by
  refine (readField_does s _ _).bind_nil ((readField_does s _ _).bind_nil ?_)
  split_ifs with hloaded
  · refine (readField_does s _ _).bind_nil ?_
    rw [if_neg fun hids => h ⟨hloaded, hids⟩]
    exact Does.pure _ s
  · exact Does.pure _ s

theorem printConfigs_continues (s : PdcContext) :
    Continues PdcAccess.output? printConfigs s [.printConfigs s.configList]
      (printEach s.configList) s :=
  (readField_does s _ _).continues_nil ((emit_does s _).continues (.refl _ _))

/-- The check of a complete list prints it. -/
theorem check_continues {s : PdcContext}
    (hloaded : s.configsLoaded = UInt32.ofNat s.configList.length) (hids : s.idsLoaded = true) :
    Continues PdcAccess.output? checkListConfigCompleted s [.printConfigs s.configList]
      (printEach s.configList) s := by
  refine (readField_does s _ _).continues_nil ((readField_does s _ _).continues_nil ?_)
  rw [if_pos hloaded]
  refine (readField_does s _ _).continues_nil ?_
  rw [if_pos hids]
  exact printConfigs_continues s

/-- It gets to the end of the list if all the entries have a description. -/
theorem check_does_print {s : PdcContext}
    (hloaded : s.configsLoaded = UInt32.ofNat s.configList.length) (hids : s.idsLoaded = true)
    (h : ∀ config ∈ s.configList, config.description.isSome) :
    ∃ s', Does PdcAccess.output? checkListConfigCompleted s s'
        (.printConfigs s.configList :: selections s.token 0 s.configList) ⟨⟩ ∧
      s'.configList = s.configList := by
  obtain ⟨s', hs', hlist⟩ := printEach_does s.token h (k := 0) (s := s) (by simp)
  exact ⟨s', (check_continues hloaded hids).does hs', hlist⟩

/-! ### Storing details -/

/-- What an entry becomes by an indication of its details. -/
def GetConfigInfoOutput.stored (out : GetConfigInfoOutput) (config : ConfigInfo) : ConfigInfo :=
  match out.totalSize, out.version, out.description with
  | none, _, _ => config
  | some totalSize, none, _ => { config with totalSize }
  | some totalSize, some version, none => { config with totalSize, version }
  | some totalSize, some version, some description =>
    { config with totalSize, version, description := some description }

/-- All the details are there. -/
def GetConfigInfoOutput.Complete (out : GetConfigInfoOutput) : Prop :=
  out.totalSize.isSome ∧ out.version.isSome ∧ out.description.isSome

theorem GetConfigInfoOutput.Complete.exists_eq {out : GetConfigInfoOutput} (h : out.Complete) :
    ∃ totalSize version description, out = ⟨out.indicationResult, out.token, some totalSize,
      some version, some description⟩ := by
  obtain ⟨result, token, totalSize, version, description⟩ := out
  obtain ⟨htotalSize, hversion, hdescription⟩ := h
  obtain ⟨totalSize, rfl⟩ := Option.isSome_iff_exists.1 htotalSize
  obtain ⟨version, rfl⟩ := Option.isSome_iff_exists.1 hversion
  obtain ⟨description, rfl⟩ := Option.isSome_iff_exists.1 hdescription
  exact ⟨totalSize, version, description, rfl⟩

/-- The details of an entry end in the check. -/
theorem storeDetails_continues {out : GetConfigInfoOutput} (h : out.Complete) (i : ℕ)
    (s : PdcContext) :
    Continues PdcAccess.output? (storeDetails (some i) out) s [] checkListConfigCompleted
      { s with
        configList := s.configList.modify i out.stored
        configsLoaded := s.configsLoaded + 1 } := by
  obtain ⟨totalSize, version, description, heq⟩ := h.exists_eq
  rw [heq]
  refine (updateEntry_does s _ _).continues_nil ((updateEntry_does _ _ _).continues_nil
    ((updateEntry_does _ _ _).continues_nil ((readField_does _ _ _).continues_nil
    ((writeField_does _ _ _).continues_nil ?_))))
  simp only [List.modify_modify_eq, Function.comp_def]
  exact .refl _ _

/-- The selected configuration ends in the check. -/
theorem getSelectedConfig_continues {out : GetSelectedConfigOutput}
    (hresult : (PdcIndication.getSelectedConfig out).Answers) (s : PdcContext) :
    ∃ s₁ : PdcContext, s₁.configList = s.configList ∧ s₁.configsLoaded = s.configsLoaded ∧
      s₁.idsLoaded = true ∧ s₁.token = s.token ∧
      Continues PdcAccess.output? (getSelectedConfigReadyIndication out) s []
        checkListConfigCompleted s₁ := by
  obtain ⟨s₁, hactive, hlist₁, hloaded₁, htoken₁⟩ : ∃ s₁ : PdcContext,
      Does PdcAccess.output? (storeActiveId out.activeId) s s₁ [] ⟨⟩ ∧
        s₁.configList = s.configList ∧ s₁.configsLoaded = s.configsLoaded ∧
        s₁.token = s.token := by
    cases out.activeId with
    | none => exact ⟨s, Does.pure _ s, rfl, rfl, rfl⟩
    | some id => exact ⟨_, writeField_does s _ _, rfl, rfl, rfl⟩
  obtain ⟨s₂, hpending, hlist₂, hloaded₂, htoken₂⟩ : ∃ s₂ : PdcContext,
      Does PdcAccess.output? (storePendingId out.pendingId) s₁ s₂ [] ⟨⟩ ∧
        s₂.configList = s₁.configList ∧ s₂.configsLoaded = s₁.configsLoaded ∧
        s₂.token = s₁.token := by
    cases out.pendingId with
    | none => exact ⟨s₁, Does.pure _ s₁, rfl, rfl, rfl⟩
    | some id => exact ⟨_, writeField_does s₁ _ _, rfl, rfl, rfl⟩
  refine ⟨{ s₂ with idsLoaded := true }, hlist₂.trans hlist₁, hloaded₂.trans hloaded₁, rfl,
    htoken₂.trans htoken₁, ?_⟩
  have hif : out.indicationResult = some 0 ∨
      out.indicationResult = some qmiProtocolErrorNotProvisioned := hresult
  rw [getSelectedConfigReadyIndication, if_pos hif]
  exact hactive.continues_nil (hpending.continues_nil
    ((writeField_does s₂ _ _).continues_nil (.refl _ _)))

/-! ### The entries and their tokens -/

/-- The details of a configuration. -/
structure ConfigDetails where
  totalSize : UInt32
  version : UInt32
  description : String

/-- An entry whose details have been asked for. -/
def ConfigsElement.bare (element : ConfigsElement) (token : UInt32) : ConfigInfo :=
  ⟨element.id, element.configType, token, 0, none, 0⟩

/-- An entry whose details have come. -/
def ConfigsElement.full (element : ConfigsElement) (token : UInt32) (details : ConfigDetails) :
    ConfigInfo :=
  ⟨element.id, element.configType, token, details.version, some details.description,
    details.totalSize⟩

/-- The list as its requests leave it. -/
def bareList (token : UInt32) (elements : List ConfigsElement) : List ConfigInfo :=
  List.ofFn fun i : Fin elements.length => elements[i].bare (token + UInt32.ofNat i)

/-- The requests for the details. -/
def infoRequests (token : UInt32) (elements : List ConfigsElement) : List PdcOutput :=
  List.ofFn fun i : Fin elements.length =>
    .getConfigInfo elements[i].configType elements[i].id (token + UInt32.ofNat i)

theorem token_succ (token : UInt32) (i : ℕ) :
    token + (UInt32.ofNat i + 1) = token + 1 + UInt32.ofNat i := by
  rw [UInt32.add_comm (UInt32.ofNat i), UInt32.add_assoc]

theorem bareList_cons (token : UInt32) (element : ConfigsElement)
    (elements : List ConfigsElement) :
    bareList token (element :: elements) = element.bare token :: bareList (token + 1) elements := by
  simp [bareList, List.ofFn_succ, token_succ]

theorem infoRequests_cons (token : UInt32) (element : ConfigsElement)
    (elements : List ConfigsElement) :
    infoRequests token (element :: elements) =
      [.getConfigInfo element.configType element.id token] ++
        infoRequests (token + 1) elements := by
  simp [infoRequests, List.ofFn_succ, token_succ]

/-- The loop over the configurations; `pre` are the entries already filled. -/
theorem requestInfos_does (elements : List ConfigsElement) :
    ∀ {pre : List ConfigInfo} {s : PdcContext},
      s.configList = pre ++ List.replicate elements.length ConfigInfo.zero →
      Does PdcAccess.output? (requestInfos pre.length elements) s
        { s with
          token := s.token + UInt32.ofNat elements.length
          configList := pre ++ bareList s.token elements }
        (infoRequests s.token elements) ⟨⟩ := by
  induction elements with
  | nil =>
    intro pre s hlist
    have hs : { s with
        token := s.token + UInt32.ofNat ([] : List ConfigsElement).length
        configList := pre ++ bareList s.token [] } = s := by
      cases s
      simp_all [bareList]
    rw [hs]
    exact Does.pure _ s
  | cons element elements ih =>
    intro pre s hlist
    have hmodify : (s.configList.modify pre.length fun config =>
        { config with token := s.token, id := element.id, configType := element.configType }) =
        (pre ++ [element.bare s.token]) ++ List.replicate elements.length ConfigInfo.zero := by
      rw [hlist, List.length_cons, List.replicate_succ, List.modify_eq_take_cons_drop (by simp)]
      simp [ConfigsElement.bare, ConfigInfo.zero]
    let s₁ : PdcContext := { s with
      token := s.token + 1
      configList := pre ++ [element.bare s.token] ++
        List.replicate elements.length ConfigInfo.zero }
    have hend : s.token + UInt32.ofNat (element :: elements).length =
        s₁.token + UInt32.ofNat elements.length := by
      rw [List.length_cons, UInt32.ofNat_add, ← token_succ]
      rfl
    have htail := @ih (pre ++ [element.bare s.token]) s₁ rfl
    rw [List.length_append, List.length_singleton, List.append_assoc, List.singleton_append,
      ← bareList_cons, ← hend] at htail
    rw [infoRequests_cons]
    refine (nextToken_does s).bind_nil ((updateEntry_does _ _ _).bind_nil ?_)
    dsimp only
    rw [hmodify]
    exact (emit_does s₁ _).bind htail

/-! ### The events -/

section Listing

variable {elements : List ConfigsElement} (details : Fin elements.length → ConfigDetails)
  (selected : GetSelectedConfigOutput) (token : UInt32)

/-- The details of entry `i`, with the token of its request, or the selected configuration. -/
def listingEvent : Option (Fin elements.length) → PdcIndication
  | none => .getSelectedConfig selected
  | some i => .getConfigInfo
      ⟨some 0, some (token + UInt32.ofNat i), some (details i).totalSize,
        some (details i).version, some (details i).description⟩

/-- The list when the details of the entries `known` have come. -/
def knownList (known : Finset (Option (Fin elements.length))) : List ConfigInfo :=
  List.ofFn fun i : Fin elements.length =>
    if some i ∈ known then elements[i].full (token + UInt32.ofNat i) (details i)
    else elements[i].bare (token + UInt32.ofNat i)

/-- The complete list. -/
def fullList : List ConfigInfo :=
  List.ofFn fun i : Fin elements.length => elements[i].full (token + UInt32.ofNat i) (details i)

/-- What the context holds after the events `known`. -/
structure Seen (known : Finset (Option (Fin elements.length))) (s : PdcContext) : Prop where
  list : s.configList = knownList details token known
  loaded : s.configsLoaded = UInt32.ofNat known.eraseNone.card
  ids : s.idsLoaded = decide (none ∈ known)
  token : s.token = token + UInt32.ofNat elements.length

variable {details selected token} {known : Finset (Option (Fin elements.length))} {s : PdcContext}

theorem knownList_univ : knownList details token Finset.univ = fullList details token := by
  simp [knownList, fullList]

theorem knownList_empty :
    knownList details token ∅ = bareList token elements := by
  simp [knownList, bareList]

theorem ofNat_inj_of_lt {a b : ℕ} (ha : a < 2 ^ 32) (hb : b < 2 ^ 32) :
    UInt32.ofNat a = UInt32.ofNat b ↔ a = b := by
  refine ⟨fun h => ?_, fun h => by rw [h]⟩
  have hmod := congrArg UInt32.toNat h
  rwa [UInt32.toNat_ofNat_of_lt' ha, UInt32.toNat_ofNat_of_lt' hb] at hmod

/-- **The counter and the flag together say whether all the events have come.** -/
theorem complete_iff (hn : elements.length < 2 ^ 32) :
    (UInt32.ofNat known.eraseNone.card = UInt32.ofNat elements.length ∧ none ∈ known) ↔
      known = Finset.univ := by
  have hle : known.eraseNone.card ≤ elements.length := by
    simpa using Finset.card_le_univ known.eraseNone
  rw [ofNat_inj_of_lt (by omega) hn]
  have hcard : known.eraseNone.card = elements.length ↔ known.eraseNone = Finset.univ := by
    simpa using Finset.card_eq_iff_eq_univ known.eraseNone
  rw [hcard]
  constructor
  · rintro ⟨hall, hnone⟩
    ext x
    cases x with
    | none => simpa using hnone
    | some i => simpa [hall] using Finset.mem_eraseNone (s := known) (x := i)
  · rintro rfl
    refine ⟨?_, Finset.mem_univ _⟩
    ext i
    simp

theorem Seen.length (h : Seen details token known s) : s.configList.length = elements.length := by
  simp [h.list, knownList]

/-- An incomplete list is not printed. -/
theorem Seen.check_does_nothing (hn : elements.length < 2 ^ 32) (h : Seen details token known s)
    (hknown : known ≠ Finset.univ) :
    Does PdcAccess.output? checkListConfigCompleted s s [] ⟨⟩ := by
  apply Imsd.check_does_nothing
  rw [h.length, h.loaded, h.ids]
  rintro ⟨hloaded, hids⟩
  exact hknown ((complete_iff hn).1 ⟨hloaded, of_decide_eq_true hids⟩)

/-- The complete list is printed. -/
theorem Seen.check_does_print (hn : elements.length < 2 ^ 32)
    (h : Seen details token Finset.univ s) :
    ∃ s', Does PdcAccess.output? checkListConfigCompleted s s'
        (.printConfigs (fullList details token) ::
          selections (token + UInt32.ofNat elements.length) 0 (fullList details token)) ⟨⟩ ∧
      s'.configList = fullList details token := by
  have hlist : s.configList = fullList details token := h.list.trans knownList_univ
  obtain ⟨hloaded, -⟩ := (complete_iff hn).2 (rfl : (Finset.univ : Finset _) = Finset.univ)
  obtain ⟨s', hs', hlist'⟩ := Imsd.check_does_print (s := s)
    (by rw [h.loaded, h.length]; exact hloaded) (by simp [h.ids])
    (by rw [hlist]; simp [fullList, ConfigsElement.full])
  rw [hlist, h.token] at hs'
  exact ⟨s', hs', hlist'.trans hlist⟩

/-! ### One event -/

/-- The tokens of the entries differ. -/
theorem token_inj (hn : elements.length < 2 ^ 32) {i j : Fin elements.length}
    (h : token + UInt32.ofNat i = token + UInt32.ofNat j) : i = j := by
  have hnat : UInt32.ofNat i = UInt32.ofNat j := by
    rwa [UInt32.add_right_inj] at h
  exact Fin.ext ((ofNat_inj_of_lt (i.2.trans hn) (j.2.trans hn)).1 hnat)

/-- The search for a token that was issued ends at its entry. -/
theorem currentConfig_knownList (hn : elements.length < 2 ^ 32) (i : Fin elements.length) :
    currentConfig (knownList details token known) (token + UInt32.ofNat i) = some ↑i := by
  have htoken : ∀ j (hj : j < (knownList details token known).length),
      (knownList details token known)[j].token =
        token + UInt32.ofNat (⟨j, by simpa [knownList] using hj⟩ : Fin elements.length) := by
    intro j hj
    simp only [knownList, List.getElem_ofFn]
    split_ifs <;> rfl
  have hfind : (knownList details token known).findIdx?
      (fun config => config.token = token + UInt32.ofNat i) = some ↑i := by
    rw [List.findIdx?_eq_some_iff_getElem]
    refine ⟨by simp [knownList], by simpa using htoken i _, fun j hj => ?_⟩
    rw [decide_eq_true_eq, htoken]
    intro heq
    have hij := token_inj hn heq
    rw [← hij] at hj
    exact absurd hj (lt_irrefl _)
  rw [currentConfig, hfind]

/-- Storing the details of an entry. -/
theorem modify_knownList (i : Fin elements.length) (hi : some i ∉ known) :
    (knownList details token known).modify i (fun config =>
      { config with
        totalSize := (details i).totalSize
        version := (details i).version
        description := some (details i).description }) =
      knownList details token (insert (some i) known) := by
  apply List.ext_getElem
  · simp [knownList]
  · intro j hj _
    rw [List.getElem_modify]
    simp only [knownList, List.getElem_ofFn]
    by_cases hij : ↑i = j
    · subst hij
      simp [hi, ConfigsElement.bare, ConfigsElement.full]
    · have hne : (⟨j, by simpa [knownList] using hj⟩ : Fin elements.length) ≠ i :=
        fun h => hij (congrArg Fin.val h.symm)
      simp [hij, hne]

/-- **The step**: an event that has not come before adds itself to those seen, and ends in the
check. -/
theorem Seen.handle (hn : elements.length < 2 ^ 32)
    (hselected : (PdcIndication.getSelectedConfig selected).Answers)
    (h : Seen details token known s) {x : Option (Fin elements.length)} (hx : x ∉ known) :
    ∃ s₁, Seen details token (insert x known) s₁ ∧
      ∀ {s' out}, Does PdcAccess.output? checkListConfigCompleted s₁ s' out ⟨⟩ →
        Does PdcAccess.output? (listingEvent details selected token x).handle s s' out ⟨⟩ := by
  cases x with
  | none =>
    obtain ⟨s₁, hlist, hloaded, hids, htoken, hcontinues⟩ :=
      getSelectedConfig_continues hselected s
    have hknown : knownList details token (insert none known) = knownList details token known := by
      simp [knownList]
    have hcard : (insert none known).eraseNone = known.eraseNone := by
      ext i
      simp
    refine ⟨s₁, ⟨?_, ?_, ?_, ?_⟩, fun hcheck => hcontinues.does hcheck⟩
    · rw [hlist, h.list, hknown]
    · rw [hloaded, h.loaded, hcard]
    · simp [hids]
    · rw [htoken, h.token]
  | some i =>
    have hcard : (insert (some i) known).eraseNone = insert i known.eraseNone := by
      ext j
      simp
    have hcurrent : currentConfig s.configList (token + UInt32.ofNat i) = some ↑i := by
      rw [h.list]
      exact currentConfig_knownList hn i
    have hcomplete : GetConfigInfoOutput.Complete ⟨some 0, some (token + UInt32.ofNat i),
        some (details i).totalSize, some (details i).version, some (details i).description⟩ :=
      ⟨rfl, rfl, rfl⟩
    have hcontinues := storeDetails_continues hcomplete ↑i s
    rw [← hcurrent] at hcontinues
    refine ⟨_, ⟨?_, ?_, ?_, ?_⟩, fun hcheck =>
      (readField_does s _ _).bind_nil (hcontinues.does hcheck)⟩
    · dsimp only
      rw [h.list]
      exact modify_knownList i hx
    · dsimp only
      rw [h.loaded, hcard, Finset.card_insert_of_notMem (by simpa using hx), UInt32.ofNat_add]
      rfl
    · simpa using h.ids
    · exact h.token

/-! ### The run -/

/-- As long as an event is missing, nothing is printed. -/
theorem Seen.handleAll (hn : elements.length < 2 ^ 32)
    (hselected : (PdcIndication.getSelectedConfig selected).Answers)
    (events : List (Option (Fin elements.length))) :
    ∀ {known : Finset (Option (Fin elements.length))} {s : PdcContext},
      Seen details token known s → events.Nodup → (∀ x ∈ events, x ∉ known) →
      known ∪ events.toFinset ≠ Finset.univ →
      ∃ s', Seen details token (known ∪ events.toFinset) s' ∧
        Does PdcAccess.output? (Imsd.handleAll (events.map (listingEvent details selected token)))
          s s' [] ⟨⟩ := by
  induction events with
  | nil =>
    intro known s h _ _ _
    exact ⟨s, by simpa using h, Does.pure _ s⟩
  | cons x events ih =>
    intro known s h hnodup hfresh hmissing
    obtain ⟨hx, hnodup⟩ := List.nodup_cons.1 hnodup
    have hunion : insert x known ∪ events.toFinset = known ∪ (x :: events).toFinset := by
      ext y
      simp
    obtain ⟨s₁, hseen, hdoes⟩ := h.handle hn hselected (hfresh x List.mem_cons_self)
    have hincomplete : insert x known ≠ Finset.univ := by
      intro huniv
      apply hmissing
      rw [← hunion, huniv]
      simp
    obtain ⟨s', hseen', hdoes'⟩ := ih hseen hnodup (fun y hy hmem => by
      rcases Finset.mem_insert.1 hmem with rfl | hmem
      · exact hx hy
      · exact hfresh y (List.mem_cons_of_mem _ hy) hmem) (by rwa [hunion])
    rw [hunion] at hseen'
    exact ⟨s', hseen', (hdoes (hseen.check_does_nothing hn hincomplete)).bind hdoes'⟩

end Listing

/-- A cleared context, but for the token. -/
def PdcContext.fresh (token : UInt32) : PdcContext := ⟨0, [], 0, none, none, false, token⟩

/-- The list-configs indication. -/
def listing (elements : List ConfigsElement) : PdcIndication :=
  .listConfigs ⟨some 0, some elements⟩

theorem removeTimeout_does (s : PdcContext) :
    Does PdcAccess.output? removeTimeout s { s with timeoutId := 0 } [] ⟨⟩ := by
  refine (readField_does s _ _).bind_nil ?_
  split_ifs with h
  · exact writeField_does s _ _
  · have hs : { s with timeoutId := 0 } = s := by
      cases s
      simpa using (not_not.1 h).symm
    rw [hs]
    exact Does.pure _ s

/-- A list-configs indication ends in the check. -/
theorem listing_continues (elements : List ConfigsElement) (s : PdcContext) :
    Continues PdcAccess.output? (listing elements).handle s (infoRequests s.token elements)
      checkListConfigCompleted
      { s with
        timeoutId := 0
        configList := bareList s.token elements
        token := s.token + UInt32.ofNat elements.length } := by
  have hrequests := @requestInfos_does elements [] { s with
    timeoutId := 0, configList := List.replicate elements.length ConfigInfo.zero } rfl
  rw [← List.append_nil (infoRequests s.token elements)]
  exact (removeTimeout_does s).continues_nil ((writeField_does _ _ _).continues_nil
    (hrequests.continues (.refl _ _)))

section Run

variable {elements : List ConfigsElement} {details : Fin elements.length → ConfigDetails}
  {selected : GetSelectedConfigOutput}

variable (details) in
/-- The run up to the list-configs indication, after which none of the events has come. -/
theorem listing_seen (hn : elements.length < 2 ^ 32) (timeoutId token : UInt32) :
    ∃ s s', Seen details (token + 2) ∅ s' ∧
      Does PdcAccess.output? (runListConfigs timeoutId) (.fresh token) s
        [.listConfigs 0x01 token, .getSelectedConfig 0x01 (token + 1)] ⟨⟩ ∧
      Does PdcAccess.output? (listing elements).handle s s' (infoRequests (token + 2) elements)
        ⟨⟩ := by
  have hstart : Does PdcAccess.output? (runListConfigs timeoutId) (.fresh token)
      ⟨timeoutId, [], 0, none, none, false, token + 1 + 1⟩
      [.listConfigs 0x01 token, .getSelectedConfig 0x01 (token + 1)] ⟨⟩ :=
    (nextToken_does _).bind_nil ((nextToken_does _).bind_nil ((writeField_does _ _ _).bind_nil
      ((emit_does _ _).bind (emit_does _ _))))
  have htoken : token + 1 + 1 = token + 2 := by
    rw [UInt32.add_assoc]
    rfl
  rw [htoken] at hstart
  have hseen : Seen details (token + 2) ∅
      ⟨0, bareList (token + 2) elements, 0, none, none, false,
        token + 2 + UInt32.ofNat elements.length⟩ :=
    ⟨knownList_empty.symm, by simp, by simp, rfl⟩
  have hincomplete : (∅ : Finset (Option (Fin elements.length))) ≠ Finset.univ := fun h =>
    absurd (h ▸ Finset.mem_univ none) (Finset.notMem_empty none)
  have hdoes := (listing_continues elements ⟨timeoutId, [], 0, none, none, false, token + 2⟩).does
    (hseen.check_does_nothing hn hincomplete)
  rw [List.append_nil] at hdoes
  exact ⟨_, _, hseen, hstart, hdoes⟩

/-- **A listing is printed once, by its last event, and in any order the same.**  The events are
the details of every entry and the selected configuration, in any order; until the last of them
only the requests go out. -/
theorem print_configs_once (hn : elements.length < 2 ^ 32)
    (hselected : (PdcIndication.getSelectedConfig selected).Answers)
    {events : List (Option (Fin elements.length))} {last : Option (Fin elements.length)}
    (horder : (events ++ [last]).Perm (none :: (List.finRange elements.length).map some))
    (timeoutId token : UInt32) :
    ∃ s s',
      Does PdcAccess.output? (pdcStart timeoutId
          (listing elements :: events.map (listingEvent details selected (token + 2))))
        (.fresh token) s
        (.listConfigs 0x01 token :: .getSelectedConfig 0x01 (token + 1) ::
          infoRequests (token + 2) elements) ⟨⟩ ∧
      Does PdcAccess.output? (listingEvent details selected (token + 2) last).handle s s'
        (.printConfigs (fullList details (token + 2)) ::
          selections (token + 2 + UInt32.ofNat elements.length) 0 (fullList details (token + 2)))
        ⟨⟩ ∧
      s'.configList = fullList details (token + 2) := by
  have hnodup : (events ++ [last]).Nodup := by
    rw [horder.nodup_iff]
    simpa [List.nodup_map_iff (Option.some_injective _)] using List.nodup_finRange _
  have hall : ∀ x, x ∈ events ++ [last] := by
    intro x
    rw [horder.mem_iff]
    cases x <;> simp
  obtain ⟨hevents, -, hlast⟩ := List.nodup_append.1 hnodup
  have hmissing : last ∉ events := fun hmem => hlast last hmem last List.mem_cons_self rfl
  obtain ⟨s₀, s₁, hseen, hstart, hlisting⟩ := listing_seen details hn timeoutId token
  obtain ⟨s₂, hseen₂, hdoes₂⟩ := hseen.handleAll hn hselected events hevents
    (fun x _ => Finset.notMem_empty x) fun huniv => by
      have hmem := Finset.mem_univ last
      rw [← huniv] at hmem
      exact hmissing (by simpa using hmem)
  obtain ⟨s₃, hseen₃, hdoes₃⟩ := hseen₂.handle hn hselected (x := last) (by simpa using hmissing)
  have huniv : insert last (∅ ∪ events.toFinset) = Finset.univ := by
    ext x
    simpa [or_comm] using hall x
  rw [huniv] at hseen₃
  obtain ⟨s', hcheck, hlist⟩ := hseen₃.check_does_print hn
  refine ⟨s₂, s', ?_, hdoes₃ hcheck, hlist⟩
  have hdoes := hstart.bind (f := fun _ => Imsd.handleAll (listing elements :: events.map _))
    (hlisting.bind hdoes₂)
  rw [List.append_nil] at hdoes
  exact hdoes

end Run

/-- Two configurations, whose details come in the wrong order, around the selected one; the token
wraps on the way. -/
theorem print_configs_once_two :
    ∃ s s',
      Does PdcAccess.output? (pdcStart 7
          (listing [⟨1, [0xaa]⟩, ⟨1, [0xbb]⟩] ::
            [.getConfigInfo ⟨some 0, some 0, some 20, some 2, some "ROW_Commercial"⟩,
              .getSelectedConfig ⟨some 16, none, none⟩]))
        (.fresh 0xfffffffd) s
        [.listConfigs 1 0xfffffffd, .getSelectedConfig 1 0xfffffffe,
          .getConfigInfo 1 [0xaa] 0xffffffff, .getConfigInfo 1 [0xbb] 0] ⟨⟩ ∧
      Does PdcAccess.output? (PdcIndication.getConfigInfo
          ⟨some 0, some 0xffffffff, some 10, some 1, some "Volte_OpenMkt"⟩).handle s s'
        [.printConfigs
            [⟨[0xaa], 1, 0xffffffff, 1, some "Volte_OpenMkt", 10⟩,
              ⟨[0xbb], 1, 0, 2, some "ROW_Commercial", 20⟩],
          .setSelectedConfig 1 [0xbb] 1] ⟨⟩ ∧
      s'.configList = [⟨[0xaa], 1, 0xffffffff, 1, some "Volte_OpenMkt", 10⟩,
        ⟨[0xbb], 1, 0, 2, some "ROW_Commercial", 20⟩] :=
  @print_configs_once [⟨1, [0xaa]⟩, ⟨1, [0xbb]⟩]
    ![⟨10, 1, "Volte_OpenMkt"⟩, ⟨20, 2, "ROW_Commercial"⟩] ⟨some 16, none, none⟩ (by decide)
    (Or.inr rfl) [some 1, none] (some 0) (by decide) 7 0xfffffffd

end Imsd
