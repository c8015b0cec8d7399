import Imsd.McfgWalk

/-!
# Where the walk comes to the items

The items of a segment have different sizes, so that each of them is found only behind all the
items before it.  `Takes` says which steps the walk takes and what it returns; `takes_visits_iff`
gives the steps over any list of items: each item at its own place, the footer with the bytes that
are left, or the first item of an unknown type as the last step.  The bytes of the footer are not
those of well-formed sections here, so that the walk returns from it only if the process survives
it.
-/

namespace Imsd

open Bytes Exec

variable {buf : FileBuffer} {c : ℕ} {items : List McfgItem} {rest : List UInt8}

/-- The steps of the walk, and what it returns. -/
def Takes (run : LocateState × Traced LocateAccess ℤ) (steps : List LocateAccess) (result : ℤ) :
    Prop :=
  run.2.log.filterMap LocateAccess.step? = steps ∧ run.2.res = some result

/-- Items behind each other, and other bytes behind them up to the end of the file; the size of the
file has 32 bits. -/
structure ItemsLie (buf : FileBuffer) (items : List McfgItem) (rest : List UInt8) : Prop where
  holds : Holds buf.byte buf.itemsStart (items.flatMap McfgItem.encode ++ rest)
  size : buf.size =
    UInt32.ofNat (buf.itemsStart + (items.flatMap McfgItem.encode).length + rest.length)

/-- The offset of item `i`, behind those before it. -/
def placeOf (start : ℕ) (items : List McfgItem) (i : ℕ) : ℕ :=
  start + ((items.take i).flatMap McfgItem.encode).length

/-- The steps to the items. -/
def visits (start : ℕ) (items : List McfgItem) : List LocateAccess :=
  (List.range items.length).map fun i => .item i (placeOf start items i)

theorem placeOf_length (start : ℕ) (items : List McfgItem) :
    placeOf start items items.length = start + (items.flatMap McfgItem.encode).length := by
  rw [placeOf, List.take_length]

/-- The items have no footer among them, and are visited one behind the other. -/
theorem walkSteps_of_holds (h : Holds buf.byte c (items.flatMap McfgItem.encode ++ rest)) :
    buf.walkSteps c 0 items.length = visits c items := by
  rw [FileBuffer.walkSteps, visits, List.map_eq_flatMap]
  refine List.flatMap_congr fun k hk => ?_
  have hlt := List.mem_range.1 hk
  rw [FileBuffer.itemSteps, itemType_itemOffset h k hlt, itemOffset_of_holds h k hlt.le,
    if_neg fun heq => items[k].type_ne_foot (Option.some.inj heq), Nat.zero_add]
  rfl

/-- The last step of a walk. -/
theorem walkSteps_snoc (buf : FileBuffer) (start i n : ℕ) :
    buf.walkSteps start i (n + 1) =
      buf.walkSteps start i n ++ buf.itemSteps (i + n) (buf.itemOffset start n) := by
  simp [FileBuffer.walkSteps, List.range_succ]

/-- The items have known types. -/
theorem known_of_holds (h : Holds buf.byte c (items.flatMap McfgItem.encode ++ rest)) {k : ℕ}
    (hk : k < items.length) : (buf.itemType (buf.itemOffset c k)).isSome := by
  rw [itemType_itemOffset h k hk]
  rfl

/-- What lies behind the items. -/
theorem holds_place (h : Holds buf.byte c (items.flatMap McfgItem.encode ++ rest)) :
    Holds buf.byte (placeOf c items items.length) rest := by
  rw [placeOf_length]
  exact (holds_append.1 h).2

theorem itemOffset_place (h : Holds buf.byte c (items.flatMap McfgItem.encode ++ rest)) :
    buf.itemOffset c items.length = placeOf c items items.length :=
  itemOffset_of_holds h items.length le_rfl

/-- The footer gets what is left of the file. -/
theorem footerBytes_place (h : ItemsLie buf items rest) (hlt : rest.length < 65536) :
    buf.footerBytes (placeOf buf.itemsStart items items.length) = rest.length := by
  rw [FileBuffer.footerBytes, footerSize, h.size, placeOf_length, ← UInt32.ofNat_sub (by omega),
    Nat.add_sub_cancel_left, UInt32.toNat_ofNat_of_lt' (hlt.trans (by decide)),
    Nat.mod_eq_of_lt hlt]

/-- The steps of a run that the process survives are those of the walk. -/
theorem takes_of_steps {s : LocateState} {steps : List LocateAccess} {result : ℤ}
    (hsurvived : buf.WalkSurvived)
    (hsteps : (buf.itemsLog (buf.noOfItems % 65536) 0 buf.itemsStart).filterMap
      LocateAccess.step? = steps)
    (hresult : buf.itemsResult buf.itemsStart (buf.noOfItems % 65536) = result) :
    Takes (processNvConfigurationData buf (buf.setHeaders s)) steps result := by
  rw [processNvConfigurationData_eq hsurvived]
  refine ⟨?_, congrArg some hresult⟩
  simp [FileBuffer.processLog, hsteps]

section Footer

variable {header : McfgItemHeader} {tail : List UInt8}
  (h : ItemsLie buf items (header.encode .foot ++ tail))
  (hlt : (header.encode .foot ++ tail).length < 65536)
  (hnum : buf.noOfItems = items.length + 1) (hnum' : buf.noOfItems < 65536)

include h

theorem itemType_place :
    buf.itemType (placeOf buf.itemsStart items items.length) = some .foot :=
  itemType_of_holds (holds_place h.holds)

/-- The footer is the last one of the items, and all of them have known types. -/
theorem known_footer : ∀ k < items.length + 1,
    (buf.itemType (buf.itemOffset buf.itemsStart k)).isSome := by
  intro k hk
  rcases (Nat.lt_succ_iff.1 hk).lt_or_eq with hk | rfl
  · exact known_of_holds h.holds hk
  · rw [itemOffset_place h.holds, itemType_place h]
    rfl

include hlt hnum hnum'

/-- The process survives the walk if it survives the footer. -/
theorem walkSurvived_footer_iff : buf.WalkSurvived ↔
    buf.FooterSurvived (placeOf buf.itemsStart items items.length)
      (header.encode .foot ++ tail).length := by
  have hfooter : buf.ItemSurvived (placeOf buf.itemsStart items items.length) ↔
      buf.FooterSurvived (placeOf buf.itemsStart items items.length)
        (header.encode .foot ++ tail).length := by
    rw [FileBuffer.ItemSurvived, itemType_place h, footerBytes_place h hlt]
  have hcount : buf.noOfItems % 65536 = items.length + 1 := by
    rw [Nat.mod_eq_of_lt hnum', hnum]
  rw [← hfooter]
  constructor
  · intro hwalk
    rw [← itemOffset_place h.holds]
    exact hwalk items.length ⟨by omega, fun j hj => known_footer h j (by omega)⟩
  · rintro hplace k ⟨hk, -⟩
    rcases (Nat.lt_succ_iff.1 (hcount ▸ hk)).lt_or_eq with hk | rfl
    · exact itemSurvived_itemOffset h.holds k hk
    · rwa [itemOffset_place h.holds]

/-- The walk takes its steps if the process survives the footer. -/
theorem takes_footer_iff (s : LocateState) :
    Takes (processNvConfigurationData buf (buf.setHeaders s))
      (visits buf.itemsStart items ++
        [.item items.length (placeOf buf.itemsStart items items.length),
          .footer (placeOf buf.itemsStart items items.length) (header.encode .foot ++ tail).length
            (buf.footerResult (placeOf buf.itemsStart items items.length)
              (header.encode .foot ++ tail).length)]) 0 ↔
      buf.FooterSurvived (placeOf buf.itemsStart items items.length)
        (header.encode .foot ++ tail).length := by
  have hcount : buf.noOfItems % 65536 = items.length + 1 := by
    rw [Nat.mod_eq_of_lt hnum', hnum]
  have hlast : buf.itemSteps items.length (placeOf buf.itemsStart items items.length) =
      [.item items.length (placeOf buf.itemsStart items items.length),
        .footer (placeOf buf.itemsStart items items.length) (header.encode .foot ++ tail).length
          (buf.footerResult (placeOf buf.itemsStart items items.length)
            (header.encode .foot ++ tail).length)] := by
    rw [FileBuffer.itemSteps, if_pos (itemType_place h), footerBytes_place h hlt]
  rw [← walkSurvived_footer_iff h hlt hnum hnum']
  constructor
  · rintro ⟨-, hres⟩
    by_contra hdies
    rw [processNvConfigurationData_res_eq_none hdies] at hres
    cases hres
  · refine fun hwalk => takes_of_steps hwalk ?_ ?_
    · obtain ⟨-, -, -, hsteps⟩ := buf.takeItems_spec (items.length + 1) 0 s (known_footer h)
      rw [hcount, hsteps, walkSteps_snoc, walkSteps_of_holds h.holds, itemOffset_place h.holds,
        Nat.zero_add, hlast]
    · rw [hcount, FileBuffer.itemsResult, if_pos (known_footer h)]

end Footer

/-- An item of an unknown type is the last one that the walk comes to. -/
theorem takes_unknown {id : UInt32} {code : UInt8} {tail : List UInt8} (s : LocateState)
    (h : ItemsLie buf items (toLE 4 id.toNat ++ code :: tail))
    (hcode : McfgItemType.ofCode code.toNat = none) (hnum : items.length < buf.noOfItems)
    (hnum' : buf.noOfItems < 65536) :
    Takes (processNvConfigurationData buf (buf.setHeaders s))
      (visits buf.itemsStart items ++
        [.item items.length (placeOf buf.itemsStart items items.length)]) (-einval) := by
  have hunknown : buf.itemType (placeOf buf.itemsStart items items.length) = none := by
    rw [FileBuffer.itemType, loadLE_byte (holds_behind (holds_place h.holds)), hcode]
  have hcount : buf.noOfItems % 65536 = buf.noOfItems := Nat.mod_eq_of_lt hnum'
  have hlast : buf.itemSteps items.length (placeOf buf.itemsStart items items.length) =
      [.item items.length (placeOf buf.itemsStart items items.length)] := by
    rw [FileBuffer.itemSteps, hunknown]
    rfl
  rw [← itemOffset_place h.holds] at hunknown
  have hsurvived : buf.WalkSurvived := by
    rintro k ⟨-, hbefore⟩
    rcases lt_trichotomy k items.length with hlt | rfl | hlt
    · exact itemSurvived_itemOffset h.holds k hlt
    · rw [FileBuffer.ItemSurvived, hunknown]
      trivial
    · have hsome : (buf.itemType (buf.itemOffset buf.itemsStart items.length)).isSome :=
        hbefore items.length hlt
      rw [hunknown] at hsome
      cases hsome
  refine takes_of_steps hsurvived ?_ ?_
  · obtain ⟨-, -, -, hsteps⟩ := buf.takeItems_spec_unknown items.length 0 s hnum
      (fun k hk => known_of_holds h.holds hk) hunknown
    rw [hcount, hsteps, walkSteps_snoc, walkSteps_of_holds h.holds, itemOffset_place h.holds,
      Nat.zero_add, hlast]
  · rw [hcount, FileBuffer.itemsResult, if_neg]
    intro hknown
    have hsome := hknown items.length hnum
    rw [hunknown] at hsome
    cases hsome

/-- **The steps of the walk over any items**: to each of them at its place, and to the footer, with
what is left of the file, exactly if the process survives it, or to the first item of an unknown
type. -/
theorem takes_visits_iff (buf : FileBuffer) (items : List McfgItem) (s : LocateState)
    (hnum : buf.noOfItems < 65536) :
    (∀ (header : McfgItemHeader) (tail : List UInt8),
      ItemsLie buf items (header.encode .foot ++ tail) →
      (header.encode .foot ++ tail).length < 65536 → buf.noOfItems = items.length + 1 →
      (Takes (processNvConfigurationData buf (buf.setHeaders s))
        (visits buf.itemsStart items ++
          [.item items.length (placeOf buf.itemsStart items items.length),
            .footer (placeOf buf.itemsStart items items.length) (header.encode .foot ++ tail).length
              (buf.footerResult (placeOf buf.itemsStart items items.length)
                (header.encode .foot ++ tail).length)]) 0 ↔
        buf.FooterSurvived (placeOf buf.itemsStart items items.length)
          (header.encode .foot ++ tail).length)) ∧
      ∀ (id : UInt32) (code : UInt8) (tail : List UInt8),
        ItemsLie buf items (toLE 4 id.toNat ++ code :: tail) →
        McfgItemType.ofCode code.toNat = none → items.length < buf.noOfItems →
        Takes (processNvConfigurationData buf (buf.setHeaders s))
          (visits buf.itemsStart items ++
            [.item items.length (placeOf buf.itemsStart items items.length)]) (-einval) :=
  ⟨fun _ _ h hlt hcount => takes_footer_iff h hlt hcount hnum s,
    fun _ _ _ h hcode hlt => takes_unknown s h hcode hlt hnum⟩

/-- An NV element and a file. -/
def twoItems : List McfgItem :=
  [.nv ⟨12, 0x09, 0⟩ .unknown (by decide) 850 [1, 0] (by decide),
    .file ⟨13, 0x09, 0⟩ .nvfile (by decide) (.filename [0x2f, 0x61] (by decide))
      (.filecontents [1, 2, 3] (by decide))]

/-- The headers of a file with three items. -/
def itemsHead : List UInt8 :=
  elfHeaders 148 ++ (McfgFileHeader.encode ⟨1, 1, 3, 0x0101, 0⟩ ++
    McfgSubVersionData.encode ⟨4995, 4, 1⟩)

/-- Two items behind the headers, and `rest` behind them. -/
def twoItemsFile (rest : List UInt8) : FileBuffer :=
  .read (itemsHead ++ (twoItems.flatMap McfgItem.encode ++ rest)) []

theorem itemsLie_twoItemsFile {rest : List UInt8} (hlt : rest.length < 100)
    (hstart : (twoItemsFile rest).itemsStart = 172) :
    ItemsLie (twoItemsFile rest) twoItems rest := by
  have hhead : itemsHead.length = 172 := by simp [itemsHead, elfHeaders, elfmag]
  have hitems : (twoItems.flatMap McfgItem.encode).length = 35 := by decide
  have hlen : (itemsHead ++ (twoItems.flatMap McfgItem.encode ++ rest)).length =
      172 + (twoItems.flatMap McfgItem.encode).length + rest.length := by
    rw [List.length_append, List.length_append, hhead, Nat.add_assoc]
  have hfile : (itemsHead ++ (twoItems.flatMap McfgItem.encode ++ rest)).length < 2 ^ 32 := by omega
  have hholds := (holds_append.1 (FileBuffer.holds_read hfile [])).2
  rw [Nat.zero_add, hhead] at hholds
  refine ⟨?_, ?_⟩
  · rw [hstart]
    exact hholds
  · rw [hstart, ← hlen]
    rfl

theorem takes_visits_iff_twoItems :
    Takes (processNvConfigurationData (twoItemsFile (McfgItemHeader.encode ⟨14, 0, 0⟩ .foot ++ [7]))
        ((twoItemsFile (McfgItemHeader.encode ⟨14, 0, 0⟩ .foot ++ [7])).setHeaders .initial))
      [.item 0 172, .item 1 186, .item 2 207, .footer 207 9 (-einval)] 0 ∧
    Takes (processNvConfigurationData (twoItemsFile (toLE 4 14 ++ [0x0b]))
        ((twoItemsFile (toLE 4 14 ++ [0x0b])).setHeaders .initial))
      [.item 0 172, .item 1 186, .item 2 207] (-einval) := by
  have hfoot : ItemsLie _ twoItems (McfgItemHeader.encode ⟨14, 0, 0⟩ .foot ++ [7]) :=
    itemsLie_twoItemsFile (by decide) (by decide +kernel)
  have hunknown : ItemsLie _ twoItems (toLE 4 14 ++ [0x0b]) :=
    itemsLie_twoItemsFile (by decide) (by decide +kernel)
  have hsteps := ((takes_visits_iff _ twoItems .initial (by decide +kernel)).1 ⟨14, 0, 0⟩ [7] hfoot
    (by decide) (by decide +kernel)).2 (by decide +kernel)
  have hsteps' := (takes_visits_iff _ twoItems .initial (by decide +kernel)).2 14 0x0b [] hunknown
    (by decide) (by decide +kernel)
  refine ⟨⟨hsteps.1.trans ?_, hsteps.2⟩, ⟨hsteps'.1.trans ?_, hsteps'.2⟩⟩
  · decide +kernel
  · decide +kernel

/-- What lies behind the item header of a footer with one section, of an unknown id. -/
def unnamedTail : List UInt8 :=
  toLE 2 0xa1 ++ (toLE 2 12 ++ (mcfgFileFooterMagic ++ ([6, 1, 0, 0] ++ toLE 4 28)))

/-- A file of two items and that footer. -/
def unnamedFile : FileBuffer :=
  twoItemsFile (McfgItemHeader.encode ⟨28, 0, 0⟩ .foot ++ unnamedTail)

/-- `sec3` is used, and there has been no name: the walk does not return. -/
theorem not_takes_visits :
    ItemsLie unnamedFile twoItems (McfgItemHeader.encode ⟨28, 0, 0⟩ .foot ++ unnamedTail) ∧
      unnamedFile.noOfItems = twoItems.length + 1 ∧
      ∀ steps result, ¬ Takes
        (processNvConfigurationData unnamedFile (unnamedFile.setHeaders .initial)) steps
        result := by
  have hlie : ItemsLie unnamedFile twoItems
      (McfgItemHeader.encode ⟨28, 0, 0⟩ .foot ++ unnamedTail) :=
    itemsLie_twoItemsFile (by decide) (by decide +kernel)
  have hnum : unnamedFile.noOfItems = twoItems.length + 1 := by decide +kernel
  have hdies : ¬ unnamedFile.WalkSurvived := by
    rw [walkSurvived_footer_iff hlie (by decide) hnum (by decide +kernel)]
    decide +kernel
  refine ⟨hlie, hnum, fun steps result htakes => ?_⟩
  have hres := htakes.2
  rw [processNvConfigurationData_res_eq_none hdies] at hres
  cases hres

end Imsd
