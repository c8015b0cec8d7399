import Imsd.Lib.Bytes

/-!
# `config.c`: the configuration file

`load_config` has `ini_parse` read a file; `ini_parse` calls `load_config_handler` for each entry,
and each call of the handler stores one value.  `load_main_config` begins with zeroed memory.

* `ini_parse` is a function of a library, and a parameter here (`IniParse`).  What is relied on is
  `IniParse.Reads`: it calls the handler for every entry of the file in order, whatever the handler
  returns, and only a file that cannot be opened has a negative result.
* `atoi` is that of a 64-bit `long`, which the value is cut to before it is an `int`.

`loadConfig_eq` says what the memory holds after any file: for each key the last value given for
it, cut to what fits (`settings`).
-/

namespace Imsd

open Bytes

/-- A C string, without its NUL. -/
structure CStr where
  text : List UInt8
  ne_zero : ∀ b ∈ text, b ≠ 0

/-- `MAX_CONFIG_STR_LEN`. -/
def maxConfigStrLen : ℕ := 50

/-- `IMSD_Config`. -/
structure IMSDConfig where
  phoneModel : List UInt8
  simSlots : UInt8
  mcfgConfigPath : List UInt8
  fallbackApn : List UInt8
  usesCustomVolteMixers : UInt8
  playbackMixers : List UInt8
  recordingMixers : List UInt8

/-- The zeroed memory. -/
def IMSDConfig.zero : IMSDConfig :=
  let empty := List.replicate maxConfigStrLen 0
  ⟨empty, 0, empty, empty, 0, empty, empty⟩

/-! ### The standard library -/

/-- `strncpy`: a shorter string is followed by zeros, a longer one is cut. -/
def strncpy (dest : List UInt8) (src : CStr) (n : ℕ) : List UInt8 :=
  src.text.take n ++ List.replicate (n - src.text.length) 0 ++ dest.drop n

def isSpace (b : UInt8) : Bool := b = 32 || 9 ≤ b && b ≤ 13

def isDigit (b : UInt8) : Bool := 48 ≤ b && b ≤ 57

/-- The number that decimal digits stand for. -/
def digitsValue (digits : List UInt8) : ℕ := digits.foldl (fun n b => 10 * n + (b.toNat - 48)) 0

/-- `strtol` with base 10: white space, a sign, digits; the value is cut to 64 bits. -/
def strtol (text : List UInt8) : ℤ :=
  match text.dropWhile isSpace with
  | 45 :: digits => clamp (-digitsValue (digits.takeWhile isDigit))
  | 43 :: digits => clamp (digitsValue (digits.takeWhile isDigit))
  | digits => clamp (digitsValue (digits.takeWhile isDigit))
where
  clamp (n : ℤ) : ℤ := max (-2 ^ 63) (min n (2 ^ 63 - 1))

/-- `atoi`. -/
def atoi (src : CStr) : ℤ := (strtol src.text).bmod (2 ^ 32)

/-! ### Loading -/

/-- `load_config_handler`; `0` says that the file does not have the field. -/
def loadConfigHandler (config : IMSDConfig) (sect name : String) (value : CStr) :
    IMSDConfig × ℤ :=
  let n := maxConfigStrLen - 1
  if sect = "IMSD" then
    (if name = "phone_model" then
      { config with phoneModel := strncpy config.phoneModel value n }
    else if name = "sim_slots" then
      { config with simSlots := .ofInt (atoi value) }
    else if name = "mcfg_config_path" then
      { config with mcfgConfigPath := strncpy config.mcfgConfigPath value n }
    else if name = "fallback_apn" then
      { config with fallbackApn := strncpy config.fallbackApn value n }
    else if name = "uses_custom_volte_mixers" then
      { config with usesCustomVolteMixers := .ofInt (atoi value) }
    else if name = "playback_mixers" then
      { config with playbackMixers := strncpy config.playbackMixers value n }
    else if name = "recording_mixers" then
      { config with recordingMixers := strncpy config.recordingMixers value n }
    else config, 1)
  else (config, 0)

/-- An entry of a file. -/
structure IniEntry where
  sect : String
  name : String
  value : CStr

/-- `ini_parse`, for a handler and the memory that the handler gets: what the handler leaves there,
and the result. -/
abbrev IniParse :=
  String → (IMSDConfig → String → String → CStr → IMSDConfig × ℤ) → IMSDConfig → IMSDConfig × ℤ

/-- `load_config`; `none` stands for `exit(EXIT_FAILURE)`. -/
def loadConfig (iniParse : IniParse) (filename : String) (config : IMSDConfig) :
    Option IMSDConfig :=
  let result := iniParse filename loadConfigHandler config
  if result.2 < 0 then none else some result.1

/-- What `ini_parse` does with a file that has some entries, or that cannot be opened. -/
structure IniParse.Reads (iniParse : IniParse) (filename : String)
    (file : Option (List IniEntry)) : Prop where
  calls : ∀ entries ∈ file, ∀ handler config, (iniParse filename handler config).1 =
    entries.foldl (fun config e => (handler config e.sect e.name e.value).1) config
  negative_iff : ∀ handler config, (iniParse filename handler config).2 < 0 ↔ file = none

/-! ### What a file says -/

/-- The last value that a file gives for a key of the section `IMSD`. -/
def lastValue (entries : List IniEntry) (name : String) : Option CStr :=
  ((entries.filter fun e => e.sect = "IMSD" ∧ e.name = name).getLast?).map IniEntry.value

/-- The text that is kept of a value. -/
def keptText (value : Option CStr) : List UInt8 :=
  ((value.map CStr.text).getD []).take (maxConfigStrLen - 1)

/-- A field of `MAX_CONFIG_STR_LEN` bytes with a text. -/
def textField (text : List UInt8) : List UInt8 :=
  text ++ List.replicate (maxConfigStrLen - text.length) 0

/-- The configuration that a file stands for. -/
def settings (entries : List IniEntry) : IMSDConfig :=
  let textOf (name : String) := textField (keptText (lastValue entries name))
  let numberOf (name : String) :=
    ((lastValue entries name).map fun v => UInt8.ofInt (atoi v)).getD 0
  { phoneModel := textOf "phone_model"
    simSlots := numberOf "sim_slots"
    mcfgConfigPath := textOf "mcfg_config_path"
    fallbackApn := textOf "fallback_apn"
    usesCustomVolteMixers := numberOf "uses_custom_volte_mixers"
    playbackMixers := textOf "playback_mixers"
    recordingMixers := textOf "recording_mixers" }

theorem lastValue_snoc (entries : List IniEntry) (e : IniEntry) (name : String) :
    lastValue (entries ++ [e]) name =
      if e.sect = "IMSD" ∧ e.name = name then some e.value else lastValue entries name := by
  unfold lastValue
  rw [List.filter_append]
  by_cases h : e.sect = "IMSD" ∧ e.name = name
  · rw [if_pos h, List.filter_cons_of_pos (by simpa using h), List.filter_nil,
      List.getLast?_concat]
    rfl
  · rw [if_neg h, List.filter_cons_of_neg (by simpa using h), List.filter_nil, List.append_nil]

theorem length_keptText (value : Option CStr) : (keptText value).length < maxConfigStrLen := by
  rw [keptText, List.length_take]
  exact lt_of_le_of_lt (min_le_left _ _) (by decide)

/-- What a field holds can be read as a string. -/
theorem cString_textField (value : Option CStr) :
    cString (textField (keptText value)) = keptText value ∧
      (textField (keptText value)).length = maxConfigStrLen := by
  have hlen := length_keptText value
  refine ⟨cString_append_replicate (fun b hb => ?_) _, ?_⟩
  · cases value with
    | none => exact absurd (List.mem_of_mem_take hb) List.not_mem_nil
    | some value => exact value.ne_zero b (List.mem_of_mem_take hb)
  · rw [textField, List.length_append, List.length_replicate]
    omega

/-- A value replaces whatever was in the field, and leaves nothing of it. -/
theorem strncpy_textField (value : Option CStr) (src : CStr) :
    strncpy (textField (keptText value)) src (maxConfigStrLen - 1) =
      textField (keptText (some src)) := by
  have hlen := length_keptText value
  have hdrop : (textField (keptText value)).drop (maxConfigStrLen - 1) = [0] := by
    rw [textField, List.drop_append, List.drop_eq_nil_of_le (by omega), List.nil_append,
      List.drop_replicate]
    have hone : maxConfigStrLen - (keptText value).length -
        (maxConfigStrLen - 1 - (keptText value).length) = 1 := by omega
    rw [hone]
    rfl
  have hkept : keptText (some src) = src.text.take (maxConfigStrLen - 1) := rfl
  rw [strncpy, hdrop, textField, hkept, List.append_assoc]
  congr 1
  rw [← List.replicate_succ', List.length_take]
  congr 1
  have h50 : maxConfigStrLen = 50 := rfl
  omega

/-- **One entry.** -/
theorem loadConfigHandler_settings (entries : List IniEntry) (e : IniEntry) :
    (loadConfigHandler (settings entries) e.sect e.name e.value).1 = settings (entries ++ [e]) := by
  obtain ⟨sect, name, value⟩ := e
  unfold loadConfigHandler
  dsimp only
  by_cases hsect : sect = "IMSD"
  · -- the value goes to the field of its key, and the others have no new value
    rw [if_pos hsect]
    split_ifs with hname hname hname hname hname hname hname
    all_goals simp [settings, lastValue_snoc, strncpy_textField, *]
  · rw [if_neg hsect]
    simp [settings, lastValue_snoc, hsect]

/-- The handler for every entry in turn. -/
theorem foldl_loadConfigHandler (entries entries' : List IniEntry) :
    entries'.foldl (fun config e => (loadConfigHandler config e.sect e.name e.value).1)
      (settings entries) = settings (entries ++ entries') := by
  induction entries' generalizing entries with
  | nil => rw [List.append_nil]; rfl
  | cons e entries' ih =>
    rw [List.foldl_cons, loadConfigHandler_settings, ih, List.append_assoc]
    rfl

/-- **What is loaded**, from any file: every field holds the last value that the file gives for
its key in the section `IMSD`, a text cut to `49` bytes and a number to eight bits, and nothing of
the values before it.  Only a file that cannot be opened ends the process. -/
theorem loadConfig_eq {iniParse : IniParse} {filename : String} {file : Option (List IniEntry)}
    (h : iniParse.Reads filename file) :
    loadConfig iniParse filename .zero = file.map settings ∧
      ∀ value, cString (textField (keptText value)) = keptText value ∧
        (textField (keptText value)).length = maxConfigStrLen := by
  refine ⟨?_, cString_textField⟩
  have hneg := h.negative_iff loadConfigHandler .zero
  unfold loadConfig
  cases file with
  | none => exact if_pos (hneg.2 rfl)
  | some entries =>
    have hzero : IMSDConfig.zero = settings [] := rfl
    have hcalls := h.calls entries rfl loadConfigHandler .zero
    rw [if_neg fun hlt => absurd (hneg.1 hlt) (Option.some_ne_none _), hcalls, hzero,
      foldl_loadConfigHandler]
    rfl

/-- A value for a key that is known. -/
def knownModel : CStr := ⟨[105, 49], by simp⟩

/-- A value for a key of another section. -/
def otherModel : CStr := ⟨[105, 50], by simp⟩

/-- An `ini_parse` for the file that gives both. -/
def parseBothModels : IniParse := fun _ handler config =>
  let first := handler config "IMSD" "phone_model" knownModel
  let second := handler first.1 "OTHER" "phone_model" otherModel
  (second.1, if first.2 = 0 then 2 else if second.2 = 0 then 4 else 0)

theorem loadConfig_bothModels :
    loadConfig parseBothModels "imsd.ini" .zero = some (settings
      [⟨"IMSD", "phone_model", knownModel⟩, ⟨"OTHER", "phone_model", otherModel⟩]) := by
  have hreads : parseBothModels.Reads "imsd.ini"
      (some [⟨"IMSD", "phone_model", knownModel⟩, ⟨"OTHER", "phone_model", otherModel⟩]) := by
    refine ⟨?_, fun handler config => iff_of_false ?_ (Option.some_ne_none _)⟩
    · rintro _ ⟨⟩ handler config
      rfl
    · simp only [parseBothModels]
      split_ifs <;> norm_num
  exact (loadConfig_eq hreads).1

end Imsd
