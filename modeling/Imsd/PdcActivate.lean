import Imsd.PdcListing
import Imsd.Lib.Trace

/-!
# Activating a configuration

`print_configs` asks the modem to select every entry `ROW_Commercial` of the list.  When such a
request is answered, `set_selected_config_ready` asks the modem to activate what it has selected.
The answer has two levels: there may be no output, and an output has a result.  The callback looks
for the output and never at the result.

A `Selecting` is a list that has been printed, with its requests in flight; an event is a request
that completes, with the output and the activate-config request that it leads to.
`activatesOnce_iff` says when a run activates once at most, and only what has been selected.
-/

namespace Imsd

open Exec EventSystem

/-! ### The callback -/

/-- `QmiMessagePdcSetSelectedConfigOutput`. -/
structure SetSelectedConfigOutput where
  result : Bool
  deriving DecidableEq

/-- `QmiMessagePdcActivateConfigInput`. -/
structure ActivateConfigInput where
  configType : UInt8
  token : UInt32
  deriving DecidableEq

/-- The activate-config request, if there is an output; whether its result is a success is not
looked at. -/
def setSelectedConfigReady (output : Option SetSelectedConfigOutput) :
    PdcM (Option ActivateConfigInput) :=
  match output with
  | none => pure none
  | some _ => do
    let token ← nextToken
    pure (some ⟨0x01, token⟩)

theorem setSelectedConfigReady_does (output : Option SetSelectedConfigOutput) (ctx : PdcContext) :
    ∃ ctx', Does PdcAccess.output? (setSelectedConfigReady output) ctx ctx' []
      (output.map fun _ => ⟨0x01, ctx.token⟩) := by
  cases output with
  | none => exact ⟨ctx, Does.pure _ ctx⟩
  | some output => exact ⟨_, (nextToken_does ctx).bind_nil (Does.pure _ _)⟩

/-! ### Runs -/

/-- A list that has been printed, and the requests for it in flight. -/
structure Selecting where
  ctx : PdcContext
  configs : List ConfigInfo
  requests : List PdcOutput

/-- A request that completes: its output, and the activate-config request that goes out. -/
structure Selected where
  request : PdcOutput
  output : Option SetSelectedConfigOutput
  activation : Option ActivateConfigInput

/-- `print_configs` has come to its end. -/
def Selecting.Printed (s : Selecting) : Prop :=
  ∃ ctx, Does PdcAccess.output? printConfigs ctx s.ctx (.printConfigs s.configs :: s.requests) ⟨⟩

/-- A request completes. -/
def Selecting.Step (s : Selecting) (l : Selected) (s' : Selecting) : Prop :=
  l.request ∈ s.requests ∧
  (setSelectedConfigReady l.output s.ctx).2.res = some l.activation ∧
  s' = ⟨(setSelectedConfigReady l.output s.ctx).1, s.configs, s.requests.erase l.request⟩

/-- The modem has selected an entry `ROW_Commercial`, on both levels. -/
def Selected.Succeeds (configs : List ConfigInfo) (l : Selected) : Prop :=
  l.output = some ⟨true⟩ ∧ l.request.Selects configs

/-- An activate-config request comes after the modem has selected an entry `ROW_Commercial`, and
there is one at most. -/
structure ActivatesOnce (configs : List ConfigInfo) (tr : List Selected) : Prop where
  after : ∀ pre l post, tr = pre ++ l :: post → l.activation.isSome →
    ∃ x ∈ pre ++ [l], x.Succeeds configs
  once : tr.countP (fun l => l.activation.isSome) ≤ 1

/-- One request at most has an output, and the result in it is a success. -/
structure OneSuccess (tr : List Selected) : Prop where
  one : tr.countP (fun l => l.output.isSome) ≤ 1
  success : ∀ l ∈ tr, ∀ output ∈ l.output, output.result = true

/-! ### What a run keeps -/

/-- The requests are those for the entries `ROW_Commercial`. -/
theorem Selecting.Printed.selects {s : Selecting} (h : s.Printed) :
    ∀ request ∈ s.requests, request.Selects s.configs := by
  obtain ⟨ctx, hdoes⟩ := h
  have hout := hdoes.out.symm.trans (printConfigs_continues ctx).out
  obtain ⟨hprinted, hrequests⟩ := List.cons.inj hout
  have hconfigs : s.configs = ctx.configList := PdcOutput.printConfigs.inj hprinted
  rw [← hconfigs] at hrequests
  intro request hrequest
  rw [hrequests] at hrequest
  obtain ⟨e, he, ho⟩ := List.mem_filterMap.1 hrequest
  exact logs_printEach s.configs ctx e he request ho

/-- A request that completes leads to an activate-config request exactly if it has an output. -/
theorem Selecting.Step.activation {s s' : Selecting} {l : Selected} (h : s.Step l s') :
    l.activation.isSome = l.output.isSome := by
  obtain ⟨-, hres, -⟩ := h
  obtain ⟨ctx', hdoes⟩ := setSelectedConfigReady_does l.output s.ctx
  rw [← Option.some.inj (hdoes.res.symm.trans hres), Option.isSome_map]

/-- **What a whole run keeps**: every request is for an entry `ROW_Commercial`, whether it is in
flight or has completed. -/
theorem selects_of_run {tr : List Selected} {s : Selecting}
    (hr : Run Selecting.Printed Selecting.Step unguarded tr s) :
    (∀ request ∈ s.requests, request.Selects s.configs) ∧
      ∀ l ∈ tr, l.request.Selects s.configs ∧ l.activation.isSome = l.output.isSome := by
  induction hr with
  | start h => exact ⟨h.selects, fun l hl => absurd hl List.not_mem_nil⟩
  | @snoc tr s s' l _ _ hs ih =>
    obtain ⟨hflight, hdone⟩ := ih
    have hactivation := hs.activation
    obtain ⟨hmem, -, rfl⟩ := hs
    refine ⟨fun request hrequest => hflight request (List.mem_of_mem_erase hrequest), ?_⟩
    intro x hx
    rcases List.mem_append.1 hx with hx | hx
    · exact hdone x hx
    · rw [List.mem_singleton.1 hx]
      exact ⟨hflight _ hmem, hactivation⟩

/-! ### When it activates once -/

/-- **A run activates once at most, and only what has been selected, exactly when one request at
most has an output and that is a success.** -/
theorem activatesOnce_iff {tr : List Selected} {s : Selecting}
    (hr : Run Selecting.Printed Selecting.Step unguarded tr s) :
    ActivatesOnce s.configs tr ↔ OneSuccess tr := by
  obtain ⟨-, hdone⟩ := selects_of_run hr
  have hcount : tr.countP (fun l => l.activation.isSome) = tr.countP fun l => l.output.isSome :=
    List.countP_congr fun l hl => by rw [(hdone l hl).2]
  constructor
  · rintro ⟨hafter, honce⟩
    rw [hcount] at honce
    refine ⟨honce, fun l hl output houtput => ?_⟩
    obtain ⟨pre, post, rfl⟩ := List.append_of_mem hl
    have hsome : l.output.isSome := by rw [Option.mem_def.1 houtput]; rfl
    obtain ⟨x, hx, hsuccess, -⟩ := hafter pre l post rfl (by rw [(hdone l hl).2, hsome])
    rcases List.mem_append.1 hx with hx | hx
    · -- a success before would be a second output
      have hpre : 0 < pre.countP fun l => l.output.isSome :=
        List.countP_pos_iff.2 ⟨x, hx, by rw [hsuccess]; rfl⟩
      have hpost : 0 < (l :: post).countP fun l => l.output.isSome :=
        List.countP_pos_iff.2 ⟨l, List.mem_cons_self, hsome⟩
      rw [List.countP_append] at honce
      omega
    · rw [List.mem_singleton.1 hx, Option.mem_def.1 houtput] at hsuccess
      cases hsuccess
      rfl
  · rintro ⟨hone, hsuccess⟩
    refine ⟨fun pre l post htr hactivation => ?_, hcount.trans_le hone⟩
    have hl : l ∈ tr := by rw [htr]; simp
    obtain ⟨hselects, hsome⟩ := hdone l hl
    rw [hactivation] at hsome
    obtain ⟨⟨result⟩, houtput⟩ := Option.isSome_iff_exists.1 hsome.symm
    obtain rfl : result = true := hsuccess l hl _ houtput
    exact ⟨l, by simp, houtput, hselects⟩

/-- A list with one entry `ROW_Commercial`, printed. -/
def commercial : Selecting :=
  ⟨{ PdcContext.fresh 7 with
      configList := [⟨[0xaa], 1, 3, 1, some "ROW_Commercial", 10⟩], token := 8 },
    [⟨[0xaa], 1, 3, 1, some "ROW_Commercial", 10⟩], [.setSelectedConfig 0x01 [0xaa] 7]⟩

theorem printed_commercial : commercial.Printed :=
  ⟨{ PdcContext.fresh 7 with configList := commercial.configs }, rfl, rfl, rfl⟩

/-- The request of that list completes. -/
theorem run_commercial (output : SetSelectedConfigOutput) :
    ∃ s, s.configs = commercial.configs ∧ Run Selecting.Printed Selecting.Step unguarded
      [⟨.setSelectedConfig 0x01 [0xaa] 7, some output, some ⟨0x01, 8⟩⟩] s := by
  refine ⟨_, ?_, .snoc (.start printed_commercial) trivial ⟨List.mem_cons_self, rfl, rfl⟩⟩
  rfl

/-- With success. -/
theorem activatesOnce_commercial : ActivatesOnce commercial.configs
    [⟨.setSelectedConfig 0x01 [0xaa] 7, some ⟨true⟩, some ⟨0x01, 8⟩⟩] := by
  obtain ⟨s, hconfigs, hrun⟩ := run_commercial ⟨true⟩
  rw [← hconfigs]
  refine (activatesOnce_iff hrun).2 ⟨by decide, fun l hl output houtput => ?_⟩
  rw [List.mem_singleton.1 hl] at houtput
  cases houtput
  rfl

/-- The modem refuses to select the entry, and is asked to activate it all the same. -/
theorem not_activatesOnce : ¬ ∀ tr s, Run Selecting.Printed Selecting.Step unguarded tr s →
    ActivatesOnce s.configs tr := by
  intro hall
  obtain ⟨s, -, hrun⟩ := run_commercial ⟨false⟩
  obtain ⟨x, hx, hsuccess, -⟩ := (hall _ s hrun).after [] _ [] rfl rfl
  rw [List.nil_append, List.mem_singleton] at hx
  rw [hx] at hsuccess
  cases hsuccess

end Imsd
