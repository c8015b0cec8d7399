import Imsd.Lib.Exec

/-!
# `pdc.c`: the configurations of the modem

`pdc_start` asks the modem for the list of its configurations and for the selected one.  The modem
answers by indications.  Each entry of the list makes a request of its own, whose indication
brings the entry's details; when all of them and the selected one are there, the list is printed
and the entry `ROW_Commercial` is selected.

The functions are computations over the context.  They log the fields that they read and write,
and their outputs: the requests to the modem, and the calls of `print_configs`.  Reading
`config_list` is dereferencing it; where nothing has been stored there yet, the list read is
whatever the context held.  A null pointer that is dereferenced ends the computation (`crash`).

What an indication carries is up to the modem: every getter may fail, so its fields are options.
-/

namespace Imsd

open Exec

/-- `QMI_PROTOCOL_ERROR_NOT_PROVISIONED`. -/
def qmiProtocolErrorNotProvisioned : UInt16 := 16

/-! ### Data -/

/-- `ConfigInfo`; the description may be null. -/
structure ConfigInfo where
  id : List UInt8
  configType : UInt8
  token : UInt32
  version : UInt32
  description : Option String
  totalSize : UInt32
  deriving DecidableEq

/-- An entry of a cleared array. -/
def ConfigInfo.zero : ConfigInfo := ⟨[], 0, 0, 0, none, 0⟩

/-- `Context`, with the fields that the indications use. -/
structure PdcContext where
  timeoutId : UInt32
  configList : List ConfigInfo
  configsLoaded : UInt32
  activeConfigId : Option (List UInt8)
  pendingConfigId : Option (List UInt8)
  idsLoaded : Bool
  token : UInt32

inductive PdcField
  | timeoutId
  | configList
  | configsLoaded
  | activeConfigId
  | pendingConfigId
  | idsLoaded
  | token
  deriving DecidableEq

/-- The requests, and the calls of `print_configs` with the list they print. -/
inductive PdcOutput
  | listConfigs (configType : UInt8) (token : UInt32)
  | getSelectedConfig (configType : UInt8) (token : UInt32)
  | getConfigInfo (configType : UInt8) (id : List UInt8) (token : UInt32)
  | printConfigs (configs : List ConfigInfo)
  | setSelectedConfig (configType : UInt8) (id : List UInt8) (token : UInt32)
  deriving DecidableEq

inductive PdcAccess
  | read (field : PdcField)
  | write (field : PdcField)
  | out (o : PdcOutput)
  deriving DecidableEq

/-- The outputs among the accesses. -/
def PdcAccess.output? : PdcAccess → Option PdcOutput
  | .out o => some o
  | _ => none

/-- `QmiIndicationPdcListConfigsOutputConfigsElement`. -/
structure ConfigsElement where
  configType : UInt8
  id : List UInt8

/-- The output of a list-configs indication. -/
structure ListConfigsOutput where
  indicationResult : Option UInt16
  configs : Option (List ConfigsElement)

/-- The output of a get-config-info indication. -/
structure GetConfigInfoOutput where
  indicationResult : Option UInt16
  token : Option UInt32
  totalSize : Option UInt32
  version : Option UInt32
  description : Option String

/-- The output of a get-selected-config indication. -/
structure GetSelectedConfigOutput where
  indicationResult : Option UInt16
  pendingId : Option (List UInt8)
  activeId : Option (List UInt8)

/-! ### Primitives -/

/-- A computation over the context. -/
abbrev PdcM (α : Type) := Exec PdcContext PdcAccess α

def readField {α : Type} (field : PdcField) (g : PdcContext → α) : PdcM α := do
  Exec.emitAll [PdcAccess.read field]
  let ctx ← Exec.get
  pure (g ctx)

def writeField (field : PdcField) (g : PdcContext → PdcContext) : PdcM PUnit := do
  Exec.emitAll [PdcAccess.write field]
  Exec.modify g

def emit (o : PdcOutput) : PdcM PUnit := Exec.emitAll [PdcAccess.out o]

/-- A null pointer is dereferenced. -/
def crash {α : Type} : PdcM α := Exec.lift Traced.stuck

/-- `ctx->token++`. -/
def nextToken : PdcM UInt32 := do
  let token ← readField .token PdcContext.token
  writeField .token fun ctx => { ctx with token := token + 1 }
  pure token

/-- Change entry `i` of the list. -/
def updateEntry (i : ℕ) (g : ConfigInfo → ConfigInfo) : PdcM PUnit := do
  Exec.emitAll [PdcAccess.read .configList]
  Exec.modify fun ctx => { ctx with configList := ctx.configList.modify i g }

/-! ### The end of a listing -/

def setSelectedConfig (thisConfig : ConfigInfo) : PdcM PUnit := do
  let token ← nextToken
  emit (.setSelectedConfig 0x01 thisConfig.id token)

def statusString (id : List UInt8) : PdcM String := do
  let active ← readField .activeConfigId PdcContext.activeConfigId
  if active = some id then pure "Active  "
  else do
    let pending ← readField .pendingConfigId PdcContext.pendingConfigId
    if pending = some id then pure "Pending" else pure "Inactive"

/-- `strcmp` with `ROW_Commercial`. -/
def selectRowCommercial (config : ConfigInfo) : PdcM PUnit :=
  match config.description with
  | none => crash
  | some description =>
    if description = "ROW_Commercial" then setSelectedConfig config else pure ⟨⟩

/-- The loop of `print_configs`. -/
def printEach : List ConfigInfo → PdcM PUnit
  | [] => pure ⟨⟩
  | config :: configs => do
    let _ ← statusString config.id
    selectRowCommercial config
    printEach configs

def printConfigs : PdcM PUnit := do
  let configs ← readField .configList PdcContext.configList
  emit (.printConfigs configs)
  printEach configs

/-- The length of a `GArray` has 32 bits. -/
def checkListConfigCompleted : PdcM PUnit := do
  let configsLoaded ← readField .configsLoaded PdcContext.configsLoaded
  let configs ← readField .configList PdcContext.configList
  if configsLoaded = UInt32.ofNat configs.length then do
    let idsLoaded ← readField .idsLoaded PdcContext.idsLoaded
    if idsLoaded = true then printConfigs else pure ⟨⟩
  else pure ⟨⟩

/-! ### The indications -/

/-- The index at which the search for a token ends: that of the first entry with the token, or of
the last entry without one; an empty list has none. -/
def currentConfig (configs : List ConfigInfo) (token : UInt32) : Option ℕ :=
  match configs.findIdx? (fun config => config.token = token) with
  | some i => some i
  | none => if configs.length = 0 then none else some (configs.length - 1)

/-- Store a field of the current entry. -/
def storeEntry (current : Option ℕ) (g : ConfigInfo → ConfigInfo) : PdcM PUnit :=
  match current with
  | none => crash
  | some i => updateEntry i g

/-- Store total size, version and description, until one of them is missing. -/
def storeDetails (current : Option ℕ) (out : GetConfigInfoOutput) : PdcM PUnit :=
  match out.totalSize with
  | none => pure ⟨⟩
  | some totalSize => do
    storeEntry current fun config => { config with totalSize }
    match out.version with
    | none => pure ⟨⟩
    | some version => do
      storeEntry current fun config => { config with version }
      match out.description with
      | none => pure ⟨⟩
      | some description => do
        storeEntry current fun config => { config with description := some description }
        let configsLoaded ← readField .configsLoaded PdcContext.configsLoaded
        writeField .configsLoaded fun ctx => { ctx with configsLoaded := configsLoaded + 1 }
        checkListConfigCompleted

def getConfigInfoReadyIndication (out : GetConfigInfoOutput) : PdcM PUnit :=
  match out.indicationResult, out.token with
  | some 0, some token => do
    let configs ← readField .configList PdcContext.configList
    storeDetails (currentConfig configs token) out
  | _, _ => pure ⟨⟩

/-- The timeout goes as soon as there is an indication. -/
def removeTimeout : PdcM PUnit := do
  let timeoutId ← readField .timeoutId PdcContext.timeoutId
  if timeoutId ≠ 0 then writeField .timeoutId fun ctx => { ctx with timeoutId := 0 }
  else pure ⟨⟩

/-- The loop over the configurations, from entry `i` on. -/
def requestInfos : ℕ → List ConfigsElement → PdcM PUnit
  | _, [] => pure ⟨⟩
  | i, element :: elements => do
    let token ← nextToken
    updateEntry i fun config =>
      { config with token, id := element.id, configType := element.configType }
    emit (.getConfigInfo element.configType element.id token)
    requestInfos (i + 1) elements

def listConfigsReadyIndication (out : ListConfigsOutput) : PdcM PUnit := do
  removeTimeout
  match out.indicationResult, out.configs with
  | some 0, some configs => do
    writeField .configList fun ctx =>
      { ctx with configList := List.replicate configs.length ConfigInfo.zero }
    requestInfos 0 configs
    checkListConfigCompleted
  | _, _ => pure ⟨⟩

/-- Without an id, the field keeps what it held. -/
def storeActiveId : Option (List UInt8) → PdcM PUnit
  | none => pure ⟨⟩
  | some id => writeField .activeConfigId fun ctx => { ctx with activeConfigId := some id }

@[inherit_doc storeActiveId]
def storePendingId : Option (List UInt8) → PdcM PUnit
  | none => pure ⟨⟩
  | some id => writeField .pendingConfigId fun ctx => { ctx with pendingConfigId := some id }

def getSelectedConfigReadyIndication (out : GetSelectedConfigOutput) : PdcM PUnit :=
  if out.indicationResult = some 0 ∨
      out.indicationResult = some qmiProtocolErrorNotProvisioned then do
    storeActiveId out.activeId
    storePendingId out.pendingId
    writeField .idsLoaded fun ctx => { ctx with idsLoaded := true }
    checkListConfigCompleted
  else pure ⟨⟩

/-! ### Runs -/

/-- `run_list_configs`; the main loop names the timeout. -/
def runListConfigs (timeoutId : UInt32) : PdcM PUnit := do
  let token ← nextToken
  let token' ← nextToken
  writeField .timeoutId fun ctx => { ctx with timeoutId }
  emit (.listConfigs 0x01 token)
  emit (.getSelectedConfig 0x01 token')

/-- An indication. -/
inductive PdcIndication
  | listConfigs (out : ListConfigsOutput)
  | getSelectedConfig (out : GetSelectedConfigOutput)
  | getConfigInfo (out : GetConfigInfoOutput)

/-- The callback of an indication. -/
def PdcIndication.handle : PdcIndication → PdcM PUnit
  | .listConfigs out => listConfigsReadyIndication out
  | .getSelectedConfig out => getSelectedConfigReadyIndication out
  | .getConfigInfo out => getConfigInfoReadyIndication out

/-- Indications, one after the other. -/
def handleAll : List PdcIndication → PdcM PUnit
  | [] => pure ⟨⟩
  | indication :: indications => do
    indication.handle
    handleAll indications

/-- `pdc_start`, from whatever the memory of the context holds, and the indications that follow. -/
def pdcStart (timeoutId : UInt32) (indications : List PdcIndication) : PdcM PUnit := do
  runListConfigs timeoutId
  handleAll indications

end Imsd
