import Imsd.Pdc

/-!
# Reading a context that nobody has cleared

`pdc_start` allocates the context without clearing it.  `Initialized` says of a log that every read
of the list, of the counter, of the flag or of one of the two ids comes after a write to the same
field.  Both indications that `run_list_configs` asks for end in the same check, and the first
thing it reads is the counter, to which nothing is ever written but its own successor.  So
(`initialized_iff`) a run is fine if and only if neither indication has ever succeeded.

* `Passes field x`: `x` ends, and does not write the field.
* `ReadsFirst field x`: `x` reads the field before it has written it.
* `Harmless x`: `x` reads none of the five fields.
-/

namespace Imsd

open Exec

/-- The fields that must not be read before the run has written them. -/
def watched : List PdcField :=
  [.configList, .configsLoaded, .idsLoaded, .activeConfigId, .pendingConfigId]

/-- Every read of a watched field comes after a write to it. -/
def Initialized (log : List PdcAccess) : Prop :=
  ∀ pre field post, log = pre ++ .read field :: post → field ∈ watched → .write field ∈ pre

/-- The indications that reach their check: a successful list of configurations, and a successful
selected configuration. -/
def PdcIndication.Answers : PdcIndication → Prop
  | .listConfigs out => out.indicationResult = some 0 ∧ out.configs.isSome
  | .getSelectedConfig out =>
    out.indicationResult = some 0 ∨ out.indicationResult = some qmiProtocolErrorNotProvisioned
  | .getConfigInfo _ => False

/-- A successful list of configurations. -/
def PdcIndication.Lists (indication : PdcIndication) : Prop :=
  ∃ out, indication = .listConfigs out ∧ indication.Answers

/-- The orders in which indications can arrive: the details are asked for by a successful list. -/
def Arrivable (indications : List PdcIndication) : Prop :=
  ∀ pre out post, indications = pre ++ .getConfigInfo out :: post → ∃ x ∈ pre, x.Lists

/-! ### Computations that do not write a field -/

def Passes {α : Type} (field : PdcField) (x : PdcM α) : Prop :=
  ∀ s, (x s).2.res.isSome ∧ .write field ∉ (x s).2.log

namespace Passes

variable {α β : Type} {field field' : PdcField}

theorem pure (a : α) : Passes field (Pure.pure a : PdcM α) :=
  fun _ => ⟨rfl, List.not_mem_nil⟩

theorem bind {x : PdcM α} {f : α → PdcM β} (hx : Passes field x) (hf : ∀ a, Passes field (f a)) :
    Passes field (x >>= f) := by
  intro s
  obtain ⟨hres, hlog⟩ := hx s
  obtain ⟨a, ha⟩ := Option.isSome_iff_exists.1 hres
  obtain ⟨hres', hlog'⟩ := hf a (x s).1
  rw [bind_of_some ha]
  exact ⟨hres', fun h => (List.mem_append.1 h).elim hlog hlog'⟩

theorem emitAll {es : List PdcAccess} (h : .write field ∉ es) :
    Passes field (Exec.emitAll es : PdcM PUnit) :=
  fun _ => ⟨rfl, h⟩

theorem get : Passes field (Exec.get : PdcM PdcContext) := fun _ => ⟨rfl, List.not_mem_nil⟩

theorem modify (g : PdcContext → PdcContext) : Passes field (Exec.modify g : PdcM PUnit) :=
  fun _ => ⟨rfl, List.not_mem_nil⟩

theorem readField (g : PdcContext → α) : Passes field (Imsd.readField field' g) :=
  (emitAll (by simp)).bind fun _ => get.bind fun _ => pure _

theorem writeField (h : field' ≠ field) (g : PdcContext → PdcContext) :
    Passes field (Imsd.writeField field' g) :=
  (emitAll (by simpa using h.symm)).bind fun _ => modify g

theorem emit (o : PdcOutput) : Passes field (Imsd.emit o) := emitAll (by simp)

theorem updateEntry (i : ℕ) (g : ConfigInfo → ConfigInfo) : Passes field (Imsd.updateEntry i g) :=
  (emitAll (by simp)).bind fun _ => modify _

theorem nextToken (h : .token ≠ field) : Passes field Imsd.nextToken :=
  (readField _).bind fun _ => (writeField h _).bind fun _ => pure _

theorem removeTimeout (h : .timeoutId ≠ field) : Passes field Imsd.removeTimeout := by
  refine (readField _).bind fun _ => ?_
  split_ifs
  · exact writeField h _
  · exact pure _

theorem requestInfos (h : .token ≠ field) (elements : List ConfigsElement) (i : ℕ) :
    Passes field (Imsd.requestInfos i elements) := by
  induction elements generalizing i with
  | nil => exact pure _
  | cons element elements ih =>
    exact (nextToken h).bind fun _ => (updateEntry _ _).bind fun _ => (emit _).bind fun _ => ih _

theorem storeActiveId (h : .activeConfigId ≠ field) (id : Option (List UInt8)) :
    Passes field (Imsd.storeActiveId id) := by
  cases id with
  | none => exact pure _
  | some id => exact writeField h _

theorem storePendingId (h : .pendingConfigId ≠ field) (id : Option (List UInt8)) :
    Passes field (Imsd.storePendingId id) := by
  cases id with
  | none => exact pure _
  | some id => exact writeField h _

theorem runListConfigs (h : .token ≠ field) (h' : .timeoutId ≠ field) (timeoutId : UInt32) :
    Passes field (Imsd.runListConfigs timeoutId) :=
  (nextToken h).bind fun _ => (nextToken h).bind fun _ => (writeField h' _).bind fun _ =>
    (emit _).bind fun _ => emit _

end Passes

/-! ### Computations that read a field too early -/

def ReadsFirst {α : Type} (field : PdcField) (x : PdcM α) : Prop :=
  ∀ s, ∃ a b, (x s).2.log = a ++ .read field :: b ∧ .write field ∉ a

namespace ReadsFirst

variable {α β : Type} {field : PdcField}

theorem bind_left {x : PdcM α} (hx : ReadsFirst field x) (f : α → PdcM β) :
    ReadsFirst field (x >>= f) := by
  intro s
  obtain ⟨a, b, hlog, ha⟩ := hx s
  cases hres : (x s).2.res with
  | none => exact ⟨a, b, by rw [bind_of_none hres]; exact hlog, ha⟩
  | some v =>
    refine ⟨a, b ++ (f v (x s).1).2.log, ?_, ha⟩
    rw [bind_of_some hres]
    dsimp only
    rw [hlog, List.append_assoc, List.cons_append]

theorem bind_right {x : PdcM α} {f : α → PdcM β} (hx : Passes field x)
    (hf : ∀ a, ReadsFirst field (f a)) : ReadsFirst field (x >>= f) := by
  intro s
  obtain ⟨hres, hlog⟩ := hx s
  obtain ⟨v, hv⟩ := Option.isSome_iff_exists.1 hres
  obtain ⟨a, b, hlog', ha⟩ := hf v (x s).1
  refine ⟨(x s).2.log ++ a, b, ?_, fun h => (List.mem_append.1 h).elim hlog ha⟩
  rw [bind_of_some hv]
  dsimp only
  rw [hlog', List.append_assoc]

theorem readField (g : PdcContext → α) : ReadsFirst field (Imsd.readField field g) :=
  fun _ => ⟨[], [], rfl, List.not_mem_nil⟩

/-- The first thing that the check reads is the counter. -/
theorem checkListConfigCompleted : ReadsFirst .configsLoaded Imsd.checkListConfigCompleted :=
  (readField _).bind_left _

/-- An indication that reaches the check has not written the counter on the way. -/
theorem handle {indication : PdcIndication} (h : indication.Answers) :
    ReadsFirst .configsLoaded indication.handle := by
  cases indication with
  | listConfigs out =>
    obtain ⟨hresult, hconfigs⟩ := h
    obtain ⟨configs, hconfigs⟩ := Option.isSome_iff_exists.1 hconfigs
    refine bind_right (.removeTimeout (by decide)) fun _ => ?_
    rw [hresult, hconfigs]
    exact bind_right (.writeField (by decide) _) fun _ =>
      bind_right (.requestInfos (by decide) _ _) fun _ => checkListConfigCompleted
  | getSelectedConfig out =>
    have hresult : out.indicationResult = some 0 ∨
        out.indicationResult = some qmiProtocolErrorNotProvisioned := h
    rw [PdcIndication.handle, getSelectedConfigReadyIndication, if_pos hresult]
    exact bind_right (.storeActiveId (by decide) _) fun _ =>
      bind_right (.storePendingId (by decide) _) fun _ =>
      bind_right (.writeField (by decide) _) fun _ => checkListConfigCompleted
  | getConfigInfo out => exact absurd h id

end ReadsFirst

/-! ### What the primitives log -/

section Logs

variable {α : Type} {P : PdcAccess → Prop} {field : PdcField}

theorem logs_readField (h : P (.read field)) (g : PdcContext → α) : Logs P (readField field g) :=
  (Logs.emitAll (by simpa using h)).bind fun _ => Logs.get.bind fun _ => .pure _

theorem logs_writeField (h : P (.write field)) (g : PdcContext → PdcContext) :
    Logs P (writeField field g) :=
  (Logs.emitAll (by simpa using h)).bind fun _ => .modify _

theorem logs_emit {o : PdcOutput} (h : P (.out o)) : Logs P (emit o) :=
  Logs.emitAll (by simpa using h)

theorem logs_nextToken (hread : P (.read .token)) (hwrite : P (.write .token)) :
    Logs P nextToken :=
  (logs_readField hread _).bind fun _ => (logs_writeField hwrite _).bind fun _ => .pure _

end Logs

/-! ### Computations that read no watched field -/

def Harmless {α : Type} (x : PdcM α) : Prop :=
  ∀ s, ∀ field ∈ watched, .read field ∉ (x s).2.log

theorem harmless_iff {α : Type} {x : PdcM α} :
    Harmless x ↔ Logs (fun e => ∀ field ∈ watched, e ≠ .read field) x := by
  constructor
  · rintro h s e he field hfield rfl
    exact h s field hfield he
  · intro h s field hfield hmem
    exact h s _ hmem field hfield rfl

namespace Harmless

variable {α β : Type}

theorem pure (a : α) : Harmless (Pure.pure a : PdcM α) := harmless_iff.2 (.pure a)

theorem bind {x : PdcM α} {f : α → PdcM β} (hx : Harmless x) (hf : ∀ a, Harmless (f a)) :
    Harmless (x >>= f) :=
  harmless_iff.2 ((harmless_iff.1 hx).bind fun a => harmless_iff.1 (hf a))

theorem runListConfigs (timeoutId : UInt32) : Harmless (Imsd.runListConfigs timeoutId) := by
  rw [harmless_iff]
  have hnext : Logs (fun e => ∀ field ∈ watched, e ≠ .read field) nextToken :=
    logs_nextToken (by decide) (by simp)
  exact hnext.bind fun _ => hnext.bind fun _ => (logs_writeField (by simp) _).bind fun _ =>
    (logs_emit (by simp)).bind fun _ => logs_emit (by simp)

theorem removeTimeout : Harmless Imsd.removeTimeout := by
  rw [harmless_iff]
  refine (logs_readField (by decide) _).bind fun _ => ?_
  exact .ite (logs_writeField (by simp) _) (.pure _)

end Harmless

/-! ### Runs -/

/-- A list that fails does no more than remove the timeout. -/
theorem listConfigs_of_not_answers {out : ListConfigsOutput}
    (h : ¬ (PdcIndication.listConfigs out).Answers) :
    PdcIndication.handle (.listConfigs out) = removeTimeout >>= fun _ => pure ⟨⟩ := by
  rw [PdcIndication.handle, listConfigsReadyIndication]
  congr 1
  funext _
  split
  · rename_i hresult hconfigs
    exact absurd ⟨hresult, by rw [hconfigs]; rfl⟩ h
  · rfl

/-- A selected configuration that fails does nothing. -/
theorem getSelectedConfig_of_not_answers {out : GetSelectedConfigOutput}
    (h : ¬ (PdcIndication.getSelectedConfig out).Answers) :
    PdcIndication.handle (.getSelectedConfig out) = pure ⟨⟩ := by
  have hresult : ¬ (out.indicationResult = some 0 ∨
      out.indicationResult = some qmiProtocolErrorNotProvisioned) := h
  rw [PdcIndication.handle, getSelectedConfigReadyIndication, if_neg hresult]

/-- An indication that fails stops at its own checks. -/
theorem handle_of_not_answers {indication : PdcIndication} (h : ¬ indication.Answers)
    (hinfo : ∀ out, indication ≠ .getConfigInfo out) :
    Passes .configsLoaded indication.handle ∧ Harmless indication.handle := by
  cases indication with
  | listConfigs out =>
    rw [listConfigs_of_not_answers h]
    exact ⟨(Passes.removeTimeout (by decide)).bind fun _ => .pure _,
      Harmless.removeTimeout.bind fun _ => .pure _⟩
  | getSelectedConfig out =>
    rw [getSelectedConfig_of_not_answers h]
    exact ⟨.pure _, .pure _⟩
  | getConfigInfo out => exact absurd rfl (hinfo out)

section Runs

variable {indication : PdcIndication} {indications : List PdcIndication}

/-- No details come before a list does. -/
theorem Arrivable.head (h : Arrivable (indication :: indications)) (out : GetConfigInfoOutput) :
    indication ≠ .getConfigInfo out := by
  rintro rfl
  obtain ⟨x, hx, -⟩ := h [] out indications rfl
  exact absurd hx List.not_mem_nil

theorem Arrivable.tail (h : Arrivable (indication :: indications)) (hhead : ¬ indication.Answers) :
    Arrivable indications := by
  intro pre out post hsplit
  obtain ⟨x, hx, out', rfl, hanswers⟩ := h (indication :: pre) out post (by rw [hsplit]; rfl)
  rcases List.mem_cons.1 hx with rfl | hx
  · exact absurd hanswers hhead
  · exact ⟨_, hx, out', rfl, hanswers⟩

/-- Failures only. -/
theorem harmless_handleAll (h : Arrivable indications) (hall : ∀ x ∈ indications, ¬ x.Answers) :
    Harmless (handleAll indications) := by
  induction indications with
  | nil => exact .pure _
  | cons indication indications ih =>
    have hhead := hall indication List.mem_cons_self
    exact (handle_of_not_answers hhead h.head).2.bind fun _ =>
      ih (h.tail hhead) fun x hx => hall x (List.mem_cons_of_mem _ hx)

/-- The first success reads the counter, which nothing has written. -/
theorem readsFirst_handleAll (h : Arrivable indications) (hex : ∃ x ∈ indications, x.Answers) :
    ReadsFirst .configsLoaded (handleAll indications) := by
  induction indications with
  | nil => simp at hex
  | cons indication indications ih =>
    by_cases hhead : indication.Answers
    · exact (ReadsFirst.handle hhead).bind_left _
    · obtain ⟨x, hx, hanswers⟩ := hex
      rcases List.mem_cons.1 hx with rfl | hx
      · exact absurd hanswers hhead
      · exact .bind_right (handle_of_not_answers hhead h.head).1 fun _ =>
          ih (h.tail hhead) ⟨x, hx, hanswers⟩

/-- A run with a success reads the counter too early. -/
theorem not_initialized_of_answers (h : Arrivable indications) (hex : ∃ x ∈ indications, x.Answers)
    (timeoutId : UInt32) (ctx : PdcContext) :
    ¬ Initialized (pdcStart timeoutId indications ctx).2.log := by
  have hfirst : ReadsFirst .configsLoaded (pdcStart timeoutId indications) :=
    .bind_right (.runListConfigs (by decide) (by decide) _) fun _ => readsFirst_handleAll h hex
  obtain ⟨a, b, hlog, ha⟩ := hfirst ctx
  exact fun hinit => ha (hinit a .configsLoaded b hlog (by decide))

/-- **A run reads nothing too early if and only if none of its indications for the list or for the
selected configuration has succeeded**, whatever the context held and in whatever order they
came. -/
theorem initialized_iff (h : Arrivable indications) (timeoutId : UInt32) (ctx : PdcContext) :
    Initialized (pdcStart timeoutId indications ctx).2.log ↔
      ∀ x ∈ indications, ¬ x.Answers := by
  constructor
  · intro hinit x hx hanswers
    exact not_initialized_of_answers h ⟨x, hx, hanswers⟩ timeoutId ctx hinit
  · intro hall pre field post hlog hfield
    have hharmless : Harmless (pdcStart timeoutId indications) :=
      (Harmless.runListConfigs _).bind fun _ => harmless_handleAll h hall
    exact absurd (by rw [hlog]; simp) (hharmless ctx field hfield)

end Runs

/-- The modem has no configurations, or refuses to say. -/
theorem initialized_failures : Initialized (pdcStart 7
    [.getSelectedConfig ⟨some 3, none, none⟩, .listConfigs ⟨some 3, none⟩]
    ⟨0, [], 0xffff, some [1], none, true, 5⟩).2.log := by
  refine (initialized_iff (fun pre out post h => ?_) 7 _).2 (by simp [PdcIndication.Answers,
    qmiProtocolErrorNotProvisioned])
  have hmem : PdcIndication.getConfigInfo out ∈
      [.getSelectedConfig ⟨some 3, none, none⟩, .listConfigs ⟨some 3, none⟩] := by
    rw [h]
    simp
  simp at hmem

/-- One configuration, and everything succeeds. -/
theorem not_initialized : ¬ Initialized (pdcStart 7
    [.listConfigs ⟨some 0, some [⟨1, [0xaa]⟩]⟩, .getSelectedConfig ⟨some 0, none, some [0xaa]⟩,
      .getConfigInfo ⟨some 0, some 7, some 100, some 1, some "ROW_Commercial"⟩]
    ⟨0, [], 0xffff, some [1], none, true, 5⟩).2.log := by
  have hanswers : PdcIndication.Answers (.listConfigs ⟨some 0, some [⟨1, [0xaa]⟩]⟩) := ⟨rfl, rfl⟩
  refine not_initialized_of_answers (fun pre out post h => ?_)
    ⟨_, List.mem_cons_self, hanswers⟩ 7 _
  cases pre with
  | nil => simp at h
  | cons x pre =>
    obtain ⟨rfl, -⟩ := List.cons.inj h
    exact ⟨_, List.mem_cons_self, _, rfl, hanswers⟩

end Imsd
