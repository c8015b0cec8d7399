import Imsd.Lib.LockFile
import Imsd.Lib.Trace

/-!
# `imsd.c`: one instance

`main` opens `LOCK_FILE`, takes its lock without waiting for it, and goes on only if it gets it.
It gives the lock back by closing the file, and removes the name after that.

`Instances` are any number of processes, each somewhere in `main` (`MainPhase`), and the lock
file.  The events of the processes come in any order:

* `openLockFile`, `openFails`, `flock`: the start;
* `loopReturns`: the threads have been joined and the main loop returns, which closes the file
  (nothing in the code makes the loops return);
* `unlink`: `LOCK_FILE` is removed;
* `exits`: the process ends anywhere else, by `exit` in a callback or by a signal.

`running_unique` says that two processes run at once only after some process has removed the
name, and `flock_runs_iff` that until then a process is refused only while another one runs.
-/

namespace Imsd

open EventSystem

/-- `ENOENT`, `EBUSY`. -/
def enoent : ℕ := 2
@[inherit_doc enoent] def ebusy : ℕ := 16

/-- How far a process has come; it has ended with an exit status. -/
inductive MainPhase
  | starting
  | opened
  | running
  | stopped
  | ended (status : ℤ)
  deriving DecidableEq

def MainPhase.isEnded : MainPhase → Bool
  | .ended _ => true
  | _ => false

/-- The process has `LOCK_FILE` open. -/
def MainPhase.hasFile : MainPhase → Bool
  | .opened | .running => true
  | _ => false

inductive MainEvent
  | openLockFile
  | openFails
  | flock
  | loopReturns
  | unlink
  | exits (status : ℤ)
  deriving DecidableEq

/-- An event of a process. -/
structure MainLabel where
  pid : ℕ
  event : MainEvent

/-- Processes, by their numbers. -/
structure Instances where
  locks : Locks ℕ
  phase : ℕ → MainPhase

namespace Instances

def setPhase (s : Instances) (locks : Locks ℕ) (pid : ℕ) (phase : MainPhase) : Instances :=
  ⟨locks, Function.update s.phase pid phase⟩

/-- One event of a process, if it can happen. -/
def step (s : Instances) (l : MainLabel) : Option Instances :=
  match l.event, s.phase l.pid with
  | .openLockFile, .starting => some (s.setPhase (s.locks.openFile l.pid) l.pid .opened)
  | .openFails, .starting => some (s.setPhase s.locks l.pid (.ended (-(enoent : ℤ))))
  | .flock, .opened =>
    match s.locks.tryLock l.pid with
    | some locks => some (s.setPhase locks l.pid .running)
    | none => some (s.setPhase (s.locks.close l.pid) l.pid (.ended (-(ebusy : ℤ))))
  | .loopReturns, .running => some (s.setPhase (s.locks.close l.pid) l.pid .stopped)
  | .unlink, .stopped => some (s.setPhase s.locks.unlink l.pid (.ended 0))
  | .exits status, phase =>
    if phase.isEnded then none
    else some (s.setPhase (s.locks.close l.pid) l.pid (.ended status))
  | _, _ => none

def Step (s : Instances) (l : MainLabel) (s' : Instances) : Prop := s.step l = some s'

/-- No process has begun; `LOCK_FILE` may be there from before. -/
def Initial (s : Instances) : Prop :=
  (∀ p, s.phase p = .starting) ∧ (∀ p, s.locks.file p = none) ∧ (∀ i, s.locks.holder i = none) ∧
    ∀ i, s.locks.name = some i → i < s.locks.next

/-- What an event does. -/
inductive StepCases (s : Instances) (p : ℕ) : MainEvent → Instances → Prop
  | openLockFile : s.phase p = .starting →
      StepCases s p .openLockFile (s.setPhase (s.locks.openFile p) p .opened)
  | openFails : s.phase p = .starting →
      StepCases s p .openFails (s.setPhase s.locks p (.ended (-(enoent : ℤ))))
  | locked {locks : Locks ℕ} : s.phase p = .opened → s.locks.tryLock p = some locks →
      StepCases s p .flock (s.setPhase locks p .running)
  | refused : s.phase p = .opened → s.locks.tryLock p = none →
      StepCases s p .flock (s.setPhase (s.locks.close p) p (.ended (-(ebusy : ℤ))))
  | loopReturns : s.phase p = .running →
      StepCases s p .loopReturns (s.setPhase (s.locks.close p) p .stopped)
  | unlink : s.phase p = .stopped → StepCases s p .unlink (s.setPhase s.locks.unlink p (.ended 0))
  | exits {status : ℤ} : (s.phase p).isEnded = false →
      StepCases s p (.exits status) (s.setPhase (s.locks.close p) p (.ended status))

theorem step_cases {s s' : Instances} {l : MainLabel} (h : s.Step l s') :
    StepCases s l.pid l.event s' := by
  obtain ⟨p, event⟩ := l
  unfold Step step at h
  dsimp only at h ⊢
  split at h
  · cases h
    exact .openLockFile ‹_›
  · cases h
    exact .openFails ‹_›
  · split at h
    · cases h
      exact .locked ‹_› ‹_›
    · cases h
      exact .refused ‹_› ‹_›
  · cases h
    exact .loopReturns ‹_›
  · cases h
    exact .unlink ‹_›
  · split_ifs at h with hended
    cases h
    exact .exits (by simpa using hended)
  · cases h

/-- A step, with the event as its label. -/
def labelled (s : Instances) (l : MainLabel) : Option (Instances × MainLabel) :=
  (s.step l).map fun s' => (s', l)

/-- No process has begun, and there is no `LOCK_FILE`. -/
def fresh : Instances := ⟨⟨none, 0, fun _ => none, fun _ => none⟩, fun _ => .starting⟩

theorem initial_fresh : fresh.Initial := ⟨fun _ => rfl, fun _ => rfl, fun _ => rfl, nofun⟩

/-- The runs that were simulated. -/
theorem run_of_simulate {labels : List MainLabel} {r : List MainLabel × Instances}
    (h : simulate labelled (fun _ _ _ => true) [] fresh labels = some r) :
    Run Initial Step unguarded r.1 r.2 := by
  refine (Run.start initial_fresh).simulate h fun tr s l s' l' hs _ => ⟨trivial, ?_⟩
  obtain ⟨_, hstep, hl⟩ := Option.map_eq_some_iff.1 hs
  cases hl
  exact hstep

end Instances

/-! ### Runs -/

/-- No process has removed the name. -/
def NameKept (tr : List MainLabel) : Prop := ∀ l ∈ tr, l.event ≠ .unlink

/-- What holds in every run: the processes with the file open are those between its opening and
its closing, and those that run hold its lock. -/
structure InstancesInv (tr : List MainLabel) (s : Instances) : Prop where
  valid : s.locks.Valid
  file : ∀ p, (s.locks.file p).isSome = (s.phase p).hasFile
  holds : ∀ p, s.locks.Holds p ↔ s.phase p = .running
  named : NameKept tr → s.locks.Named

namespace InstancesInv

variable {tr : List MainLabel} {s s' : Instances} {l : MainLabel}

theorem file_eq_none (h : InstancesInv tr s) {p : ℕ} (hp : (s.phase p).hasFile = false) :
    s.locks.file p = none := by
  have hfile := h.file p
  rw [hp] at hfile
  simpa using hfile

/-- What has to be shown for an event of a process: it leaves the others alone. -/
theorem snoc (h : InstancesInv tr s) {locks : Locks ℕ} {phase : MainPhase}
    (hvalid : locks.Valid) (hfile : (locks.file l.pid).isSome = phase.hasFile)
    (hholds : locks.Holds l.pid ↔ phase = .running)
    (hothers : ∀ q, q ≠ l.pid → locks.file q = s.locks.file q ∧
      (locks.Holds q ↔ s.locks.Holds q))
    (hnamed : l.event ≠ .unlink → s.locks.Named → locks.Named) :
    InstancesInv (tr ++ [l]) (s.setPhase locks l.pid phase) where
  valid := hvalid
  file q := by
    by_cases hq : q = l.pid
    · subst hq
      simpa [Instances.setPhase] using hfile
    · simpa [Instances.setPhase, hq, (hothers q hq).1] using h.file q
  holds q := by
    by_cases hq : q = l.pid
    · subst hq
      simpa [Instances.setPhase] using hholds
    · have hother := (hothers q hq).2.trans (h.holds q)
      simpa [Instances.setPhase, hq] using hother
  named hkept := by
    rw [NameKept, List.forall_mem_append, List.forall_mem_singleton] at hkept
    exact hnamed hkept.2 (h.named hkept.1)

/-- The file is closed, if it was open. -/
theorem close (h : InstancesInv tr s) {phase : MainPhase} (hphase : phase.hasFile = false) :
    InstancesInv (tr ++ [l]) (s.setPhase (s.locks.close l.pid) l.pid phase) := by
  have hclosed : (s.locks.close l.pid).file l.pid = none := Locks.file_close_self ..
  refine h.snoc (h.valid.close _) (by rw [hclosed, hphase]; rfl) ?_ (fun q hq => ⟨?_, ?_⟩)
    fun _ hnamed => hnamed.close _
  · refine iff_of_false (Locks.not_holds_of_closed hclosed) ?_
    rintro rfl
    cases hphase
  · exact Locks.file_close_of_ne _ hq
  · exact Locks.holds_close_iff.trans (and_iff_right hq)

/-- **One event.** -/
theorem step (h : InstancesInv tr s) (hs : s.Step l s') : InstancesInv (tr ++ [l]) s' := by
  obtain ⟨p, event⟩ := l
  cases Instances.step_cases hs with
  | openLockFile hphase =>
    have hnone : s.locks.file p = none := h.file_eq_none (by rw [hphase]; rfl)
    have hopens : ∀ q, (s.locks.openFile p).Holds q ↔ s.locks.Holds q :=
      fun q => Locks.holds_openFile_iff h.valid hnone
    refine h.snoc (h.valid.openFile hnone) (by simp [MainPhase.hasFile]) ?_
      (fun q hq => ⟨Locks.file_openFile_of_ne _ hq, hopens q⟩) fun _ hnamed => hnamed.openFile p
    rw [hopens, h.holds, hphase]
    simp
  | openFails hphase =>
    have hnone : s.locks.file p = none := h.file_eq_none (by rw [hphase]; rfl)
    refine h.snoc h.valid (by rw [hnone]; rfl) ?_ (fun q _ => ⟨rfl, Iff.rfl⟩) fun _ hnamed => hnamed
    exact iff_of_false (Locks.not_holds_of_closed hnone) (by simp)
  | @locked locks hphase hlock =>
    obtain ⟨i, hfile, -, rfl⟩ := Locks.tryLock_eq_some_iff.1 hlock
    refine h.snoc (h.valid.tryLock hlock) (by simp [hfile, MainPhase.hasFile]) ?_
      (fun q hq => ⟨rfl, ?_⟩) fun _ hnamed => hnamed.tryLock hlock
    · exact iff_of_true ((Locks.holds_tryLock_iff hlock).2 (Or.inl rfl)) rfl
    · exact (Locks.holds_tryLock_iff hlock).trans (or_iff_right hq)
  | refused hphase hlock => exact h.close rfl
  | loopReturns hphase => exact h.close rfl
  | unlink hphase =>
    have hnone : s.locks.file p = none := h.file_eq_none (by rw [hphase]; rfl)
    refine h.snoc h.valid.unlink (by simp [Locks.unlink, hnone, MainPhase.hasFile]) ?_
      (fun q _ => ⟨rfl, Iff.rfl⟩) fun hne => absurd rfl hne
    exact iff_of_false (Locks.not_holds_of_closed hnone) (by simp)
  | exits hphase => exact h.close rfl

/-- **A whole run.** -/
theorem of_run (hr : Run Instances.Initial Instances.Step unguarded tr s) :
    InstancesInv tr s := by
  refine Run.inv InstancesInv ?_ (fun tr s l s' _ h _ hs => h.step hs) hr
  rintro s ⟨hphase, hfile, hholder, hname⟩
  refine ⟨Locks.valid_of_closed hname hfile hholder, fun p => ?_, fun p => ?_,
    fun _ => Locks.named_of_closed hfile⟩
  · rw [hfile, hphase]
    rfl
  · rw [hphase]
    exact iff_of_false (Locks.not_holds_of_closed (hfile p)) (by simp)

end InstancesInv

/-- **Two processes run at once only after the name has been removed.** -/
theorem running_unique {tr : List MainLabel} {s : Instances}
    (hr : Run Instances.Initial Instances.Step unguarded tr s) {p q : ℕ} (hne : p ≠ q)
    (hp : s.phase p = .running) (hq : s.phase q = .running) : ∃ l ∈ tr, l.event = .unlink := by
  have h := InstancesInv.of_run hr
  by_contra hkept
  push Not at hkept
  exact hne ((h.named hkept).eq_of_holds ((h.holds p).2 hp) ((h.holds q).2 hq))

/-- The first process gives the lock back to the second, and removes the name after that. -/
theorem running_unique_unlinked : ∃ tr s, Run Instances.Initial Instances.Step unguarded tr s ∧
    s.phase 1 = .running ∧ s.phase 2 = .running ∧ ∃ l ∈ tr, l.event = .unlink := by
  have h : (simulate Instances.labelled (fun _ _ _ => true) [] Instances.fresh
      [⟨0, .openLockFile⟩, ⟨0, .flock⟩, ⟨1, .openLockFile⟩, ⟨0, .loopReturns⟩, ⟨1, .flock⟩,
        ⟨0, .unlink⟩, ⟨2, .openLockFile⟩, ⟨2, .flock⟩]).any
      fun r => decide (r.2.phase 1 = .running ∧ r.2.phase 2 = .running) := by
    decide +kernel
  obtain ⟨r, hr, hrunning⟩ := (Option.any_eq_true _ _).1 h
  obtain ⟨h₁, h₂⟩ := of_decide_eq_true hrunning
  have hrun := Instances.run_of_simulate hr
  exact ⟨r.1, r.2, hrun, h₁, h₂, running_unique hrun (by decide) h₁ h₂⟩

/-- **Until then, a process gets the lock if and only if no process runs**; otherwise it ends with
`EBUSY`. -/
theorem flock_runs_iff {tr : List MainLabel} {s s' : Instances}
    (hr : Run Instances.Initial Instances.Step unguarded tr s) (hkept : NameKept tr) {p : ℕ}
    (hs : s.Step ⟨p, .flock⟩ s') :
    (s'.phase p = .running ↔ ∀ q, s.phase q ≠ .running) ∧
      (s'.phase p ≠ .running → s'.phase p = .ended (-(ebusy : ℤ))) := by
  have h := InstancesInv.of_run hr
  cases Instances.step_cases hs with
  | @locked locks hphase hlock =>
    have hrunning : (s.setPhase locks p .running).phase p = .running := Function.update_self ..
    refine ⟨iff_of_true hrunning fun q hq => ?_, fun hne => absurd hrunning hne⟩
    obtain ⟨i, hfile, hfree, -⟩ := Locks.tryLock_eq_some_iff.1 hlock
    obtain ⟨j, hj, hholder⟩ := (h.holds q).2 hq
    have hij : some i = some j :=
      (h.named hkept p i hfile).symm.trans (h.named hkept q j hj)
    cases hij
    rw [hfree] at hholder
    cases hholder
  | refused hphase hlock =>
    have hended : (s.setPhase (s.locks.close p) p (.ended (-(ebusy : ℤ)))).phase p =
        .ended (-(ebusy : ℤ)) := Function.update_self ..
    refine ⟨iff_of_false (by rw [hended]; simp) fun hnone => ?_, fun _ => hended⟩
    have hfile := h.file p
    rw [hphase] at hfile
    obtain ⟨i, hi⟩ := Option.isSome_iff_exists.1 hfile
    obtain ⟨q, -, hq⟩ := (h.valid.tryLock_eq_none_iff hi).1 hlock
    exact hnone q ((h.holds q).1 hq)

/-- A second process is refused while the first one runs. -/
theorem flock_runs_iff_second : ∃ tr s s', Run Instances.Initial Instances.Step unguarded tr s ∧
    NameKept tr ∧ s.Step ⟨1, .flock⟩ s' ∧ s'.phase 1 = .ended (-(ebusy : ℤ)) := by
  have h : (simulate Instances.labelled (fun _ _ _ => true) [] Instances.fresh
      [⟨0, .openLockFile⟩, ⟨0, .flock⟩, ⟨1, .openLockFile⟩]).any fun r =>
        decide (r.1.map MainLabel.event = [.openLockFile, .flock, .openLockFile] ∧
          r.2.phase 0 = .running ∧ (r.2.step ⟨1, .flock⟩).isSome) := by
    decide +kernel
  obtain ⟨r, hr, hr'⟩ := (Option.any_eq_true _ _).1 h
  obtain ⟨hevents, hfirst, hsome⟩ := of_decide_eq_true hr'
  obtain ⟨s', hs⟩ := Option.isSome_iff_exists.1 hsome
  have hkept : NameKept r.1 := by
    intro l hl
    have hevent : l.event ∈ r.1.map MainLabel.event := List.mem_map_of_mem hl
    rw [hevents] at hevent
    rintro hunlink
    rw [hunlink] at hevent
    simp at hevent
  have hrun := Instances.run_of_simulate hr
  obtain ⟨hiff, hended⟩ := flock_runs_iff hrun hkept hs
  exact ⟨r.1, r.2, s', hrun, hkept, hs, hended fun hruns => hiff.1 hruns 0 hfirst⟩

end Imsd
