import Imsd.Lib.Descent
import Imsd.McfgReport

/-!
# `pdc_locate.c`: scanning a directory

`loop_through_directory` goes through a directory and, by recursion, through those below it.  It
runs `check_file_header` over every regular file `mcfg_sw.mbn` and appends what that reports to an
array; `scan_pdc_mcfgs` prints the array.

* A `FileSystem` says what the enumerator of a folder delivers, until it is done or fails, and
  what a file holds.  It does not change during the scan.
* The global variables of `pdc_locate.c` live on from one file to the next (`Scan`).
* The memory behind the buffers of a file and of its name is `heap`: each file that is looked at
  has some of its own, and the same file may have another one the next time.
* A file may kill the process, and the scan with it (`ScanEnd.killed`).
* The recursion follows whatever the enumerator calls a directory, so it has a fuel.

`loopThroughDirectory_of_leaves` takes the scan apart: it looks at the files in depth-first order
(`Descent.leaves`) and reports on each of them alone (`FileSystem.report`), whatever the files
before it have left in the global variables (`checkFile_eq`).
-/

namespace Imsd

open Bytes Exec

/-! ### Data -/

/-- `GFileType`, as far as it is told apart. -/
inductive GFileType
  | directory
  | regular
  | other
  deriving DecidableEq

/-- `GFileInfo`, with the attributes that are asked for. -/
structure GFileInfo where
  name : String
  type : GFileType
  deriving DecidableEq

/-- A path, by its components. -/
abbrev PathName := List String

/-- The name of a software configuration. -/
def mcfgSwMbn : String := "mcfg_sw.mbn"

/-- What the scan meets: the entries that the enumerator of a folder delivers, if the folder can
be opened, and the bytes of a file, if it can be.  No folder has two entries with one name. -/
structure FileSystem where
  enumerate : PathName → Option (List GFileInfo)
  contents : PathName → Option (List UInt8)
  nodup_names : ∀ folder, ∀ infos ∈ enumerate folder, (infos.map GFileInfo.name).Nodup

/-- `FileInfo`. -/
structure FileInfo where
  path : PathName
  isValid : Bool
  mcc : UInt8
  mnc : UInt8
  carrierId : UInt32
  internalName : List UInt8
  deriving DecidableEq

/-- The global variables, and the array `file_infos`. -/
structure Scan where
  globals : LocateState
  fileInfos : List FileInfo

/-- How a scan ends without a table: it goes deeper than the fuel, or a file kills the process. -/
inductive ScanEnd
  | deeper
  | killed
  deriving DecidableEq

/-- What lies in memory behind the buffer of a file, and behind that of its name. -/
structure Behind where
  buffer : List UInt8
  name : List UInt8

/-- What `check_file_header` has reported on a file.  A name that fills its buffer goes on in what
lies behind. -/
def LocateState.fileInfo (s : LocateState) (path : PathName) (behind : List UInt8) : FileInfo :=
  ⟨path, s.isValid, s.mcc, s.mnc, s.carrierId, cString (s.internalName ++ behind)⟩

/-- The variables of one round of the loop: they are cleared, the buffer of the name, too. -/
def LocateState.localsCleared (s : LocateState) : LocateState :=
  { s with isValid := false, mcc := 0, mnc := 0, carrierId := 0,
           internalName := List.replicate 128 0 }

/-- What a run of `check_file_header` reports on a file, if it returns. -/
def reportOf (run : LocateState × Traced LocateAccess PUnit) (path : PathName)
    (behind : List UInt8) : Option FileInfo :=
  run.2.res.map fun _ => run.1.fileInfo path behind

/-- Append a row to the array, if `check_file_header` has returned. -/
def Scan.append (s : Scan) (filePath : PathName) (behind : List UInt8)
    (run : LocateState × Traced LocateAccess PUnit) : Except ScanEnd Scan :=
  match reportOf run filePath behind with
  | none => .error .killed
  | some info => .ok ⟨run.1, s.fileInfos ++ [info]⟩

namespace FileSystem

variable (fs : FileSystem) (heap : ℕ → Behind)

/-! ### The scan -/

/-- The round of the loop for a file `mcfg_sw.mbn`; `heap i` is what lies behind the buffers of file
`i` of them. -/
def checkFile (s : Scan) (filePath : PathName) : Except ScanEnd Scan :=
  let behind := heap s.fileInfos.length
  s.append filePath behind.name
    (checkFileHeader (fs.contents filePath) behind.buffer s.globals.localsCleared)

/-- `loop_through_directory`. -/
def loopThroughDirectory : ℕ → PathName → Scan → Except ScanEnd Scan
  | 0, _, _ => .error .deeper
  | fuel + 1, path, s =>
    match fs.enumerate path with
    | none => .ok s
    | some infos => infos.foldlM (fun s info =>
      let child := path ++ [info.name]
      match info.type with
      | .directory => loopThroughDirectory fuel child s
      | .regular => if info.name = mcfgSwMbn then fs.checkFile heap s child else .ok s
      | .other => .ok s) s

/-- `scan_pdc_mcfgs`: the rows that it prints. -/
def scanPdcMcfgs (fuel : ℕ) (directory : PathName) (globals : LocateState) :
    Except ScanEnd (List FileInfo) :=
  (fs.loopThroughDirectory heap fuel directory ⟨globals, []⟩).map Scan.fileInfos

/-! ### One file -/

/-- The report on a file by itself, if the process survives it. -/
def report (behind : Behind) (filePath : PathName) : Option FileInfo :=
  reportOf (checkFileHeader (fs.contents filePath) behind.buffer .initial) filePath behind.name

end FileSystem

/-! ### What is reported on a file -/

/-- The report on a file depends on the file and on the buffer of the name only: the other global
variables are written before they are read. -/
theorem fileInfo_congr {buf : FileBuffer} (hsurvived : buf.Accepted → buf.WalkSurvived)
    (path : PathName) (behind : List UInt8) {s t : LocateState}
    (hname : s.internalName = t.internalName) :
    LocateState.fileInfo (checkBuffer buf s.cleared).1 path behind =
      LocateState.fileInfo (checkBuffer buf t.cleared).1 path behind := by
  have heq : ∀ {s' t' : LocateState}, s'.isValid = t'.isValid → s'.carrierId = t'.carrierId →
      s'.found = t'.found → s'.fileInfo path behind = t'.fileInfo path behind := by
    intro s' t' hvalid hcarrier hfound
    unfold LocateState.fileInfo
    rw [hvalid, hcarrier, show s'.mcc = t'.mcc from congrArg Found.mcc hfound,
      show s'.mnc = t'.mnc from congrArg Found.mnc hfound,
      show s'.internalName = t'.internalName from congrArg Found.internalName hfound]
  by_cases haccepted : buf.Accepted
  · by_cases hknown : ∀ k < buf.noOfItems % 65536, buf.KnownItem k
    · obtain ⟨s', ⟨rfl, -, -⟩, hvalid, hcarrier, hfound⟩ :=
        checkBuffer_walked ⟨haccepted, hknown⟩ (hsurvived haccepted) s
      obtain ⟨t', ⟨rfl, -, -⟩, hvalid', hcarrier', hfound'⟩ :=
        checkBuffer_walked ⟨haccepted, hknown⟩ (hsurvived haccepted) t
      exact heq (hvalid.trans hvalid'.symm) (hcarrier.trans hcarrier'.symm)
        (by rw [hfound, hfound', hname])
    · obtain ⟨j, hj, hbefore, hunknown⟩ := buf.exists_first_unknown hknown
      obtain ⟨s', ⟨rfl, -, -⟩, hvalid, hcarrier, hfound⟩ :=
        checkBuffer_unknown haccepted (hsurvived haccepted) hj hbefore hunknown s
      obtain ⟨t', ⟨rfl, -, -⟩, hvalid', hcarrier', hfound'⟩ :=
        checkBuffer_unknown haccepted (hsurvived haccepted) hj hbefore hunknown t
      exact heq (hvalid.trans hvalid'.symm) (hcarrier.trans hcarrier'.symm)
        (by rw [hfound, hfound', hname])
  · obtain ⟨s', ⟨rfl, -, -⟩, hfound, hvalid, hcarrier⟩ := checkBuffer_walks haccepted s.cleared
    obtain ⟨t', ⟨rfl, -, -⟩, hfound', hvalid', hcarrier'⟩ := checkBuffer_walks haccepted t.cleared
    refine heq (hvalid.trans hvalid'.symm) (hcarrier.trans hcarrier'.symm) ?_
    rw [hfound, hfound']
    exact congrArg (Found.mk 0 0) hname

/-- So does whether the process survives it. -/
theorem reportOf_congr (file : Option (List UInt8)) (rest : List UInt8) (path : PathName)
    (behind : List UInt8) {s t : LocateState} (hname : s.internalName = t.internalName) :
    reportOf (checkFileHeader file rest s) path behind =
      reportOf (checkFileHeader file rest t) path behind := by
  cases file with
  | none =>
    have hcleared : s.cleared.fileInfo path behind = t.cleared.fileInfo path behind := by
      show FileInfo.mk _ _ _ _ _ (cString (s.internalName ++ behind)) = _
      rw [hname]
      rfl
    exact congrArg some hcleared
  | some file =>
    rw [checkFileHeader_some, checkFileHeader_some]
    generalize FileBuffer.read file rest = buf
    have hs : (checkBuffer buf s.cleared).2.res = some ⟨⟩ ↔ _ := checkBuffer_returns_iff s
    have ht : (checkBuffer buf t.cleared).2.res = some ⟨⟩ ↔ _ := checkBuffer_returns_iff t
    unfold reportOf
    by_cases hsurvived : buf.Accepted → buf.WalkSurvived
    · rw [hs.2 hsurvived, ht.2 hsurvived]
      exact congrArg some (fileInfo_congr hsurvived path behind hname)
    · have hs' : (checkBuffer buf s.cleared).2.res = none :=
        Option.eq_none_iff_forall_ne_some.2 fun _ h => hsurvived (hs.1 h)
      have ht' : (checkBuffer buf t.cleared).2.res = none :=
        Option.eq_none_iff_forall_ne_some.2 fun _ h => hsurvived (ht.1 h)
      rw [hs', ht']
      rfl

namespace FileSystem

variable (fs : FileSystem) (heap : ℕ → Behind)

/-- A file is reported on as if it were the only one. -/
theorem checkFile_eq (s : Scan) (filePath : PathName) :
    (fs.checkFile heap s filePath).map Scan.fileInfos =
      match fs.report (heap s.fileInfos.length) filePath with
      | none => .error .killed
      | some info => .ok (s.fileInfos ++ [info]) := by
  have hreport : fs.report (heap s.fileInfos.length) filePath = reportOf (checkFileHeader
      (fs.contents filePath) (heap s.fileInfos.length).buffer s.globals.localsCleared) filePath
        (heap s.fileInfos.length).name := reportOf_congr _ _ _ _ rfl
  rw [hreport, checkFile, Scan.append]
  cases reportOf (checkFileHeader (fs.contents filePath) (heap s.fileInfos.length).buffer
    s.globals.localsCleared) filePath (heap s.fileInfos.length).name with
  | none => rfl
  | some info => rfl

variable {fs heap}

theorem report_path {behind : Behind} {filePath : PathName} {info : FileInfo}
    (h : fs.report behind filePath = some info) : info.path = filePath := by
  obtain ⟨-, -, rfl⟩ := Option.map_eq_some_iff.1 h
  rfl

/-- The files of a scan that the process survives have a row each, in order. -/
theorem rows_of_foldlM {files : List PathName} {s s' : Scan}
    (h : files.foldlM (fs.checkFile heap) s = .ok s') : ∃ rows,
      s'.fileInfos = s.fileInfos ++ rows ∧ rows.map FileInfo.path = files ∧
      ∀ i row, rows[i]? = some row →
        fs.report (heap (s.fileInfos.length + i)) row.path = some row := by
  induction files generalizing s with
  | nil =>
    cases h
    exact ⟨[], by simp⟩
  | cons file files ih =>
    rw [List.foldlM_cons] at h
    have hfile := fs.checkFile_eq heap s file
    cases hcheck : fs.checkFile heap s file with
    | error e =>
      rw [hcheck] at h
      cases h
    | ok s₁ =>
      rw [hcheck] at h hfile
      cases hreport : fs.report (heap s.fileInfos.length) file with
      | none =>
        rw [hreport] at hfile
        cases hfile
      | some info =>
        rw [hreport] at hfile
        have hinfos : s₁.fileInfos = s.fileInfos ++ [info] := Except.ok.inj hfile
        obtain ⟨rows, hrows, hpaths, hreports⟩ := ih h
        have hpath := report_path hreport
        refine ⟨info :: rows, ?_, ?_, fun i row hrow => ?_⟩
        · rw [hrows, hinfos, List.append_assoc]
          rfl
        · rw [List.map_cons, hpath, hpaths]
        · cases i with
          | zero =>
            cases hrow
            rw [hpath]
            exact hreport
          | succ i =>
            have hlater := hreports i row hrow
            rw [hinfos, List.length_append, List.length_singleton] at hlater
            rwa [Nat.add_assoc, Nat.add_comm 1 i] at hlater

/-- The process survives a scan of files that it survives, whatever the memory is. -/
theorem exists_foldlM_of_reports (heap : ℕ → Behind) {files : List PathName}
    (h : ∀ file ∈ files, ∀ behind, (fs.report behind file).isSome) (s : Scan) :
    ∃ s', files.foldlM (fs.checkFile heap) s = .ok s' := by
  induction files generalizing s with
  | nil => exact ⟨s, rfl⟩
  | cons file files ih =>
    obtain ⟨hfirst, hrest⟩ := List.forall_mem_cons.1 h
    obtain ⟨info, hinfo⟩ := Option.isSome_iff_exists.1 (hfirst (heap s.fileInfos.length))
    have hfile := fs.checkFile_eq heap s file
    rw [hinfo] at hfile
    cases hcheck : fs.checkFile heap s file with
    | error e =>
      rw [hcheck] at hfile
      cases hfile
    | ok s₁ =>
      rw [List.foldlM_cons, hcheck]
      exact ih hrest s₁

/-- Looking at files does not go deeper. -/
theorem foldlM_checkFile_ne_deeper (files : List PathName) (s : Scan) :
    files.foldlM (fs.checkFile heap) s ≠ .error .deeper := by
  induction files generalizing s with
  | nil => exact fun h => nomatch h
  | cons file files ih =>
    rw [List.foldlM_cons]
    have hfile := fs.checkFile_eq heap s file
    cases hcheck : fs.checkFile heap s file with
    | error e =>
      rw [hcheck] at hfile
      rintro h
      cases h
      cases hreport : fs.report (heap s.fileInfos.length) file <;> rw [hreport] at hfile <;>
        cases hfile
    | ok s₁ => exact ih s₁

variable (fs heap)

/-! ### The files in order -/

/-- What an entry of a folder is to the scan: a folder to go down, a file to look at, or
nothing. -/
def child? (folder : PathName) (info : GFileInfo) : Option (PathName ⊕ PathName) :=
  match info.type with
  | .directory => some (.inl (folder ++ [info.name]))
  | .regular => if info.name = mcfgSwMbn then some (.inr (folder ++ [info.name])) else none
  | .other => none

theorem child?_eq_some_iff {folder : PathName} {info : GFileInfo} {x : PathName ⊕ PathName} :
    child? folder info = some x ↔
      (info.type = .directory ∧ x = .inl (folder ++ [info.name])) ∨
        (info.type = .regular ∧ info.name = mcfgSwMbn ∧ x = .inr (folder ++ [info.name])) := by
  obtain ⟨name, type⟩ := info
  cases type with
  | directory => simp [child?, eq_comm]
  | regular =>
    by_cases hname : name = mcfgSwMbn
    · simp [child?, hname, eq_comm]
    · simp [child?, hname]
  | other => simp [child?]

def children (folder : PathName) : List (PathName ⊕ PathName) :=
  ((fs.enumerate folder).getD []).filterMap (child? folder)

/-- The loop over the entries of a folder is one over its children. -/
theorem loopThroughDirectory_succ (n : ℕ) (path : PathName) (s : Scan) :
    fs.loopThroughDirectory heap (n + 1) path s = (fs.children path).foldlM
      (fun s x => x.elim (fs.loopThroughDirectory heap n · s) (fs.checkFile heap s)) s := by
  rw [loopThroughDirectory, children]
  cases fs.enumerate path with
  | none => rfl
  | some infos =>
    rw [Option.getD_some, List.foldlM_filterMap]
    dsimp only
    congr 1
    funext s info
    obtain ⟨name, type⟩ := info
    cases type with
    | directory => rfl
    | regular =>
      unfold child?
      dsimp only
      split_ifs <;> rfl
    | other => rfl

/-- The scan goes through the files in depth-first order. -/
theorem loopThroughDirectory_of_leaves {n : ℕ} {path : PathName} {files : List PathName}
    (h : Descent.leaves fs.children n path = some files) (s : Scan) :
    fs.loopThroughDirectory heap n path s = files.foldlM (fs.checkFile heap) s := by
  induction n generalizing path files s with
  | zero => cases h
  | succ n ih =>
    rw [loopThroughDirectory_succ]
    exact Descent.foldlM_of_gather (fun a l hl s => ih hl s) h s

/-- A scan that gets to its end has enough fuel. -/
theorem isSome_leaves_of_loop {n : ℕ} {path : PathName} {s s' : Scan}
    (h : fs.loopThroughDirectory heap n path s = .ok s') :
    (Descent.leaves fs.children n path).isSome := by
  induction n generalizing path s s' with
  | zero => cases h
  | succ n ih =>
    rw [loopThroughDirectory_succ] at h
    have hdown (a : PathName) (s s' : Scan)
        (h : fs.loopThroughDirectory heap n a s = .ok s') := ih h
    exact Descent.isSome_gather_of_foldlM hdown h

variable {fs heap}

/-- The rows of a table are the reports on the files, in order. -/
theorem rows_of_scan {n : ℕ} {directory : PathName} {globals : LocateState}
    {rows : List FileInfo} (h : fs.scanPdcMcfgs heap n directory globals = .ok rows) :
    Descent.leaves fs.children n directory = some (rows.map FileInfo.path) ∧
      ∀ i row, rows[i]? = some row → fs.report (heap i) row.path = some row := by
  rw [scanPdcMcfgs] at h
  cases hloop : fs.loopThroughDirectory heap n directory ⟨globals, []⟩ with
  | error e =>
    rw [hloop] at h
    cases h
  | ok s' =>
    rw [hloop] at h
    cases h
    obtain ⟨files, hfiles⟩ := Option.isSome_iff_exists.1 (fs.isSome_leaves_of_loop heap hloop)
    rw [fs.loopThroughDirectory_of_leaves heap hfiles] at hloop
    obtain ⟨rows, hrows, hpaths, hreports⟩ := rows_of_foldlM hloop
    have hinfos : s'.fileInfos = rows := hrows
    rw [hfiles, hinfos, hpaths]
    refine ⟨rfl, fun i row hrow => ?_⟩
    have hreport := hreports i row hrow
    rwa [List.length_nil, Nat.zero_add] at hreport

/-- A scan of files that the process survives prints a table. -/
theorem exists_rows (heap : ℕ → Behind) {n : ℕ} {directory : PathName}
    {files : List PathName} (hfiles : Descent.leaves fs.children n directory = some files)
    (h : ∀ file ∈ files, ∀ behind, (fs.report behind file).isSome) (globals : LocateState) :
    ∃ rows, fs.scanPdcMcfgs heap n directory globals = .ok rows := by
  obtain ⟨s', hs'⟩ := exists_foldlM_of_reports heap h ⟨globals, []⟩
  refine ⟨s'.fileInfos, ?_⟩
  rw [scanPdcMcfgs, fs.loopThroughDirectory_of_leaves heap hfiles, hs']
  rfl

variable (fs)

/-! ### What lies below a folder -/

/-- The enumerator of a folder delivers an entry. -/
def Lists (folder : PathName) (info : GFileInfo) : Prop :=
  ∃ infos ∈ fs.enumerate folder, info ∈ infos

/-- `sub` is a folder right below another one. -/
def Subfolder (sub folder : PathName) : Prop :=
  ∃ name, fs.Lists folder ⟨name, .directory⟩ ∧ sub = folder ++ [name]

/-- The scan of `folder` comes to `sub`. -/
def Reaches (folder sub : PathName) : Prop :=
  Relation.ReflTransGen (fun folder sub => fs.Subfolder sub folder) folder sub

variable {fs} {folder : PathName}

theorem mem_children_iff {x : PathName ⊕ PathName} :
    x ∈ fs.children folder ↔ ∃ info, fs.Lists folder info ∧ child? folder info = some x := by
  rw [children, List.mem_filterMap]
  unfold Lists
  cases fs.enumerate folder with
  | none => simp
  | some infos => simp

theorem inl_mem_children_iff {sub : PathName} :
    .inl sub ∈ fs.children folder ↔ fs.Subfolder sub folder := by
  rw [mem_children_iff]
  constructor
  · rintro ⟨⟨name, type⟩, hlists, hchild⟩
    rcases child?_eq_some_iff.1 hchild with ⟨rfl, hsub⟩ | ⟨-, -, hsub⟩
    · exact ⟨name, hlists, Sum.inl.inj hsub⟩
    · cases hsub
  · rintro ⟨name, hlists, rfl⟩
    exact ⟨_, hlists, child?_eq_some_iff.2 (Or.inl ⟨rfl, rfl⟩)⟩

theorem inr_mem_children_iff {file : PathName} : .inr file ∈ fs.children folder ↔
    fs.Lists folder ⟨mcfgSwMbn, .regular⟩ ∧ file = folder ++ [mcfgSwMbn] := by
  rw [mem_children_iff]
  constructor
  · rintro ⟨⟨name, type⟩, hlists, hchild⟩
    rcases child?_eq_some_iff.1 hchild with ⟨-, hfile⟩ | ⟨rfl, rfl, hfile⟩
    · cases hfile
    · exact ⟨hlists, Sum.inr.inj hfile⟩
  · rintro ⟨hlists, rfl⟩
    exact ⟨_, hlists, child?_eq_some_iff.2 (Or.inr ⟨rfl, rfl, rfl⟩)⟩

theorem child_children : Descent.Child fs.children = fs.Subfolder := by
  funext sub folder
  exact propext inl_mem_children_iff

theorem reaches_children : Descent.Reaches fs.children = fs.Reaches := by
  unfold Descent.Reaches Reaches
  rw [child_children]

/-- The path of an entry. -/
def childPath : PathName ⊕ PathName → PathName := Sum.elim id id

theorem childPath_of_child? {info : GFileInfo} {x : PathName ⊕ PathName}
    (h : child? folder info = some x) : childPath x = folder ++ [info.name] := by
  rcases child?_eq_some_iff.1 h with ⟨-, rfl⟩ | ⟨-, -, rfl⟩
  · rfl
  · rfl

/-- The paths of the files below the entries of a folder do not meet. -/
theorem separated_children (fs : FileSystem) :
    Descent.Separated fs.children fun x file => childPath x <+: file where
  leaf file := List.prefix_refl file
  up {folder x file} hx h := by
    obtain ⟨info, -, hchild⟩ := mem_children_iff.1 hx
    rw [childPath_of_child? hchild] at h
    exact (List.prefix_append folder _).trans h
  apart folder := by
    have hnames : ((fs.enumerate folder).getD []).Pairwise fun a b => a.name ≠ b.name := by
      cases hinfos : fs.enumerate folder with
      | none => simp
      | some infos => exact List.pairwise_map.1 (fs.nodup_names folder infos hinfos)
    refine List.pairwise_filterMap.2 (hnames.imp fun {a b} hne x hx y hy file hxf hyf => hne ?_)
    rw [childPath_of_child? hx] at hxf
    rw [childPath_of_child? hy] at hyf
    have heq := List.prefix_of_prefix_length_le hxf hyf (by simp)
    simpa using heq

/-- The files that a scan looks at. -/
theorem mem_files_iff {n : ℕ} {directory : PathName} {files : List PathName}
    (hfiles : Descent.leaves fs.children n directory = some files) {path : PathName} :
    path ∈ files ↔ ∃ folder, fs.Reaches directory folder ∧
      fs.Lists folder ⟨mcfgSwMbn, .regular⟩ ∧ path = folder ++ [mcfgSwMbn] := by
  rw [Descent.mem_leaves_iff hfiles, reaches_children]
  simp only [inr_mem_children_iff]

/-- **What the scan reports**: one row for each file `mcfg_sw.mbn` in a folder that it comes to,
and that row is the report on the file by itself. -/
theorem scanPdcMcfgs_reports (fs : FileSystem) (heap : ℕ → Behind) {n : ℕ}
    {directory : PathName} {globals : LocateState} {rows : List FileInfo}
    (h : fs.scanPdcMcfgs heap n directory globals = .ok rows) :
    (rows.map FileInfo.path).Nodup ∧
      (∀ path, path ∈ rows.map FileInfo.path ↔ ∃ folder, fs.Reaches directory folder ∧
        fs.Lists folder ⟨mcfgSwMbn, .regular⟩ ∧ path = folder ++ [mcfgSwMbn]) ∧
      ∀ i row, rows[i]? = some row → fs.report (heap i) row.path = some row := by
  obtain ⟨hfiles, hreports⟩ := rows_of_scan h
  exact ⟨Descent.nodup_leaves fs.separated_children hfiles, fun _ => mem_files_iff hfiles,
    hreports⟩

/-- **The scan does not go on for ever**, as long as there is a bound on the depth of the folders
that it comes to: it prints its table, or a file kills the process. -/
theorem scanPdcMcfgs_ends (fs : FileSystem) (heap : ℕ → Behind) {directory : PathName}
    {depth : ℕ} (hdepth : ∀ folder, fs.Reaches directory folder →
      folder.length ≤ directory.length + depth) (globals : LocateState) :
    (∃ rows, fs.scanPdcMcfgs heap (depth + 1) directory globals = .ok rows) ∨
      fs.scanPdcMcfgs heap (depth + 1) directory globals = .error .killed := by
  obtain ⟨files, hfiles⟩ : ∃ files, Descent.leaves fs.children (depth + 1) directory =
      some files := by
    have hrank := Descent.exists_leaves_of_rank (a := directory)
      (fun folder => directory.length + depth - folder.length) fun folder hfolder sub hsub => by
        rw [reaches_children] at hfolder
        rw [child_children] at hsub
        have hsubDepth := hdepth sub (hfolder.tail hsub)
        obtain ⟨name, -, rfl⟩ := hsub
        rw [List.length_append, List.length_singleton] at hsubDepth ⊢
        omega
    rwa [Nat.add_sub_cancel_left] at hrank
  rw [scanPdcMcfgs, fs.loopThroughDirectory_of_leaves heap hfiles]
  cases hfold : files.foldlM (fs.checkFile heap) ⟨globals, []⟩ with
  | ok s => exact Or.inl ⟨s.fileInfos, rfl⟩
  | error e =>
    cases e with
    | killed => exact Or.inr rfl
    | deeper => exact absurd hfold (foldlM_checkFile_ne_deeper files _)

/-! ### The order of the entries -/

/-- The same files, with the entries of each folder in some other order. -/
def Relists (fs' fs : FileSystem) : Prop :=
  (∀ folder, Option.Rel List.Perm (fs'.enumerate folder) (fs.enumerate folder)) ∧
    fs'.contents = fs.contents

theorem Relists.children {fs' fs : FileSystem} (h : fs'.Relists fs) (folder : PathName) :
    (fs'.children folder).Perm (fs.children folder) := by
  have hrel := h.1 folder
  unfold FileSystem.children
  refine List.Perm.filterMap _ ?_
  generalize fs'.enumerate folder = infos', fs.enumerate folder = infos at hrel
  cases hrel with
  | some hperm => exact hperm
  | none => exact .refl _

/-- The reports on the files of some rows are the rows. -/
theorem filterMap_report {fs : FileSystem} {behind : Behind} {rows : List FileInfo}
    (h : ∀ row ∈ rows, fs.report behind row.path = some row) :
    (rows.map FileInfo.path).filterMap (fs.report behind) = rows := by
  induction rows with
  | nil => rfl
  | cons row rows ih =>
    obtain ⟨hrow, hrows⟩ := List.forall_mem_cons.1 h
    rw [List.map_cons, List.filterMap_cons_some hrow, ih hrows]

/-- The report on a file does not depend on the memory behind its buffers. -/
def Settled (fs : FileSystem) (filePath : PathName) : Prop :=
  ∀ behind behind', fs.report behind filePath = fs.report behind' filePath

/-- **The order in which the entries are delivered does not matter**, as long as no report depends
on the memory behind a buffer: the scan of the same files ends, too, with the same rows in some
order. -/
theorem scanPdcMcfgs_perm {fs' fs : FileSystem} (hrelists : fs'.Relists fs)
    (heap heap' : ℕ → Behind) {n : ℕ} {directory : PathName} {globals globals' : LocateState}
    (hsettled : ∀ folder, fs.Reaches directory folder → fs.Lists folder ⟨mcfgSwMbn, .regular⟩ →
      fs.Settled (folder ++ [mcfgSwMbn])) {rows : List FileInfo}
    (h : fs.scanPdcMcfgs heap n directory globals = .ok rows) :
    ∃ rows', fs'.scanPdcMcfgs heap' n directory globals' = .ok rows' ∧ rows'.Perm rows := by
  obtain ⟨hfiles, hreports⟩ := rows_of_scan h
  have hreport : ∀ row ∈ rows, ∀ behind, fs.report behind row.path = some row := by
    intro row hrow behind
    obtain ⟨i, hi⟩ := List.mem_iff_getElem?.1 hrow
    obtain ⟨folder, hfolder, hlists, hpath⟩ := (mem_files_iff hfiles).1 (List.mem_map_of_mem hrow)
    rw [← hreports i row hi, hpath]
    exact hsettled folder hfolder hlists behind (heap i)
  have hsame (behind : Behind) : fs'.report behind = fs.report behind := by
    unfold report
    rw [hrelists.2]
  obtain ⟨files', hfiles', hperm⟩ := Descent.leaves_perm hrelists.children hfiles
  obtain ⟨rows', hrows'⟩ := exists_rows heap' hfiles' (fun file hfile behind => by
    obtain ⟨row, hrow, rfl⟩ := List.mem_map.1 (hperm.mem_iff.1 hfile)
    rw [hsame, hreport row hrow]
    rfl) globals'
  refine ⟨rows', hrows', ?_⟩
  -- both are the reports on their files, in order
  obtain ⟨hleaves', hreports'⟩ := rows_of_scan hrows'
  have hpaths' : rows'.map FileInfo.path = files' := Option.some.inj (hleaves'.symm.trans hfiles')
  have hreport' : ∀ row ∈ rows', fs.report ⟨[], []⟩ row.path = some row := by
    intro row hrow
    have hfile : row.path ∈ rows.map FileInfo.path := by
      rw [← hperm.mem_iff, ← hpaths']
      exact List.mem_map_of_mem hrow
    obtain ⟨old, hold, hpath⟩ := List.mem_map.1 hfile
    obtain ⟨i, hi⟩ := List.mem_iff_getElem?.1 hrow
    have hrow' := hreports' i row hi
    rw [hsame, ← hpath, hreport old hold] at hrow'
    cases hrow'
    exact hreport row hold ⟨[], []⟩
  rw [← filterMap_report fun row hrow => hreport row hrow ⟨[], []⟩,
    ← filterMap_report hreport', hpaths']
  exact hperm.filterMap _

end FileSystem

/-! ### The rows of well-formed files -/

/-- A row of the table shows the file: it is valid, with its carrier id, network code and name. -/
def McfgFile.Shows (file : McfgFile) (row : FileInfo) : Prop :=
  row.isValid = true ∧ row.carrierId.toNat = file.segment.carrierId.toNat ∧
    row.mcc.toNat = file.network.1.toNat ∧ row.mnc.toNat = file.network.2.toNat ∧
    row.internalName = file.name

/-- The process survives a well-formed file of less than 4 GiB. -/
theorem McfgFile.isSome_reportOf {file : McfgFile} (hlt : file.bytes.length < 2 ^ 32)
    (behind : Behind) (path : PathName) :
    (reportOf (checkFileHeader (some file.bytes) behind.buffer .initial) path
      behind.name).isSome := by
  have hsurvived := McfgImage.walkSurvived_read behind.buffer hlt file.wellFormed
    file.sections_ne_nil
  rw [checkFileHeader_some, reportOf, (checkBuffer_returns_iff .initial).2 fun _ => hsurvived]
  rfl

/-- **From the format to the table**: in every table that a scan prints, the row of a well-formed
file of less than 4 GiB shows the file if and only if it is one that can be reported, whatever else
was scanned before it. -/
theorem scanPdcMcfgs_shows_iff (fs : FileSystem) (heap : ℕ → Behind) {n : ℕ}
    {directory : PathName} {globals : LocateState} {rows : List FileInfo}
    (h : fs.scanPdcMcfgs heap n directory globals = .ok rows) {row : FileInfo} (hrow : row ∈ rows)
    {file : McfgFile} (hfile : fs.contents row.path = some file.bytes)
    (hlt : file.bytes.length < 2 ^ 32) : file.Shows row ↔ file.Reportable := by
  obtain ⟨-, hreports⟩ := FileSystem.rows_of_scan h
  obtain ⟨i, hi⟩ := List.mem_iff_getElem?.1 hrow
  have hreport := hreports i row hi
  rw [FileSystem.report, hfile] at hreport
  obtain ⟨-, -, hrow'⟩ := Option.map_eq_some_iff.1 hreport
  rw [← McfgFile.reports_iff_reportable hlt (heap i).buffer (s := .initial) rfl, ← hrow']
  -- the name of a valid file ends before what lies behind its buffer
  refine and_congr_right fun hvalid => ?_
  have hzero := McfgFile.zero_mem_of_isValid hlt (heap i).buffer (s := .initial) rfl hvalid
  rw [LocateState.fileInfo, cString_append_of_mem hzero]

/-! ### A small directory -/

/-- A folder with a file, and with a folder with another one, in some order. -/
def orderedFiles (order : List GFileInfo → List GFileInfo)
    (horder : ∀ infos, (order infos).Perm infos) (contents : PathName → Option (List UInt8)) :
    FileSystem where
  enumerate folder :=
    if folder = [] then some (order [⟨"hw", .directory⟩, ⟨mcfgSwMbn, .regular⟩])
    else if folder = ["hw"] then some (order [⟨mcfgSwMbn, .regular⟩, ⟨"readme", .regular⟩])
    else none
  contents
  nodup_names := by
    intro folder infos hinfos
    split_ifs at hinfos
    · cases hinfos
      exact ((horder _).map GFileInfo.name).nodup_iff.2 (by decide)
    · cases hinfos
      exact ((horder _).map GFileInfo.name).nodup_iff.2 (by decide)
    · cases hinfos

/-- These files in two orders. -/
def sampleFiles (contents : PathName → Option (List UInt8)) : FileSystem :=
  orderedFiles id (fun _ => .refl _) contents
@[inherit_doc sampleFiles]
def reversedFiles (contents : PathName → Option (List UInt8)) : FileSystem :=
  orderedFiles List.reverse List.reverse_perm contents

/-- The files of the directory, in order. -/
theorem leaves_sampleFiles (contents : PathName → Option (List UInt8)) :
    Descent.leaves (sampleFiles contents).children 3 [] =
      some [["hw", mcfgSwMbn], [mcfgSwMbn]] := rfl

/-- Neither of two files that cannot be opened has anything to report. -/
theorem scan_sampleFiles (heap : ℕ → Behind) :
    (sampleFiles fun _ => none).scanPdcMcfgs heap 3 [] .initial =
      .ok [⟨["hw", mcfgSwMbn], false, 0, 0, 0, []⟩, ⟨[mcfgSwMbn], false, 0, 0, 0, []⟩] := rfl

theorem scanPdcMcfgs_reports_sampleFiles :
    (sampleFiles fun _ => none).report ⟨[], []⟩ ["hw", mcfgSwMbn] =
      some ⟨["hw", mcfgSwMbn], false, 0, 0, 0, []⟩ :=
  (FileSystem.scanPdcMcfgs_reports _ _ (scan_sampleFiles fun _ => ⟨[], []⟩)).2.2 0 _ rfl

/-- The directory and the one below it. -/
theorem reaches_sampleFiles {contents : PathName → Option (List UInt8)} {folder : PathName}
    (h : (sampleFiles contents).Reaches [] folder) : folder = [] ∨ folder = ["hw"] := by
  induction h with
  | refl => exact Or.inl rfl
  | tail _ hsub ih =>
    obtain ⟨name, ⟨infos, hinfos, hmem⟩, rfl⟩ := hsub
    rcases ih with rfl | rfl
    · cases hinfos
      simp [mcfgSwMbn] at hmem
      exact Or.inr (by rw [hmem]; rfl)
    · cases hinfos
      simp at hmem

theorem scanPdcMcfgs_ends_sampleFiles :
    (∃ rows, (sampleFiles fun _ => none).scanPdcMcfgs (fun _ => ⟨[], []⟩) 2 [] .initial =
      .ok rows) ∨
      (sampleFiles fun _ => none).scanPdcMcfgs (fun _ => ⟨[], []⟩) 2 [] .initial = .error .killed :=
  FileSystem.scanPdcMcfgs_ends _ _ (fun folder hfolder => by
    rcases reaches_sampleFiles hfolder with rfl | rfl <;> decide) _

theorem reversedFiles_relists (contents : PathName → Option (List UInt8)) :
    (reversedFiles contents).Relists (sampleFiles contents) := by
  refine ⟨fun folder => ?_, rfl⟩
  show Option.Rel List.Perm (if folder = [] then _ else if folder = ["hw"] then _ else none)
    (if folder = [] then _ else if folder = ["hw"] then _ else none)
  split_ifs
  · exact .some (List.reverse_perm _)
  · exact .some (List.reverse_perm _)
  · exact .none

theorem scanPdcMcfgs_perm_reversedFiles :
    ∃ rows', (reversedFiles fun _ => none).scanPdcMcfgs (fun _ => ⟨[7], [7]⟩) 3 [] .initial =
        .ok rows' ∧
      rows'.Perm
        [⟨["hw", mcfgSwMbn], false, 0, 0, 0, []⟩, ⟨[mcfgSwMbn], false, 0, 0, 0, []⟩] :=
  FileSystem.scanPdcMcfgs_perm (reversedFiles_relists fun _ => none) _ _
    (fun _ _ _ _ _ => rfl) (scan_sampleFiles fun _ => ⟨[], []⟩)

/-- Both files are one well-formed file that can be reported. -/
theorem scanPdcMcfgs_shows_sampleFile :
    ∃ rows, (sampleFiles fun _ => some (McfgFile.sampleFile 204 4).bytes).scanPdcMcfgs
        (fun _ => ⟨[], []⟩) 3 [] .initial = .ok rows ∧
      ∃ row ∈ rows, (McfgFile.sampleFile 204 4).Shows row := by
  have hlt := McfgFile.length_sampleFile_lt 204 4
  obtain ⟨rows, hrows⟩ := FileSystem.exists_rows (fun _ => ⟨[], []⟩) (leaves_sampleFiles _)
    (fun file _ behind => McfgFile.isSome_reportOf hlt behind file) .initial
  obtain ⟨hpaths, -⟩ := FileSystem.rows_of_scan hrows
  rw [leaves_sampleFiles, Option.some.injEq] at hpaths
  have hmem : [mcfgSwMbn] ∈ rows.map FileInfo.path := by
    rw [← hpaths]
    exact List.mem_cons_of_mem _ List.mem_cons_self
  obtain ⟨row, hrow, -⟩ := List.mem_map.1 hmem
  exact ⟨rows, hrows, row, hrow,
    (scanPdcMcfgs_shows_iff _ _ hrows hrow rfl hlt).2 McfgFile.reportable_sampleFile⟩

end Imsd
