import Imsd.McfgFormat
import Imsd.PdcLocateWalk

/-!
# Do the headers lie in the file?

`check_input_file` goes through the program headers and the MCFG headers behind the third offset.
It compares the offset of every segment with the size of the file, but it looks for the program
headers wherever `e_phoff` says, and an offset that is not above the size may still be too close to
it: no check leaves room for the header that is read there.

`InputHeader` lists the headers, and `Reaches` says what the file must look like for the function
to come to one.  `checks_headers_iff`: the function reads inside the file only, and rejects what
does not lie there (`ChecksHeaders`), exactly when every header that it comes to lies in the file.
-/

namespace Imsd

open Bytes Exec

/-- The headers that `check_input_file` goes through, in this order. -/
inductive InputHeader
  | ph0
  | ph1
  | ph2
  | mcfgHead
  | mcfgSub

namespace FileBuffer

variable (buf : FileBuffer)

/-- `e_phoff`. -/
def phoff : ℕ := loadLE buf.byte 28 4

/-- Where a header starts. -/
def headerStart : InputHeader → ℕ
  | .ph0 => buf.phoff + 0 * 32
  | .ph1 => buf.phoff + 1 * 32
  | .ph2 => buf.phoff + 2 * 32
  | .mcfgHead => buf.pOffset 2
  | .mcfgSub => buf.pOffset 2 + 16

end FileBuffer

/-- The size of a header. -/
def InputHeader.size : InputHeader → ℕ
  | ph0 | ph1 | ph2 => 32
  | mcfgHead => 16
  | mcfgSub => 8

namespace FileBuffer

variable (buf : FileBuffer)

/-- The header lies entirely inside the file. -/
def Inside (h : InputHeader) : Prop := buf.headerStart h + h.size ≤ buf.size.toNat

/-- The file is large enough, and the ELF header counts three program headers. -/
def ElfAccepted : Prop :=
  0x2000 ≤ buf.size.toNat ∧ bytesAt buf.byte 0 4 = elfmag ∧ 3 ≤ loadLE buf.byte 44 2

/-- The files whose headers are accepted up to the given one. -/
def Reaches : InputHeader → Prop
  | .ph0 => buf.ElfAccepted
  | .ph1 => buf.ElfAccepted ∧ buf.pOffset 0 ≤ buf.size.toNat
  | .ph2 => buf.ElfAccepted ∧ buf.pOffset 0 ≤ buf.size.toNat ∧ buf.pOffset 1 ≤ buf.size.toNat
  | .mcfgHead =>
    buf.ElfAccepted ∧ buf.pOffset 0 ≤ buf.size.toNat ∧ buf.pOffset 1 ≤ buf.size.toNat ∧
      buf.pOffset 2 ≤ buf.size.toNat
  | .mcfgSub =>
    buf.ElfAccepted ∧ buf.pOffset 0 ≤ buf.size.toNat ∧ buf.pOffset 1 ≤ buf.size.toNat ∧
      buf.pOffset 2 ≤ buf.size.toNat ∧ bytesAt buf.byte (buf.pOffset 2) 4 = mcfgFileHeaderMagic

end FileBuffer

/-- A run of `check_input_file` reads inside the file only, accepts no file with a header that does
not lie there, and rejects such a file before it reads a byte of that header. -/
structure ChecksHeaders (buf : FileBuffer) (run : LocateState × Traced LocateAccess ℤ) : Prop where
  reads : ∀ a, .read a ∈ run.2.log → a < buf.size.toNat
  accepts : run.2.res = some 0 → ∀ h, buf.Inside h
  rejects : ∀ h, ¬ buf.Inside h → run.2.res = some (-(einval : ℤ)) ∧
    ∀ a, buf.headerStart h ≤ a → a < buf.headerStart h + h.size → .read a ∉ run.2.log

/-! ### What is read -/

section Reads

variable {buf : FileBuffer} {s : LocateState} {e : LocateAccess}

theorem mem_log_fails {p : Prop} [Decidable p] {r : ℤ} {x : LocateM ℤ} :
    e ∈ ((if p then pure r else x : LocateM ℤ) s).2.log ↔ ¬ p ∧ e ∈ (x s).2.log := by
  by_cases hp : p
  · simp [hp]
  · simp [hp]

section Bind

variable {α : Type}

theorem mem_log_modify_bind {g : LocateState → LocateState} {f : PUnit → LocateM α} :
    e ∈ ((Exec.modify g >>= f) s).2.log ↔ e ∈ (f ⟨⟩ (g s)).2.log := by
  rw [(show Performs LocateAccess.Fatal _ _ _ _ from .modify g).mem_log_bind survived_nil]
  simp

theorem mem_log_loadBytes_bind {a n : ℕ} {f : List UInt8 → LocateM α} :
    e ∈ ((buf.loadBytes a n >>= f) s).2.log ↔
      e ∈ readsOf a n ∨ e ∈ (f (bytesAt buf.byte a n) s).2.log :=
  (loadBytes_performs a n).mem_log_bind (survived_readsOf a n)

theorem mem_log_load_bind {a w : ℕ} {f : ℕ → LocateM α} :
    e ∈ ((buf.load a w >>= f) s).2.log ↔
      e ∈ readsOf a w ∨ e ∈ (f (loadLE buf.byte a w) s).2.log :=
  (load_performs a w).mem_log_bind (survived_readsOf a w)

end Bind

/-- Behind a failed check of the magic nothing is read. -/
theorem mem_log_checkMcfgHeader {head : ℕ} : e ∈ (checkMcfgHeader buf head s).2.log ↔
    e ∈ readsOf head 4 ∨ bytesAt buf.byte head 4 = mcfgFileHeaderMagic ∧
      (e ∈ readsOf (head + 4) 2 ∨ e ∈ readsOf (head + 6) 2 ∨ e ∈ readsOf (head + 8) 4 ∨
        e ∈ readsOf (head + 12) 2 ∨ e ∈ readsOf (head + 16) 2 ∨ e ∈ readsOf (head + 18) 2 ∨
        e ∈ readsOf (head + 20) 4) := by
  unfold checkMcfgHeader
  simp only [mem_log_modify_bind, mem_log_loadBytes_bind, mem_log_load_bind, mem_log_fails,
    pure_apply, Traced.log_pure, List.not_mem_nil, or_false, and_false, not_not]

theorem mem_log_checkInputFile : e ∈ (checkInputFile buf s).2.log ↔
    0x2000 ≤ buf.size.toNat ∧ (e ∈ readsOf 0 4 ∨ bytesAt buf.byte 0 4 = elfmag ∧
      (e ∈ readsOf 44 2 ∨ 3 ≤ loadLE buf.byte 44 2 ∧ (e ∈ readsOf 28 4 ∨
        e ∈ readsOf (buf.headerStart .ph0 + 4) 4 ∨ buf.pOffset 0 ≤ buf.size.toNat ∧
          (e ∈ readsOf (buf.headerStart .ph1 + 4) 4 ∨ buf.pOffset 1 ≤ buf.size.toNat ∧
            (e ∈ readsOf (buf.headerStart .ph2 + 4) 4 ∨ buf.pOffset 2 ≤ buf.size.toNat ∧
              e ∈ (checkMcfgHeader buf (buf.pOffset 2) s).2.log))))) := by
  unfold checkInputFile
  simp only [mem_log_modify_bind, mem_log_loadBytes_bind, mem_log_load_bind, mem_log_fails, not_lt,
    not_not, mem_log_checkMcfgHeader]
  rfl

/-- The bytes that are read of a header. -/
def InputHeader.readSize : InputHeader → ℕ
  | ph0 | ph1 | ph2 => 8
  | mcfgHead => 16
  | mcfgSub => 8

/-- What is read lies in the ELF header, or in a header that the function comes to. -/
theorem read_checkInputFile {a : ℕ} (h : .read a ∈ (checkInputFile buf s).2.log) :
    0x2000 ≤ buf.size.toNat ∧ (a < 48 ∨ ∃ h, buf.Reaches h ∧ buf.headerStart h ≤ a ∧
      a < buf.headerStart h + h.readSize) := by
  rw [mem_log_checkInputFile] at h
  simp only [read_mem_readsOf, mem_log_checkMcfgHeader] at h
  obtain ⟨hsize, h | ⟨hmagic, h | ⟨hnum, h | h | ⟨h₀, h | ⟨h₁, h | ⟨h₂, h⟩⟩⟩⟩⟩⟩ := h
  · exact ⟨hsize, .inl (by omega)⟩
  · exact ⟨hsize, .inl (by omega)⟩
  · exact ⟨hsize, .inl (by omega)⟩
  · exact ⟨hsize, .inr ⟨.ph0, ⟨hsize, hmagic, hnum⟩, by omega, h.2⟩⟩
  · exact ⟨hsize, .inr ⟨.ph1, ⟨⟨hsize, hmagic, hnum⟩, h₀⟩, by omega, h.2⟩⟩
  · exact ⟨hsize, .inr ⟨.ph2, ⟨⟨hsize, hmagic, hnum⟩, h₀, h₁⟩, by omega, h.2⟩⟩
  · have hhead : buf.Reaches .mcfgHead := ⟨⟨hsize, hmagic, hnum⟩, h₀, h₁, h₂⟩
    have hstart : buf.headerStart .mcfgHead = buf.pOffset 2 := rfl
    have hstart' : buf.headerStart .mcfgSub = buf.pOffset 2 + 16 := rfl
    obtain h | ⟨hmcfg, h⟩ := h
    · exact ⟨hsize, .inr ⟨.mcfgHead, hhead, h.1, by simp only [InputHeader.readSize]; omega⟩⟩
    by_cases hsub : a < buf.pOffset 2 + 16
    · refine ⟨hsize, .inr ⟨.mcfgHead, hhead, by omega, ?_⟩⟩
      simpa only [InputHeader.readSize, hstart] using hsub
    · refine ⟨hsize, .inr ⟨.mcfgSub, ⟨hhead.1, h₀, h₁, h₂, hmcfg⟩, by omega, ?_⟩⟩
      simp only [InputHeader.readSize, hstart']
      omega

/-- Something is read of every header that the function comes to. -/
theorem exists_read_of_reaches {h : InputHeader} (hreaches : buf.Reaches h) :
    ∃ a, .read a ∈ (checkInputFile buf s).2.log ∧ buf.headerStart h ≤ a ∧
      a < buf.headerStart h + h.size := by
  simp only [mem_log_checkInputFile, read_mem_readsOf, mem_log_checkMcfgHeader]
  cases h with
  | ph0 =>
    obtain ⟨hsize, hmagic, hnum⟩ := hreaches
    exact ⟨buf.headerStart .ph0 + 4, ⟨hsize, .inr ⟨hmagic, .inr ⟨hnum, .inr (.inl (by omega))⟩⟩⟩,
      by omega, by simp [InputHeader.size]⟩
  | ph1 =>
    obtain ⟨⟨hsize, hmagic, hnum⟩, h₀⟩ := hreaches
    exact ⟨buf.headerStart .ph1 + 4, ⟨hsize, .inr ⟨hmagic, .inr ⟨hnum, .inr (.inr ⟨h₀,
      .inl (by omega)⟩)⟩⟩⟩, by omega, by simp [InputHeader.size]⟩
  | ph2 =>
    obtain ⟨⟨hsize, hmagic, hnum⟩, h₀, h₁⟩ := hreaches
    exact ⟨buf.headerStart .ph2 + 4, ⟨hsize, .inr ⟨hmagic, .inr ⟨hnum, .inr (.inr ⟨h₀,
      .inr ⟨h₁, .inl (by omega)⟩⟩)⟩⟩⟩, by omega, by simp [InputHeader.size]⟩
  | mcfgHead =>
    obtain ⟨⟨hsize, hmagic, hnum⟩, h₀, h₁, h₂⟩ := hreaches
    exact ⟨buf.pOffset 2, ⟨hsize, .inr ⟨hmagic, .inr ⟨hnum, .inr (.inr ⟨h₀,
      .inr ⟨h₁, .inr ⟨h₂, .inl (by omega)⟩⟩⟩)⟩⟩⟩, le_rfl,
      Nat.lt_add_of_pos_right (by simp [InputHeader.size])⟩
  | mcfgSub =>
    obtain ⟨⟨hsize, hmagic, hnum⟩, h₀, h₁, h₂, hmcfg⟩ := hreaches
    exact ⟨buf.pOffset 2 + 16, ⟨hsize, .inr ⟨hmagic, .inr ⟨hnum, .inr (.inr ⟨h₀,
      .inr ⟨h₁, .inr ⟨h₂, .inr ⟨hmcfg, by omega⟩⟩⟩⟩)⟩⟩⟩, le_rfl,
      Nat.lt_add_of_pos_right (by simp [InputHeader.size])⟩

/-! ### The result -/

/-- The files that are not accepted are rejected with `EINVAL`. -/
theorem res_checkInputFile : (checkInputFile buf s).2.res =
    some (if buf.Accepted then 0 else -(einval : ℤ)) := by
  by_cases h : buf.Accepted
  · rw [if_pos h]
    exact (checkInputFile_does s h).res
  · rw [if_neg h]
    obtain ⟨s', hdoes, -⟩ := checkInputFile_walks h s
    exact hdoes.res

/-- The function comes to every header of a file that it accepts. -/
theorem reaches_of_accepted (h : buf.Accepted) (hd : InputHeader) : buf.Reaches hd := by
  obtain ⟨hsize, hmagic, hnum, h₀, h₁, h₂, hmcfg, -⟩ := h
  have helf : buf.ElfAccepted := ⟨hsize, hmagic, hnum⟩
  cases hd with
  | ph0 => exact helf
  | ph1 => exact ⟨helf, h₀⟩
  | ph2 => exact ⟨helf, h₀, h₁⟩
  | mcfgHead => exact ⟨helf, h₀, h₁, h₂⟩
  | mcfgSub => exact ⟨helf, h₀, h₁, h₂, hmcfg⟩

/-- The place of a header among the others. -/
def InputHeader.index : InputHeader → ℕ
  | ph0 => 0
  | ph1 => 1
  | ph2 => 2
  | mcfgHead => 3
  | mcfgSub => 4

/-- The function comes to the headers one after the other. -/
theorem reaches_of_index_le {h h' : InputHeader} (hreaches : buf.Reaches h)
    (hle : h'.index ≤ h.index) : buf.Reaches h' := by
  cases h <;> cases h' <;> simp_all [InputHeader.index, FileBuffer.Reaches]

/-- What is read of one header lies before a later one that does not lie in the file. -/
theorem readSize_le_start {h h' : InputHeader} (hin : buf.Inside h) (hout : ¬ buf.Inside h')
    (hlt : h.index < h'.index) : buf.headerStart h + h.readSize ≤ buf.headerStart h' := by
  cases h <;> cases h' <;>
    simp only [FileBuffer.Inside, FileBuffer.headerStart, InputHeader.size, InputHeader.readSize,
      InputHeader.index, not_le] at * <;> omega

/-- The bytes that are read of a header belong to it. -/
theorem readSize_le_size (h : InputHeader) : h.readSize ≤ h.size := by
  cases h <;> decide

theorem size_le (h : InputHeader) : h.size ≤ 32 := by
  cases h <;> decide

end Reads

/-- **`check_input_file` checks its headers exactly when every header that it comes to lies in the
file.** -/
theorem checks_headers_iff (buf : FileBuffer) (s : LocateState) :
    ChecksHeaders buf (checkInputFile buf s) ↔ ∀ h, buf.Reaches h → buf.Inside h := by
  constructor
  · intro hchecks h hreaches
    obtain ⟨a, hread, hle, hlt⟩ := exists_read_of_reaches (s := s) hreaches
    by_contra hout
    exact (hchecks.rejects h hout).2 a hle hlt hread
  · intro hinside
    refine ⟨fun a ha => ?_, fun hres h => ?_, fun h hout => ⟨?_, fun a hle hlt hread => ?_⟩⟩
    · obtain ⟨hsize, ha | ⟨h, hreaches, -, hlt⟩⟩ := read_checkInputFile ha
      · omega
      · have hin : buf.headerStart h + h.size ≤ buf.size.toNat := hinside h hreaches
        have hused := readSize_le_size h
        omega
    · rw [res_checkInputFile] at hres
      by_cases haccepted : buf.Accepted
      · exact hinside h (reaches_of_accepted haccepted h)
      · rw [if_neg haccepted] at hres
        cases hres
    · rw [res_checkInputFile, if_neg fun haccepted =>
        hout (hinside h (reaches_of_accepted haccepted h))]
    · have hout' : buf.size.toNat < buf.headerStart h + h.size := Nat.lt_of_not_le hout
      obtain ⟨hsize, ha | ⟨h', hreaches, -, hlt'⟩⟩ := read_checkInputFile hread
      · have hheader := size_le h
        omega
      · have hindex : h'.index < h.index := by
          by_contra hge
          exact hout (hinside h (reaches_of_index_le hreaches (Nat.not_lt.1 hge)))
        have hbefore := readSize_le_start (hinside h' hreaches) hout hindex
        omega

/-- A file whose third segment starts at its end. -/
def endedFile : List UInt8 := elfHeaders 0x2000 ++ List.replicate (0x2000 - 148) 0

theorem length_endedFile : endedFile.length = 0x2000 := by
  rw [endedFile, List.length_append, List.length_replicate]
  rfl

theorem bytesAt_endedFile {a n : ℕ} (h : a + n ≤ 148) :
    bytesAt (FileBuffer.read endedFile []).byte a n = ((elfHeaders 0x2000).drop a).take n := by
  have hlt : endedFile.length < 2 ^ 32 := by
    rw [length_endedFile]
    norm_num
  have hinside := bytesAt_inside (holds_append.1 (FileBuffer.holds_read hlt [])).1 h
  rwa [Nat.zero_add] at hinside

theorem loadLE_endedFile {a n : ℕ} (h : a + n ≤ 148) :
    loadLE (FileBuffer.read endedFile []).byte a n = ofLE (((elfHeaders 0x2000).drop a).take n) :=
  congrArg ofLE (bytesAt_endedFile h)

/-- The offset is the size of the file, and the magic is read behind its end. -/
theorem not_checks_headers :
    ¬ ChecksHeaders (.read endedFile []) (checkInputFile (.read endedFile []) .initial) := by
  intro hchecks
  have hsize : (FileBuffer.read endedFile []).size.toNat = 0x2000 := by
    rw [FileBuffer.size_read (by rw [length_endedFile]; norm_num), length_endedFile]
  have hphoff : loadLE (FileBuffer.read endedFile []).byte 28 4 = 52 :=
    loadLE_endedFile (by norm_num)
  have hoffset : ∀ k < 3, (FileBuffer.read endedFile []).pOffset k =
      ofLE (((elfHeaders 0x2000).drop (52 + k * 32 + 4)).take 4) := by
    intro k hk
    rw [FileBuffer.pOffset, hphoff, loadLE_endedFile (by omega)]
  have hoffset₂ : (FileBuffer.read endedFile []).pOffset 2 = 0x2000 := hoffset 2 (by norm_num)
  have hreaches : (FileBuffer.read endedFile []).Reaches .mcfgHead := by
    refine ⟨⟨by rw [hsize], ?_, ?_⟩, ?_, ?_, ?_⟩
    · exact bytesAt_endedFile (by norm_num)
    · rw [loadLE_endedFile (by norm_num)]
      decide
    · rw [hoffset 0 (by norm_num), hsize]
      decide
    · rw [hoffset 1 (by norm_num), hsize]
      decide
    · rw [hoffset₂, hsize]
  obtain ⟨a, hread, hle, -⟩ := exists_read_of_reaches (s := .initial) hreaches
  have hlt := hchecks.reads a hread
  rw [FileBuffer.headerStart, hoffset₂] at hle
  omega

end Imsd
