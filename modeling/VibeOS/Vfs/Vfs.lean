import VibeOS.Ext2.Files

/-!
# The virtual filesystem

`vfs.c` puts three kinds of files under one name space: the programs built into the kernel image, the RAM
files, and the mounted ext2 filesystem. The functions take the uid that `process_current_uid` returns.
A result `none` is a store outside the array of a RAM file, or what `ext2_read` leaves undefined.

`Vfs.Moves` says what a call can do to the mounted filesystem: a run of ext2 operations. Each function has
one lemma that says so, and `Vfs.Moves.inv` carries the invariant of the ext2 layer through all of them.

Other names are those of `kernel/src/vfs.c`.
-/

namespace VibeOS

open Ext2Filesystem

/-- A program in the kernel image.
Source: `kernel/include/vfs.h` `struct vfs_file` -/
structure VfsFile where
  path : List UInt8
  data : List UInt8

/-- Source: `struct vfs_user_file` -/
structure VfsUserFile where
  path : List UInt8
  data : Buf
  size : Nat
  used : Bool

/-- The globals of `vfs.c`: `g_vfs_files`, `g_user_files` and `g_ext2`. -/
structure Vfs where
  files : List VfsFile
  userFiles : Fin 32 → VfsUserFile
  ext2 : Option Ext2Filesystem

def Vfs.setUserFile (v : Vfs) (i : Fin 32) (f : VfsUserFile) : Vfs :=
  { v with userFiles := Function.update v.userFiles i f }

def VFS_USER_MAX_SIZE : Nat := 8192
def SYSCALL_ENOENT : Int := 2
def SYSCALL_EBADF : Int := 9
def SYSCALL_EACCES : Int := 13
def SYSCALL_EINVAL : Int := 22
def SYSCALL_EMFILE : Int := 24
def SYSCALL_ENAMETOOLONG : Int := 36

/-! ### Names -/

def asciiLower (c : UInt8) : UInt8 := if 65 ≤ c ∧ c ≤ 90 then c + 32 else c

def stringEqualsCi (left right : List UInt8) : Bool := left.map asciiLower == right.map asciiLower

/-- The index of the built-in file of that name. -/
def vfsLookup (v : Vfs) (path : List UInt8) : Option Nat :=
  v.files.findIdx? fun f => stringEqualsCi path f.path

def Vfs.fileData (v : Vfs) (file : Nat) : List UInt8 := (v.files[file]?.map VfsFile.data).getD []

def findUserFile (v : Vfs) (path : List UInt8) : Option (Fin 32) :=
  (List.finRange 32).find? fun i => (v.userFiles i).used && (v.userFiles i).path == path

/-- The parent of a path as text, in a buffer of 64 bytes. -/
def parentDir (path : List UInt8) : List UInt8 :=
  let lastSlash := strrchr path slash
  if lastSlash = 0 then [slash]
  else path.take (if lastSlash ≥ 63 then 62 else lastSlash)

/-! ### Attributes -/

/-- Source: `kernel/include/vfs.h` `enum vfs_node_kind` -/
inductive VfsNodeKind where
  | file
  | directory
deriving DecidableEq

/-- Source: `kernel/include/vfs.h` `struct vfs_stat` -/
structure VfsStat where
  kind : VfsNodeKind
  size : Nat
deriving DecidableEq

def ext2VfsStat (v : Vfs) (path : List UInt8) : Option VfsStat :=
  v.ext2.bind fun fs =>
    let ino := ext2LookupInode fs path
    if ino = 0 then none
    else (ext2Stat fs ino).map fun inode =>
      ⟨if inode.isDir then .directory else .file, inode.size.toNat⟩

def vfsStatPath (v : Vfs) (path : List UInt8) : Option VfsStat :=
  if path.length ≥ 64 then none
  else
    let normalizedPath :=
      if path.length > 1 ∧ path.getLast? = some slash then path.dropLast else path
    match vfsLookup v normalizedPath with
    | some file => some ⟨.file, (v.fileData file).length⟩
    | none =>
      match ext2VfsStat v normalizedPath with
      | some stat => some stat
      | none =>
        let overlay := ["/", "/bin", "/etc", "/home"].any fun dir =>
          stringEqualsCi normalizedPath (cstring dir)
        let aboveUserFile := (List.finRange 32).any fun i =>
          (v.userFiles i).used && (normalizedPath ++ [slash]).isPrefixOf (v.userFiles i).path
        if overlay || aboveUserFile then some ⟨.directory, 0⟩ else none

/-- `want` combines 4 (read), 2 (write) and 1 (execute). -/
def permOk (inode : Inode) (uid : Nat) (want : UInt16) : Bool :=
  if uid = 0 then true
  else
    let mode := inode.mode &&& 0o777
    let shift := if uid = inode.uid.toNat then 6 else 0
    (mode >>> shift) &&& want == want

/-- A path that names nothing is allowed. -/
def vfsAccessOk (v : Vfs) (uid : Nat) (path : List UInt8) (want : UInt16) : Bool :=
  match v.ext2 with
  | none => true
  | some fs =>
    let ino := ext2LookupInode fs path
    if ino = 0 then true
    else
      match ext2Stat fs ino with
      | none => true
      | some inode => permOk inode uid want

/-! ### Names that come and go -/

/-- Make an empty RAM file.
Source: `vfs_create` -/
def createUserFile (v : Vfs) (path : List UInt8) : Int × Vfs :=
  if (findUserFile v path).isSome then (0, v)
  else
    match (List.finRange 32).find? fun i => !(v.userFiles i).used with
    | none => (-1, v)
    | some i => (0, v.setUserFile i { v.userFiles i with path := path, size := 0, used := true })

def vfsCreate (v : Vfs) (uid : Nat) (path : List UInt8) : Int × Vfs :=
  if path.length ≥ 64 then (-1, v)
  else if !vfsAccessOk v uid (parentDir path) 6 then (-SYSCALL_EACCES, v)
  else
    match v.ext2 with
    | none => createUserFile v path
    | some fs =>
      if path.head? = some slash then
        if ext2LookupInode fs path ≠ 0 then (0, v)
        else
          let r := ext2Create fs path 0o644
          (if r.1 ≠ 0 then 0 else -1, { v with ext2 := some r.2 })
      else createUserFile v path

/-- Source: `vfs_unlink` -/
def unlinkUserFile (v : Vfs) (path : List UInt8) : Int × Vfs :=
  match findUserFile v path with
  | none => (-1, v)
  | some i => (0, v.setUserFile i { v.userFiles i with used := false })

def vfsUnlink (v : Vfs) (uid : Nat) (path : List UInt8) : Int × Vfs :=
  if !vfsAccessOk v uid (parentDir path) 6 then (-SYSCALL_EACCES, v)
  else
    match v.ext2 with
    | none => unlinkUserFile v path
    | some fs =>
      if path.head? = some slash then
        let r := ext2Unlink fs path
        if r.1 = 0 then (0, { v with ext2 := some r.2 })
        else unlinkUserFile { v with ext2 := some r.2 } path
      else unlinkUserFile v path

def vfsMkdir (v : Vfs) (uid : Nat) (path : List UInt8) : Int × Vfs :=
  if path.head? ≠ some slash then (-1, v)
  else
    match v.ext2 with
    | none => (-1, v)
    | some fs =>
      if !vfsAccessOk v uid (parentDir path) 6 then (-SYSCALL_EACCES, v)
      else
        let r := ext2Mkdir fs path 0o755
        (if r.1 ≠ 0 then 0 else -1, { v with ext2 := some r.2 })

/-! ### Contents -/

/-- The inode of a path, made when the path names none.
Source: `vfs_write`, `vfs_write_all` -/
def lookupOrCreate (fs : Ext2Filesystem) (path : List UInt8) : Nat × Ext2Filesystem :=
  let ino := ext2LookupInode fs path
  if ino = 0 then ext2Create fs path 0o644 else (ino, fs)

/-- The count `vfs_write` copies: the sum and the difference are computed in `size_t`.
Source: `vfs_write` -/
def clampWrite (offset count : Nat) : Nat :=
  if (offset + count) % 2 ^ 64 > VFS_USER_MAX_SIZE then (VFS_USER_MAX_SIZE + 2 ^ 64 - offset) % 2 ^ 64
  else count

/-- Store into a RAM file; `none` is a store outside its array.
Source: `vfs_write` -/
def storeUserFile (v : Vfs) (i : Fin 32) (offset : Nat) (data : List UInt8) : Option (Int × Vfs) :=
  if offset + clampWrite offset data.length > VFS_USER_MAX_SIZE then none
  else
    let count := clampWrite offset data.length
    let f := v.userFiles i
    some (count, v.setUserFile i { f with
      data := f.data.blit offset count fun k => data.getD k 0
      size := if offset + count > f.size then offset + count else f.size })

/-- The RAM file of a path, made when there is none.
Source: `vfs_write`, `vfs_write_all` -/
def openUserFile (v : Vfs) (uid : Nat) (path : List UInt8) : Option (Fin 32) × Vfs :=
  match findUserFile v path with
  | some i => (some i, v)
  | none =>
    let r := vfsCreate v uid path
    if r.1 < 0 then (none, r.2) else (findUserFile r.2 path, r.2)

/-- Source: `vfs_write` -/
def writeUserFile (v : Vfs) (uid : Nat) (path : List UInt8) (offset : Nat) (data : List UInt8) : Option (Int × Vfs) :=
  let r := openUserFile v uid path
  match r.1 with
  | none => some (-1, r.2)
  | some i => storeUserFile r.2 i offset data

def vfsWrite (v : Vfs) (uid : Nat) (path : List UInt8) (offset : Nat) (data : List UInt8) : Option (Int × Vfs) :=
  match v.ext2 with
  | none => writeUserFile v uid path offset data
  | some fs =>
    if path.head? = some slash then
      let r := lookupOrCreate fs path
      if r.1 ≠ 0 then
        let w := ext2Write r.2 r.1 (UInt32.ofNat offset) data
        some (w.1, { v with ext2 := some w.2 })
      else writeUserFile { v with ext2 := some r.2 } uid path offset data
    else writeUserFile v uid path offset data

/-- Source: `vfs_write_all` -/
def writeAllUserFile (v : Vfs) (uid : Nat) (path data : List UInt8) : Option (Int × Vfs) :=
  let r := openUserFile v uid path
  match r.1 with
  | none => some (-1, r.2)
  | some i =>
    vfsWrite (r.2.setUserFile i { r.2.userFiles i with size := 0 }) uid path 0 data

def vfsWriteAll (v : Vfs) (uid : Nat) (path data : List UInt8) : Option (Int × Vfs) :=
  match v.ext2 with
  | none => writeAllUserFile v uid path data
  | some fs =>
    let r := lookupOrCreate fs path
    if r.1 ≠ 0 then
      let w := ext2Write r.2 r.1 0 data
      some (w.1, { v with ext2 := some w.2 })
    else writeAllUserFile { v with ext2 := some r.2 } uid path data

/-- Read from a RAM file; `none` is an access outside its array. The end is computed in `size_t`. -/
def vfsReadUser (v : Vfs) (path : List UInt8) (offset count : Nat) : Option (Int × List UInt8) :=
  match findUserFile v path with
  | none => some (-1, [])
  | some i =>
    let f := v.userFiles i
    if offset ≥ f.size then some (0, [])
    else
      let toCopy := if (offset + count) % 2 ^ 64 > f.size then f.size - offset else count
      if offset + toCopy > VFS_USER_MAX_SIZE then none
      else some (toCopy, f.data.slice offset toCopy)

def readBuiltin (data : List UInt8) (offset count : Nat) : Int × List UInt8 :=
  if offset ≥ data.length then (0, [])
  else (((data.drop offset).take count).length, (data.drop offset).take count)

def vfsRead (v : Vfs) (path : List UInt8) (offset count : Nat) : Option (Int × List UInt8) :=
  match vfsLookup v path with
  | some file => some (readBuiltin (v.fileData file) offset count)
  | none =>
    if (findUserFile v path).isSome then vfsReadUser v path offset count
    else
      match v.ext2 with
      | none => some (-1, [])
      | some fs =>
        let ino := ext2LookupInode fs path
        if ino ≠ 0 then ext2Read fs ino (UInt32.ofNat offset) count else some (-1, [])

/-- The inode of an existing file, `0` when it is not on the disk. -/
def vfsOpenIno (v : Vfs) (path : List UInt8) : Option Nat :=
  if (vfsLookup v path).isSome then some 0
  else
    let ino := (v.ext2.map fun fs => ext2LookupInode fs path).getD 0
    if ino ≠ 0 then some ino
    else if (findUserFile v path).isSome then some 0
    else none

/-! ### What the calls do to the disk -/

/-- One safe ext2 operation. -/
def Ext2Step (fs fs' : Ext2Filesystem) : Prop := ∃ op : Op, op.Nice fs ∧ fs' = op.apply fs

/-- From a well-formed mounted filesystem the call goes on by safe ext2 operations. -/
def Vfs.Moves (v v' : Vfs) : Prop :=
  ∀ fs, v.ext2 = some fs → Inv fs → ∃ fs', v'.ext2 = some fs' ∧ Relation.ReflTransGen Ext2Step fs fs'

lemma inv_of_steps {fs fs' : Ext2Filesystem} (hi : Inv fs) (h : Relation.ReflTransGen Ext2Step fs fs') : Inv fs' := by
  induction h with
  | refl => exact hi
  | tail _ hstep ih =>
    obtain ⟨op, hop, rfl⟩ := hstep
    exact inv_apply ih op hop

variable {data : List UInt8}

section moves

variable {v v' v'' : Vfs} {fs : Ext2Filesystem} {path : List UInt8}

lemma Vfs.Moves.refl (v : Vfs) : v.Moves v := fun fs h _ => ⟨fs, h, .refl⟩

lemma Vfs.Moves.of_eq (h : v'.ext2 = v.ext2) : v.Moves v' :=
  fun fs hv _ => ⟨fs, by rw [h, hv], .refl⟩

lemma Vfs.Moves.trans (h1 : v.Moves v') (h2 : v'.Moves v'') : v.Moves v'' := by
  intro fs hv hi
  obtain ⟨fs1, hv1, hs1⟩ := h1 fs hv hi
  obtain ⟨fs2, hv2, hs2⟩ := h2 fs1 hv1 (inv_of_steps hi hs1)
  exact ⟨fs2, hv2, hs1.trans hs2⟩

lemma Vfs.Moves.of_op (hv : v.ext2 = some fs) (op : Op) (hop : Inv fs → op.Nice fs) :
    v.Moves { v with ext2 := some (op.apply fs) } := by
  intro fs' hv' hi
  obtain rfl : fs = fs' := Option.some.inj (hv.symm.trans hv')
  exact ⟨_, rfl, .single ⟨op, hop hi, rfl⟩⟩

lemma Vfs.Moves.inv (h : v.Moves v') (hv : v.ext2 = some fs) (hi : Inv fs) : ∃ fs', v'.ext2 = some fs' ∧ Inv fs' := by
  obtain ⟨fs', hv', hs⟩ := h fs hv hi
  exact ⟨fs', hv', inv_of_steps hi hs⟩

lemma createUserFile_ext2 (v : Vfs) (path : List UInt8) : (createUserFile v path).2.ext2 = v.ext2 := by
  rw [createUserFile]
  split_ifs
  · rfl
  · split <;> rfl

lemma unlinkUserFile_ext2 (v : Vfs) (path : List UInt8) : (unlinkUserFile v path).2.ext2 = v.ext2 := by
  rw [unlinkUserFile]
  split <;> rfl

variable (uid : Nat)

variable (h0 : (0 : UInt8) ∉ path) (hlen : path.length < 256)

include h0 hlen

lemma vfsCreate_moves : v.Moves (vfsCreate v uid path).2 := by
  rw [vfsCreate]
  cases hv : v.ext2 with
  | none =>
    dsimp only
    split_ifs
    · exact .refl v
    · exact .refl v
    · exact .of_eq (createUserFile_ext2 v path)
  | some fs =>
    dsimp only
    split_ifs
    · exact .refl v
    · exact .refl v
    · exact .refl v
    · exact .of_op hv (.create ⟨path, h0, hlen⟩ 0o644) fun _ => trivial
    · exact .of_op hv (.create ⟨path, h0, hlen⟩ 0o644) fun _ => trivial
    · exact .of_eq (createUserFile_ext2 v path)

lemma vfsUnlink_moves (hnice : ∀ fs, v.ext2 = some fs → NiceUnlink fs path) : v.Moves (vfsUnlink v uid path).2 := by
  rw [vfsUnlink]
  cases hv : v.ext2 with
  | none =>
    dsimp only
    split_ifs
    · exact .refl v
    · exact .of_eq (unlinkUserFile_ext2 v path)
  | some fs =>
    have hop : v.Moves { v with ext2 := some (ext2Unlink fs path).2 } :=
      .of_op hv (.unlink ⟨path, h0, hlen⟩) fun _ => hnice fs hv
    dsimp only
    split_ifs
    · exact .refl v
    · exact hop
    · exact hop.trans (.of_eq (unlinkUserFile_ext2 _ path))
    · exact .of_eq (unlinkUserFile_ext2 v path)

lemma vfsMkdir_moves : v.Moves (vfsMkdir v uid path).2 := by
  rw [vfsMkdir]
  cases hv : v.ext2 with
  | none => split_ifs <;> exact .refl v
  | some fs =>
    split_ifs
    · exact .refl v
    · exact .refl v
    · exact .of_op hv (.mkdir ⟨path, h0, hlen⟩ 0o755) fun _ => trivial

lemma used_lookupOrCreate (hi : Inv fs) (hne : (lookupOrCreate fs path).1 ≠ 0) :
    (lookupOrCreate fs path).2.inodeUsed (lookupOrCreate fs path).1 = true := by
  rw [lookupOrCreate] at hne ⊢
  split_ifs at hne ⊢ with hl
  · rcases create_spec hi ⟨path, h0, hlen⟩ 0o644 with ⟨fs', h, -⟩ | ⟨m, p, name, fs1, hm, -, hp, -, h, -, hgrow, hw, -⟩
    · rw [h] at hne
      exact absurd rfl hne
    · rw [h, hw.inodeUsed, hgrow.inodeUsed, inodeUsed_fileNode hm]
      simp
  · exact hi.used_lookup hl

lemma lookupOrCreate_moves (hv : v.ext2 = some fs) : v.Moves { v with ext2 := some (lookupOrCreate fs path).2 } := by
  rw [lookupOrCreate]
  split_ifs
  · exact .of_op hv (.create ⟨path, h0, hlen⟩ 0o644) fun _ => trivial
  · exact .of_eq hv.symm

lemma writeFound_moves (hv : v.ext2 = some fs)
    (hne : (lookupOrCreate fs path).1 ≠ 0) (offset : UInt32) (data : List UInt8) : v.Moves { v with
      ext2 := some (ext2Write (lookupOrCreate fs path).2 (lookupOrCreate fs path).1 offset data).2 } := by
  intro fs' hv' hi
  obtain rfl : fs = fs' := Option.some.inj (hv.symm.trans hv')
  obtain ⟨fs1, h1, hs⟩ := lookupOrCreate_moves h0 hlen hv fs hv hi
  obtain rfl : (lookupOrCreate fs path).2 = fs1 := Option.some.inj h1
  exact ⟨_, rfl, hs.tail ⟨.write _ offset data, .inl (used_lookupOrCreate h0 hlen hi hne), rfl⟩⟩

lemma openUserFile_moves : v.Moves (openUserFile v uid path).2 := by
  rw [openUserFile]
  split
  · exact .refl v
  · dsimp only
    split_ifs <;> exact vfsCreate_moves uid h0 hlen

variable {r : Int × Vfs}

lemma writeUserFile_moves {offset : Nat} (h : writeUserFile v uid path offset data = some r) : v.Moves r.2 := by
  have hopen := openUserFile_moves (v := v) uid h0 hlen
  rw [writeUserFile] at h
  split at h
  · obtain rfl := Option.some.inj h
    exact hopen
  · rw [storeUserFile] at h
    split_ifs at h
    obtain rfl := Option.some.inj h
    exact hopen.trans (.of_eq rfl)

lemma vfsWrite_moves {offset : Nat} (h : vfsWrite v uid path offset data = some r) : v.Moves r.2 := by
  rw [vfsWrite] at h
  split at h
  · exact writeUserFile_moves uid h0 hlen h
  · rename_i fs hv
    dsimp only at h
    split_ifs at h with hs hne
    · obtain rfl := Option.some.inj h
      exact writeFound_moves h0 hlen hv hne _ data
    · exact (lookupOrCreate_moves h0 hlen hv).trans (writeUserFile_moves uid h0 hlen h)
    · exact writeUserFile_moves uid h0 hlen h

lemma writeAllUserFile_moves (h : writeAllUserFile v uid path data = some r) : v.Moves r.2 := by
  have hopen := openUserFile_moves (v := v) uid h0 hlen
  rw [writeAllUserFile] at h
  split at h
  · obtain rfl := Option.some.inj h
    exact hopen
  · refine (hopen.trans (.of_eq ?_)).trans (vfsWrite_moves uid h0 hlen h)
    rfl

lemma vfsWriteAll_moves (h : vfsWriteAll v uid path data = some r) : v.Moves r.2 := by
  rw [vfsWriteAll] at h
  split at h
  · exact writeAllUserFile_moves uid h0 hlen h
  · rename_i fs hv
    dsimp only at h
    split_ifs at h with hne
    · obtain rfl := Option.some.inj h
      exact writeFound_moves h0 hlen hv hne 0 data
    · exact (lookupOrCreate_moves h0 hlen hv).trans (writeAllUserFile_moves uid h0 hlen h)

end moves

end VibeOS
