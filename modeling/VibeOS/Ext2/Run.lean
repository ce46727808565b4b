import VibeOS.Lib.Run
import VibeOS.Ext2.Release

/-!
# Runs of the filesystem

`Op` are the five operations and `apply` their effect. `create_spec`, `mkdir_spec`, `unlink_spec`,
`write_spec` and `truncate_spec` say what each does to the invariant and to the forest of inodes;
`inv_apply` is the step lemma.

`Op.Nice` is the condition under which the steps are safe. `ext2_unlink` accepts `.` and `..` as
the last component and never checks that the parent it edits is a directory, and `ext2_write` never
checks that the inode it writes is in use.
-/

namespace VibeOS

open Buf Ext2Filesystem

/-- A C string of less than 256 bytes. -/
structure Path where
  bytes : List UInt8
  noNul : (0 : UInt8) ∉ bytes
  short : bytes.length < 256

/-- The operations of a mounted filesystem that change it. -/
inductive Op where
  | create (path : Path) (mode : UInt16)
  | mkdir (path : Path) (mode : UInt16)
  | write (inodeNum : Nat) (offset : UInt32) (data : List UInt8)
  | truncate (path : Path)
  | unlink (path : Path)

def Op.apply (fs : Ext2Filesystem) : Op → Ext2Filesystem
  | .create path mode => (ext2Create fs path.bytes mode).2
  | .mkdir path mode => (ext2Mkdir fs path.bytes mode).2
  | .write inodeNum offset data => (ext2Write fs inodeNum offset data).2
  | .truncate path => (ext2Truncate fs path.bytes).2
  | .unlink path => (ext2Unlink fs path.bytes).2

/-- The inode that a removal finds under its path. -/
def unlinkFinds (fs : Ext2Filesystem) (path : List UInt8) : Option Nat :=
  let parent := ext2LookupInode fs (splitParent path).1
  if path.head? = some slash ∧ (splitParent path).2 ≠ [] ∧ parent ≠ 0 then
    (removeInBlocks fs (fs.inode parent) (splitParent path).2 (List.range 12)).map Prod.fst
  else none

variable {path name : List UInt8}

lemma OldName.finds {fs fs1 : Ext2Filesystem} {p t : Nat}
    (h : OldName fs path p name t fs1) : unlinkFinds fs path = some t := by
  rw [unlinkFinds]
  simp only [h.absolute, h.name_eq, h.lookup, h.name_ne, h.parent_ne, h.removed, ne_eq,
    not_false_eq_true, and_self, if_true, Option.map_some]

lemma OldName.inode {fs fs1 : Ext2Filesystem} {p t : Nat}
    (h : OldName fs path p name t fs1) (m : Nat) : fs1.inode m = fs.inode m := by
  obtain ⟨i, -, b', -, -, rfl⟩ := removeInBlocks_cases h.removed
  rfl

/-- A removal that finds its name edits a directory, and not its `.` or `..`. -/
def NiceUnlink (fs : Ext2Filesystem) (path : List UInt8) : Prop :=
  (unlinkFinds fs path).isSome = true → (fs.inode (ext2LookupInode fs (splitParent path).1)).isDir = true ∧
      (splitParent path).2 ≠ [46] ∧ (splitParent path).2 ≠ [46, 46]

/-- The write goes to an inode in use, or is refused. -/
def NiceWrite (fs : Ext2Filesystem) (inodeNum : Nat) : Prop :=
  fs.inodeUsed inodeNum = true ∨ fs.inodesCount ≤ inodeNum

instance (fs : Ext2Filesystem) (path : List UInt8) : Decidable (NiceUnlink fs path) :=
  inferInstanceAs (Decidable (_ → _))

instance (fs : Ext2Filesystem) (inodeNum : Nat) : Decidable (NiceWrite fs inodeNum) :=
  inferInstanceAs (Decidable (_ ∨ _))

def Op.Nice (fs : Ext2Filesystem) : Op → Prop
  | .write inodeNum _ _ => NiceWrite fs inodeNum
  | .unlink path => NiceUnlink fs path.bytes
  | _ => True

instance (fs : Ext2Filesystem) : (op : Op) → Decidable (op.Nice fs)
  | .create _ _ | .mkdir _ _ | .truncate _ => .isTrue trivial
  | .write inodeNum _ _ => inferInstanceAs (Decidable (NiceWrite fs inodeNum))
  | .unlink path => inferInstanceAs (Decidable (NiceUnlink fs path.bytes))

/-! ### Names -/

lemma length_splitParent_le (path : List UInt8) : (splitParent path).2.length ≤ path.length := by
  rw [splitParent]
  split_ifs <;> simp

lemma addEntryToDir_isDir {fs fs' : Ext2Filesystem} {d n : Nat}
    {fileType : UInt8} (h : addEntryToDir fs d n name fileType = some fs') :
    d < fs.inodesCount ∧ (fs.inode d).isDir = true := by
  rw [addEntryToDir] at h
  split_ifs at h with h1 h2
  exact ⟨by omega, h2⟩

section specs

variable {fs : Ext2Filesystem}

section

variable (hi : Inv fs)

include hi

lemma Inv.attached_lookup (h : ext2LookupInode fs path ≠ 0) :
    (treeOf fs).Attached 2 (ext2LookupInode fs path) :=
  attached_lookupInode hi.geometry hi.tree hi.dirs h

lemma Inv.used_lookup (h : ext2LookupInode fs path ≠ 0) : fs.inodeUsed (ext2LookupInode fs path) = true :=
  hi.tree.used_of_attached (hi.attached_lookup h)

lemma Inv.used_parent {p : Nat} (h : NewName fs path p name) : fs.inodeUsed p = true := by
  rw [← h.lookup]
  exact hi.used_lookup (by rw [h.lookup]; exact h.parent_ne)

/-- A new inode, filled in as in `node`, is attached under its name. -/
lemma Inv.attachNew {n p : Nat} (hn : FreeInode fs n)
    (hname : NewName fs path p name) (hlen : (splitParent path).2.length ≤ 255) {node fs1 : Ext2Filesystem} {d : Bool}
    (hnode : Inv node ∧ Forest.Sim ((treeOf fs).alloc n d p) (treeOf node)) {fileType : UInt8}
    (hup : (node.inode n).isDir = true → dirUp node n = p) (hadd : addEntryToDir node p n name fileType = some fs1) :
    (treeOf fs).Dir p ∧ Inv fs1 ∧ Grows p (blocksOf p) node fs1 ∧
      Forest.Sim (((treeOf fs).alloc n d p).link p name n) (treeOf fs1) := by
  obtain ⟨hi1, hsim⟩ := hnode
  have hp := hi.used_parent hname
  have hpn := ne_of_freeInode hn hp
  have hused : ∀ q, (treeOf node).used q = ((treeOf fs).alloc n d p).used q := hsim.used
  have hp1 : (treeOf node).Dir p := ⟨by rw [hused]; simp [Forest.alloc, treeOf, hp], (addEntryToDir_isDir hadd).2⟩
  have hp0 : (treeOf fs).Dir p := (Forest.dir_alloc_of_ne hpn).mp (hsim.dir.mp hp1)
  have hn1 : (treeOf node).used n = true := by rw [hused]; simp [Forest.alloc]
  obtain ⟨hi2, hsim2, hgrow⟩ := hi1.link hp1 hn1 (hi.tree.ne_of_unused hn.2.2).symm
    ((hi.tree.unlinked_alloc hn.2.2).of_sim hsim) hup (by rw [← hname.name_eq]; exact hlen) hadd
  exact ⟨hp0, hi2, hgrow, (hsim.link ((Forest.dir_alloc_of_ne hpn).mpr hp0)).trans hsim2⟩

/-- `ext2_create` fails without a trace, or adds one file under a directory. -/
lemma create_spec (path : Path) (mode : UInt16) :
    (∃ fs', ext2Create fs path.bytes mode = (0, fs') ∧ Still fs fs') ∨
    ∃ n p name fs1, FreeInode fs n ∧ NewName fs path.bytes p name ∧ (treeOf fs).Dir p ∧
      addEntryToDir (fileNode fs n mode) p n name 1 = some fs1 ∧
      ext2Create fs path.bytes mode = (n, flush (ext2WriteInode fs1 n)) ∧ Inv fs1 ∧
      Grows p (blocksOf p) (fileNode fs n mode) fs1 ∧ WriteBack fs1 (flush (ext2WriteInode fs1 n)) ∧
      Forest.Sim (((treeOf fs).alloc n false p).link p name n) (treeOf fs1) := by
  rcases create_cases fs path.bytes mode with h | ⟨n, hn, h⟩ | ⟨n, p, name, fs1, hn, -, hname, hadd, h⟩
  · exact .inl ⟨fs, h, Still.refl fs⟩
  · exact .inl ⟨_, h, still_createFailed hn mode⟩
  · right
    have hlen := (length_splitParent_le path.bytes).trans (Nat.le_of_lt_succ path.short)
    obtain ⟨hp0, hi2, hgrow, hsim⟩ := hi.attachNew hn hname hlen (hi.fileNode hn mode p)
      (fun h => by rw [inode_fileNode, isDir_fileInode] at h; cases h) hadd
    have hw := WriteBack.writeInode hi2.geometry n
    exact ⟨n, p, name, fs1, hn, hname, hp0, hadd, h, hi2, hgrow,
      hw.trans (WriteBack.flush (hi2.geometry.of_shape hw.shape)), hsim⟩

/-- `ext2_mkdir` fails without a trace, or adds one empty directory under a directory. -/
lemma mkdir_spec (path : List UInt8) (mode : UInt16) :
    (∃ fs', ext2Mkdir fs path mode = (0, fs') ∧ Still fs fs') ∨
    ∃ n b p name fs1, FreeInode fs n ∧ FreeBlock fs b ∧ NewName fs (stripTrailing path) p name ∧
      (treeOf fs).Dir p ∧ addEntryToDir (dirNode fs n b p mode) p n name 2 = some fs1 ∧ ext2Mkdir fs path mode =
        (n, flush (ext2WriteInode (ext2WriteInode (incLinks fs1 p) n) p)) ∧ Inv fs1 ∧
      Grows p (blocksOf p) (dirNode fs n b p mode) fs1 ∧ Agree fs1 (incLinks fs1 p) ∧ WriteBack (incLinks fs1 p)
        (flush (ext2WriteInode (ext2WriteInode (incLinks fs1 p) n) p)) ∧
      Forest.Sim (((treeOf fs).alloc n true p).link p name n) (treeOf fs1) := by
  rcases mkdir_cases hi.geometry path mode with h | ⟨n, hn, h⟩ | ⟨n, b, p, hn, hb, h⟩ |
    ⟨n, b, p, name, fs1, hn, hb, -, hshort, hname, hadd, h⟩
  · exact .inl ⟨fs, h, Still.refl fs⟩
  · exact .inl ⟨_, h, still_noBlock hn⟩
  · exact .inl ⟨_, h, still_mkdirFailed hi.geometry hn hb p mode⟩
  · right
    have hp32 := hi.lt_pow (hi.used_parent hname)
    have hlen := (length_splitParent_le (stripTrailing path)).trans (by omega : (stripTrailing path).length ≤ 255)
    obtain ⟨hp0, hi2, hgrow, hsim⟩ := hi.attachNew hn hname hlen (hi.dirNode hn hb mode hname.parent_ne hp32.2)
      (fun _ => (dirOk_dirNode hi.geometry hn hb (hi.fresh n hn.1 hn.2.1 hn.2.2) hname.parent_ne hp32.2).2.1) hadd
    have hinc : Agree fs1 (incLinks fs1 p) := Agree.setInode hp32.1 rfl rfl
    have hg := hi2.geometry.of_shape hinc.shape
    have hw1 := WriteBack.writeInode hg n
    have hw2 := WriteBack.writeInode (hg.of_shape hw1.shape) p
    have hw := (hw1.trans hw2).trans (WriteBack.flush ((hg.of_shape hw1.shape).of_shape hw2.shape))
    exact ⟨n, b, p, name, fs1, hn, hb, hname, hp0, hadd, h, hi2, hgrow, hinc, hw, hsim⟩

/-- `ext2_unlink` fails, or removes one name and then, unless the directory still holds entries,
the inode it named. -/
lemma unlink_spec (path : List UInt8) (hnice : NiceUnlink fs path) : ext2Unlink fs path = (-1, fs) ∨
    ∃ p name t fs1, OldName fs path p name t fs1 ∧ (treeOf fs).Dir p ∧
      (dirLinks fs p).Perm ((name, t) :: dirLinks fs1 p) ∧ Inv fs1 ∧ Grows p (blocksOf p) fs fs1 ∧
      Forest.Sim ((treeOf fs).cut p t) (treeOf fs1) ∧
      ((dirNotEmpty fs1 (fs1.inode t) ∧ ext2Unlink fs path = (-2, fs1)) ∨
        dirNotEmpty fs1 (fs1.inode t) = false ∧ ext2Unlink fs path = (0, unlinkTarget fs1 t) ∧
        Inv (unlinkTarget fs1 t) ∧ Releases t fs1 (unlinkTarget fs1 t) ∧
        Forest.Sim (((treeOf fs).cut p t).drop t) (treeOf (unlinkTarget fs1 t))) := by
  rcases unlink_cases fs path with h | ⟨p, name, t, fs1, hold, hcase⟩
  · exact .inl h
  · right
    have hlookup : ext2LookupInode fs (splitParent path).1 ≠ 0 := by
      rw [hold.lookup]
      exact hold.parent_ne
    obtain ⟨hdir, hdot, hdotdot⟩ := hnice (by rw [hold.finds]; rfl)
    rw [hold.lookup] at hdir
    rw [hold.name_eq] at hdot hdotdot
    have hp : (treeOf fs).Dir p := by
      refine ⟨?_, hdir⟩
      rw [← hold.lookup]
      exact hi.used_lookup hlookup
    obtain ⟨hi1, hsim, hperm, hgrow⟩ := hi.cut hp hdot hdotdot hold.removed
    have hmem : (name, t) ∈ dirLinks fs p := hperm.mem_iff.mpr List.mem_cons_self
    refine ⟨p, name, t, fs1, hold, hp, hperm, hi1, hgrow, hsim, ?_⟩
    rcases hcase with h | ⟨hempty, h⟩
    · exact .inl h
    · right
      have hlink := hi.tree.link_used p (name, t) hp hmem
      have ht : fs1.inodeUsed t = true := by
        have := hsim.used t
        exact this.trans hlink.1
      have hno := (hi.tree.unlinked_cut hp hmem).of_sim hsim
      have hrel := releases_unlinkTarget hi1.geometry hi1.owned ht
      obtain ⟨hi2, hsim2⟩ := hi1.release hrel ht hlink.2 hno
      exact ⟨hempty, h, hi2, hrel, hsim.drop.trans hsim2⟩

lemma write_spec (n : Nat) (offset : UInt32) (data : List UInt8) (hnice : NiceWrite fs n) :
    ((n ≥ fs.inodesCount ∨ (fs.inode n).isDir = true) ∧ ext2Write fs n offset data = (-1, fs)) ∨
    ∃ done fs1, fs.inodeUsed n ∧ n < fs.inodesCount ∧ (fs.inode n).isDir = false ∧
      writeLoop n offset.toNat data (mapLimit fs + 1) fs 0 = (done, fs1) ∧ ext2Write fs n offset data =
        ((done : Int), flush (ext2WriteInode (growSize fs1 n (offset.toNat + done)) n)) ∧
      GrowsFile n (blocksOf n) fs fs1 ∧ Inv fs1 ∧ Agree fs1 (growSize fs1 n (offset.toNat + done)) ∧
      WriteBack (growSize fs1 n (offset.toNat + done))
        (flush (ext2WriteInode (growSize fs1 n (offset.toNat + done)) n)) := by
  rcases write_cases fs n offset data with h | ⟨done, fs1, hlt, hdir, hloop, h⟩
  · exact .inl h
  · right
    have hn : fs.inodeUsed n = true := by
      rcases hnice with hn | hn
      · exact hn
      · omega
    have hgrow := grows_writeLoop offset.toNat data (mapLimit fs + 1) fs hi.geometry hi.owned hn 0
    rw [hloop] at hgrow
    have hi1 := hi.grows hgrow.toGrows blocksOf_inode hn hdir
    have hsize : Agree fs1 (growSize fs1 n (offset.toNat + done)) := by
      rw [growSize]
      split_ifs
      · exact Agree.setInode (inodeUsed_range hn).1 rfl rfl
      · exact Agree.refl fs1
    have hg := hi1.geometry.of_shape hsize.shape
    have hw := WriteBack.writeInode hg n
    exact ⟨done, fs1, hn, hlt, hdir, hloop, h, hgrow, hi1, hsize, hw.trans (WriteBack.flush (hg.of_shape hw.shape))⟩

lemma truncate_spec (path : List UInt8) : Agree fs (ext2Truncate fs path).2 := by
  rcases truncate_cases fs path with h | ⟨n, hlook, hn0, -, h⟩
  · rw [h]
    exact Agree.refl fs
  · have hn : fs.inodeUsed n = true := by
      rw [← hlook]
      exact hi.used_lookup (by rw [hlook]; exact hn0)
    have hset : Agree fs (fs.setInode n { fs.inode n with size := 0 }) :=
      Agree.setInode (inodeUsed_range hn).1 rfl rfl
    rw [h]
    exact hset.trans (WriteBack.writeInode (hi.geometry.of_shape hset.shape) n).agree

lemma inv_apply (op : Op) (hop : op.Nice fs) : Inv (op.apply fs) := by
  cases op with
  | create path mode =>
    rcases create_spec hi path mode with ⟨fs', h, hstill⟩ | ⟨n, p, name, fs1, -, -, -, -, h, hi1, -, hw, -⟩
    · rw [Op.apply, h]
      exact hstill.agree.inv hi
    · rw [Op.apply, h]
      exact hw.agree.inv hi1
  | mkdir path mode =>
    rcases mkdir_spec hi path.bytes mode with ⟨fs', h, hstill⟩ |
      ⟨n, b, p, name, fs1, -, -, -, -, -, h, hi1, -, hinc, hw, -⟩
    · rw [Op.apply, h]
      exact hstill.agree.inv hi
    · rw [Op.apply, h]
      exact hw.agree.inv (hinc.inv hi1)
  | write n offset data =>
    rcases write_spec hi n offset data hop with ⟨-, h⟩ | ⟨done, fs1, -, -, -, -, h, -, hi1, hsize, hw⟩
    · rw [Op.apply, h]
      exact hi
    · rw [Op.apply, h]
      exact hw.agree.inv (hsize.inv hi1)
  | truncate path => exact (truncate_spec hi path.bytes).inv hi
  | unlink path =>
    rcases unlink_spec hi path.bytes hop with h | ⟨p, name, t, fs1, -, -, -, hi1, -, -, ⟨-, h⟩ | ⟨-, h, hi2, -, -⟩⟩
    · rw [Op.apply, h]
      exact hi
    · rw [Op.apply, h]
      exact hi1
    · rw [Op.apply, h]
      exact hi2

end

end specs

end VibeOS
