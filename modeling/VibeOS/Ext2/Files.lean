import VibeOS.Ext2.Contents
import VibeOS.Ext2.Unlink

/-!
# Files as growable byte arrays

`FileState` pairs the filesystem with an abstract array for every inode number. A write that returns
`r` stores the first `r` bytes of its data in the array, `ext2_create` and `ext2_truncate` empty it,
and no other operation touches it. `filesOk_apply` is the simulation: as long as no write leaves a
gap that is not yet zero, every regular file is dense and holds what its array holds.
-/

namespace VibeOS

open Buf Ext2Filesystem Growable
open Function

def Regular (fs : Ext2Filesystem) (n : Nat) : Prop :=
  fs.inodeUsed n = true ∧ (fs.inode n).isDir = false

instance (fs : Ext2Filesystem) (n : Nat) : Decidable (Regular fs n) :=
  inferInstanceAs (Decidable (_ ∧ _))

/-! ### Steps that leave a file alone -/

/-- File `n` is as it was. -/
structure KeepsFile (n : Nat) (fs fs' : Ext2Filesystem) : Prop where
  regular : Regular fs n
  size : (fs'.inode n).size = (fs.inode n).size
  bytes : SameBytes n fs fs'

/-- The operation writes, empties or makes file `n`. -/
def Op.Targets (fs : Ext2Filesystem) (n : Nat) : Op → Prop
  | .create path mode => (ext2Create fs path.bytes mode).1 = n
  | .write inodeNum _ _ => inodeNum = n
  | .truncate path => ext2LookupInode fs path.bytes = n
  | .mkdir _ _ | .unlink _ => False

section keeps

variable {fs fs' fs'' : Ext2Filesystem} {n m p : Nat}

lemma KeepsFile.refl (h : Regular fs n) : KeepsFile n fs fs :=
  ⟨h, rfl, fun _ hi => ⟨hi, rfl⟩⟩

lemma KeepsFile.trans (h1 : KeepsFile n fs fs') (h2 : KeepsFile n fs' fs'') : KeepsFile n fs fs'' :=
  ⟨h1.regular, h2.size.trans h1.size, h1.bytes.trans h2.bytes⟩

lemma KeepsFile.dense (h : KeepsFile n fs fs') (hd : Dense fs n) : Dense fs' n :=
  hd.of_same h.bytes h.size

lemma KeepsFile.contents_eq (h : KeepsFile n fs fs') (hd : Dense fs n) : contents fs' n = contents fs n :=
  contents_of_same hd h.bytes h.size

lemma Agree.keepsFile (h : Agree fs fs') (ho : Owned fs) (hn : Regular fs' n)
    (hsize : (fs'.inode n).size = (fs.inode n).size) : KeepsFile n fs fs' := by
  have hu : fs.inodeUsed n = true := by
    rw [← h.inodeUsed]
    exact hn.1
  exact ⟨⟨hu, by rw [← h.isDir n hu]; exact hn.2⟩, hsize, h.sameBytes ho n⟩

lemma Still.keepsFile (h : Still fs fs') (ho : Owned fs) (hn : Regular fs' n) : KeepsFile n fs fs' := by
  refine h.agree.keepsFile ho hn ?_
  rw [h.inode n]
  rw [← h.agree.inodeUsed]
  exact hn.1

lemma WriteBack.keepsFile (h : WriteBack fs fs') (ho : Owned fs) (hn : Regular fs' n) : KeepsFile n fs fs' :=
  h.agree.keepsFile ho hn (by rw [h.inode])

lemma Grows.keepsFile {T : Slot → Prop} (h : Grows m T fs fs') (ho : Owned fs)
    (hT : ∀ τ, T τ → τ.inode = m) (hn : Regular fs' n) (hne : n ≠ m) : KeepsFile n fs fs' := by
  have hino := h.inode_ne n (inodeUsed_range hn.1).1 hne
  have hu : fs.inodeUsed n = true := by
    rw [← h.inodeUsed]
    exact hn.1
  exact ⟨⟨hu, by rw [← hino]; exact hn.2⟩, by rw [hino], h.sameBytes ho hT hne⟩

lemma Grows.keepsFile_of_dir (h : Grows p (blocksOf p) fs fs') (ho : Owned fs)
    (hp : (fs.inode p).isDir = true) (hn : Regular fs' n) : KeepsFile n fs fs' := by
  refine h.keepsFile ho blocksOf_inode hn ?_
  rintro rfl
  have := hn.2
  rw [h.isDir_eq (inodeUsed_range hn.1).1, hp] at this
  cases this

lemma keepsFile_fileNode (hm : FreeInode fs m) (mode : UInt16) (hn : Regular (fileNode fs m mode) n)
    (hne : n ≠ m) : KeepsFile n fs (fileNode fs m mode) := by
  have hino := inode_fileNode_of_ne hm mode (inodeUsed_range hn.1).1 hne
  have hu := hn.1
  rw [inodeUsed_fileNode hm] at hu
  exact ⟨⟨by simpa [hne] using hu, by rw [← hino]; exact hn.2⟩, by rw [hino], sameBytes_fileNode hm mode n⟩

lemma keepsFile_dirNode {b : Nat} {mode : UInt16} (hg : Geometry fs) (ho : Owned fs)
    (hm : FreeInode fs m) (hb : FreeBlock fs b) (hn : Regular (dirNode fs m b p mode) n) :
    KeepsFile n fs (dirNode fs m b p mode) := by
  have hne : n ≠ m := by
    rintro rfl
    have := hn.2
    rw [inode_dirNode, isDir_dirInode] at this
    cases this
  have hino : (dirNode fs m b p mode).inode n = fs.inode n :=
    inode_dirNode_of_ne hm (inodeUsed_range hn.1).1 hne
  have hu := hn.1
  rw [inodeUsed_dirNode hm] at hu
  exact ⟨⟨by simpa [hne] using hu, by rw [← hino]; exact hn.2⟩, by rw [hino], sameBytes_dirNode hg ho hm hb hne⟩

lemma Releases.keepsFile {t : Nat} (h : Releases t fs fs') (ho : Owned fs)
    (hn : Regular fs' n) : KeepsFile n fs fs' := by
  have hu := hn.1
  rw [h.inodeUsed, Bool.and_eq_true, decide_eq_true_eq] at hu
  have hino := h.inode_ne n (inodeUsed_range hn.1).1 hu.1
  exact ⟨⟨hu.2, by rw [← hino]; exact hn.2⟩, by rw [hino], h.sameBytes ho hu.1⟩

lemma keepsFile_apply (hi : Inv fs) (op : Op) (hop : op.Nice fs) (hn : Regular (op.apply fs) n)
    (htarget : ¬ op.Targets fs n) : KeepsFile n fs (op.apply fs) := by
  cases op with
  | create path mode =>
    rcases create_spec hi path mode with ⟨fs', h, hstill⟩ | ⟨m, p, name, fs1, hm, -, hp, hadd, h, hi1, hgrow, hw, -⟩
    · rw [Op.apply, h] at hn ⊢
      exact hstill.keepsFile hi.owned hn
    · rw [Op.Targets, h] at htarget
      rw [Op.apply, h] at hn ⊢
      have hw' := hw.keepsFile hi1.owned hn
      have hgrow' := hgrow.keepsFile_of_dir (hi.fileNode hm mode p).1.owned (addEntryToDir_isDir hadd).2 hw'.regular
      exact ((keepsFile_fileNode hm mode hgrow'.regular (Ne.symm htarget)).trans hgrow').trans hw'
  | mkdir path mode =>
    rcases mkdir_spec hi path.bytes mode with ⟨fs', h, hstill⟩ |
      ⟨m, b, p, name, fs1, hm, hb, -, hp, hadd, h, hi1, hgrow, hinc, hw, -⟩
    · rw [Op.apply, h] at hn ⊢
      exact hstill.keepsFile hi.owned hn
    · rw [Op.apply, h] at hn ⊢
      have hw' := hw.keepsFile (hinc.owned hi1.owned) hn
      have hinc' := hinc.keepsFile hi1.owned hw'.regular (by
        rw [incLinks]
        by_cases hnp : n = p
        · rw [hnp, inode_setInode_self]
        · rw [inode_setInode_of_ne _ _ (inodeUsed_range hp.1).1 (inodeUsed_range hn.1).1 hnp])
      have hgrow' := hgrow.keepsFile_of_dir (owned_dirNode hi.geometry hi.owned hm hb)
        (addEntryToDir_isDir hadd).2 hinc'.regular
      exact (((keepsFile_dirNode hi.geometry hi.owned hm hb hgrow'.regular).trans hgrow').trans hinc').trans hw'
  | write m offset data =>
    rcases write_spec hi m offset data hop with ⟨-, h⟩ | ⟨done, fs1, hm, -, -, -, h, hgrow, hi1, hsize, hw⟩
    · rw [Op.apply, h] at hn ⊢
      exact KeepsFile.refl hn
    · rw [Op.apply, h] at hn ⊢
      have hne : n ≠ m := Ne.symm htarget
      have hw' := hw.keepsFile (hsize.owned hi1.owned) hn
      have hsize' := hsize.keepsFile hi1.owned hw'.regular (by
        rw [growSize]
        split_ifs
        · rw [inode_setInode_of_ne _ _ (inodeUsed_range hm).1 (inodeUsed_range hn.1).1 hne]
        · rfl)
      exact ((hgrow.keepsFile hi.owned blocksOf_inode hsize'.regular hne).trans hsize').trans hw'
  | truncate path =>
    have hagree := truncate_spec hi path.bytes
    refine hagree.keepsFile hi.owned hn ?_
    rcases truncate_cases fs path.bytes with h | ⟨m, hlook, hm0, -, h⟩
    · rw [h]
    · have hne : n ≠ m := fun hnm => htarget (hlook.trans hnm.symm)
      rw [h, inode_writeInode, inode_setInode_of_ne _ _ (by omega) (inodeUsed_range hn.1).1 hne]
  | unlink path =>
    rcases unlink_spec hi path.bytes hop with h |
      ⟨p, name, t, fs1, hold, hp, -, hi1, hgrow, -, ⟨-, h⟩ | ⟨-, h, -, hrel, -⟩⟩
    · rw [Op.apply, h] at hn ⊢
      exact KeepsFile.refl hn
    · rw [Op.apply, h] at hn ⊢
      exact hgrow.keepsFile_of_dir hi.owned hp.2 hn
    · rw [Op.apply, h] at hn ⊢
      have hrel' := hrel.keepsFile hi1.owned hn
      exact (hgrow.keepsFile_of_dir hi.owned hp.2 hrel'.regular).trans hrel'

end keeps

/-! ### The simulation -/

/-- A filesystem with an array for every inode number. -/
structure FileState where
  fs : Ext2Filesystem
  files : Nat → GrowArray UInt8

/-- What an operation does to the arrays, given what it returned. -/
def Op.files (s : FileState) : Op → Nat → GrowArray UInt8
  | .create path mode => update s.files (ext2Create s.fs path.bytes mode).1 .empty
  | .write inodeNum offset data =>
    let r := (ext2Write s.fs inodeNum offset data).1
    if r < 0 then s.files
    else update s.files inodeNum
      ((s.files inodeNum).write offset.toNat (data.take r.toNat))
  | .truncate path =>
    if (ext2Truncate s.fs path.bytes).1 = 0 then
      update s.files (ext2LookupInode s.fs path.bytes) .empty
    else s.files
  | .mkdir _ _ | .unlink _ => s.files

/-- One operation on the filesystem and on the arrays. -/
def FileState.step (s : FileState) (op : Op) : FileState := ⟨op.apply s.fs, op.files s⟩

/-- The arrays at the start of a run; what the files then hold counts as written. -/
def FileState.start (fs : Ext2Filesystem) : FileState :=
  ⟨fs, fun n => .ofList (contents fs n)⟩

/-- A write that is not refused leaves no gap, or one that already holds zeros. -/
def Op.FillsGap (fs : Ext2Filesystem) : Op → Prop
  | .write inodeNum offset _ =>
    inodeNum < fs.inodesCount → (fs.inode inodeNum).isDir = false → ZeroGap fs inodeNum offset.toNat
  | _ => True

/-- Every regular file is dense and holds what its array holds. -/
def FilesOk (s : FileState) : Prop :=
  ∀ n, Regular s.fs n → Dense s.fs n ∧ contents s.fs n = (s.files n).items

section simulation

variable {s : FileState}

lemma Op.files_of_not_targets (op : Op) {n : Nat} (h : ¬ op.Targets s.fs n) : op.files s n = s.files n := by
  cases op with
  | create path mode => exact update_of_ne (Ne.symm h) _ _
  | mkdir path mode => rfl
  | write m offset data =>
    rw [Op.files]
    split_ifs
    · rfl
    · exact update_of_ne (Ne.symm h) _ _
  | truncate path =>
    rw [Op.files]
    split_ifs
    · exact update_of_ne (Ne.symm h) _ _
    · rfl
  | unlink path => rfl

variable {fs : Ext2Filesystem}

lemma dense_of_empty {n : Nat} (h : (fs.inode n).size = 0) : Dense fs n ∧ contents fs n = [] := by
  refine ⟨fun i hi => ?_, ?_⟩
  · rw [h] at hi
    cases hi
  · rw [contents, h]
    rfl

lemma create_size (hi : Inv fs) (path : Path) (mode : UInt16)
    (h0 : (ext2Create fs path.bytes mode).1 ≠ 0) :
    ((ext2Create fs path.bytes mode).2.inode (ext2Create fs path.bytes mode).1).size = 0 := by
  rcases create_spec hi path mode with ⟨fs', h, -⟩ | ⟨m, p, name, fs1, hm, -, hp, -, h, -, hgrow, hw, -⟩
  · rw [h] at h0
    exact absurd rfl h0
  · rw [h, hw.inode, hgrow.inode_ne m hm.1 (ne_of_freeInode hm hp.1).symm, inode_fileNode]
    rfl

lemma truncate_size {path : List UInt8} (h0 : (ext2Truncate fs path).1 = 0) :
    ((ext2Truncate fs path).2.inode (ext2LookupInode fs path)).size = 0 := by
  rcases truncate_cases fs path with h | ⟨n, hlook, -, -, h⟩
  · rw [h] at h0
    cases h0
  · rw [h, hlook, inode_writeInode, inode_setInode_self]

lemma regular_of_write (hi : Inv fs) {n : Nat} (hnice : NiceWrite fs n)
    {offset : UInt32} {data : List UInt8} (h : Regular (ext2Write fs n offset data).2 n) : Regular fs n := by
  rcases write_spec hi n offset data hnice with ⟨-, h'⟩ | ⟨done, fs1, hn, -, hdir, -⟩
  · rw [h'] at h
    exact h
  · exact ⟨hn, hdir⟩

lemma write_overwrites (hi : Inv fs) {n : Nat} (hnice : NiceWrite fs n)
    (offset : UInt32) (data : List UInt8) (hdense : Dense fs n)
    (hgap : n < fs.inodesCount → (fs.inode n).isDir = false → ZeroGap fs n offset.toNat) :
    Dense (ext2Write fs n offset data).2 n ∧ contents (ext2Write fs n offset data).2 n =
      if (ext2Write fs n offset data).1 < 0 then contents fs n else overwrite (contents fs n) offset.toNat
        (data.take (ext2Write fs n offset data).1.toNat) := by
  rcases write_spec hi n offset data hnice with ⟨-, h⟩ | ⟨done, fs1, hn, hlt, hdir, hloop, h, hgrow, hi1, hsize, hw⟩
  · rw [h]
    exact ⟨hdense, rfl⟩
  · rw [h]
    rw [if_neg (by omega), Int.toNat_natCast]
    exact write_contents hi hn hdense (hgap hlt hdir) hloop hgrow
      ((hsize.sameBytes hi1.owned n).trans (hw.agree.sameBytes (hsize.owned hi1.owned) n))
      (by rw [hw.inode])

lemma filesOk_start (hi : Inv fs) (h : ∀ n, Regular fs n → Dense fs n) :
    Inv (FileState.start fs).fs ∧ FilesOk (.start fs) :=
  ⟨hi, fun n hn => ⟨h n hn, rfl⟩⟩

lemma filesOk_apply (hi : Inv s.fs) (hok : FilesOk s) (op : Op) (hop : op.Nice s.fs)
    (hgap : op.FillsGap s.fs) : FilesOk (s.step op) := by
  intro n hn
  by_cases htarget : op.Targets s.fs n
  · cases op with
    | create path mode =>
      obtain rfl : (ext2Create s.fs path.bytes mode).1 = n := htarget
      have hn1 := (inodeUsed_range hn.1).1
      change Dense (ext2Create s.fs path.bytes mode).2 _ ∧ contents _ _ = (update s.files _ .empty _).items
      rw [update_self]
      exact dense_of_empty (create_size hi path mode (by omega))
    | write m offset data =>
      obtain rfl : m = n := htarget
      obtain ⟨hdense, hcont⟩ := hok m (regular_of_write hi hop hn)
      obtain ⟨hdense', hcont'⟩ := write_overwrites hi hop offset data hdense hgap
      refine ⟨hdense', ?_⟩
      change contents (ext2Write s.fs m offset data).2 m = (Op.files s (.write m offset data) m).items
      rw [hcont', Op.files, hcont]
      split_ifs
      · rfl
      · rw [update_self]
        rfl
    | truncate path =>
      obtain rfl : ext2LookupInode s.fs path.bytes = n := htarget
      by_cases h0 : (ext2Truncate s.fs path.bytes).1 = 0
      · change Dense (ext2Truncate s.fs path.bytes).2 _ ∧ contents _ _ = (Op.files s (.truncate path) _).items
        rw [Op.files, if_pos h0, update_self]
        exact dense_of_empty (truncate_size h0)
      · rcases truncate_cases s.fs path.bytes with h | ⟨_, -, -, -, h⟩
        · change Dense (ext2Truncate s.fs path.bytes).2 _ ∧ contents (ext2Truncate s.fs path.bytes).2
            _ = (Op.files s (.truncate path) _).items
          change Regular (ext2Truncate s.fs path.bytes).2 _ at hn
          rw [Op.files, if_neg h0, h]
          rw [h] at hn
          exact hok _ hn
        · exact absurd (congrArg Prod.fst h) h0
    | mkdir path mode => exact htarget.elim
    | unlink path => exact htarget.elim
  · have hkeep := keepsFile_apply hi op hop hn htarget
    obtain ⟨hdense, hcont⟩ := hok n hkeep.regular
    exact ⟨hkeep.dense hdense, by
      change _ = (op.files s n).items
      rw [Op.files_of_not_targets op htarget, ← hcont]
      exact hkeep.contents_eq hdense⟩

end simulation

/-! ### Runs -/

section

variable (heap : Heap) {device : Ramdisk} (hroom : HasRoom device)

include hroom

lemma not_regular_formatRoot (n : Nat) : ¬ Regular (formatRoot heap device) n := by
  obtain ⟨-, hn, -, b, hb, hw⟩ := writeBack_formatRoot heap hroom
  rintro ⟨hu, hdir⟩
  rw [hw.inodeUsed, inodeUsed_dirNode hn, inodeUsed_formatEmpty, Bool.or_false, decide_eq_true_eq] at hu
  rw [hu, hw.inode, inode_dirNode, isDir_dirInode] at hdir
  cases hdir

lemma dense_format : Inv (ext2Format heap device) ∧ ∀ n, Regular (ext2Format heap device) n →
      Dense (ext2Format heap device) n := by
  -- with every file as its own array, the simulation says that files stay dense
  have hstep : ∀ fs (op : Op), Inv fs ∧ (∀ n, Regular fs n → Dense fs n) → op.Nice fs →
      op.FillsGap fs → Inv (op.apply fs) ∧ ∀ n, Regular (op.apply fs) n → Dense (op.apply fs) n :=
    fun fs op h hop hgap => ⟨inv_apply h.1 op hop, fun n hn =>
      (filesOk_apply h.1 (filesOk_start h.1 h.2).2 op hop hgap n hn).1⟩
  exact format_induction (I := fun fs => Inv fs ∧ ∀ n, Regular fs n → Dense fs n) (fun _ h => h.1) (fun fs path mode h
    => hstep fs (.mkdir path mode) h trivial trivial) (fun fs path mode h => hstep fs (.create path mode) h trivial
    trivial) (fun fs n data h hn => hstep fs (.write n 0 data) h (.inl hn) fun _ _ _ hi => absurd hi
    (Nat.not_lt_zero _)) ⟨(inv_formatRoot heap hroom).1, fun n hn => absurd hn (not_regular_formatRoot heap hroom n)⟩

lemma filesOk_run {ops : List Op} (h : Along FileState.step (fun s op => op.Nice s.fs ∧ op.FillsGap s.fs)
      (.start (ext2Format heap device)) ops) : Inv (run FileState.step (.start (ext2Format heap device)) ops).fs ∧
      FilesOk (run FileState.step (.start (ext2Format heap device)) ops) := by
  have hstart := dense_format heap hroom
  exact run_invariant (I := fun s : FileState => Inv s.fs ∧ FilesOk s) (fun _ op hs hop => ⟨inv_apply hs.1 op hop.1,
    filesOk_apply hs.1 hs.2 op hop.1 hop.2⟩) (filesOk_start hstart.1 hstart.2) h

end

/-! ### Reads -/

/-- A write starts in the file or at its end. -/
def Op.Appends (fs : Ext2Filesystem) : Op → Prop
  | .write inodeNum offset _ => offset.toNat ≤ (fs.inode inodeNum).size.toNat
  | _ => True

instance (fs : Ext2Filesystem) : (op : Op) → Decidable (op.Appends fs)
  | .create _ _ | .mkdir _ _ | .truncate _ | .unlink _ => .isTrue trivial
  | .write _ _ _ => inferInstanceAs (Decidable (_ ≤ _))

instance (fs : Ext2Filesystem) : (op : Op) → Decidable (op.FillsGap fs)
  | .create _ _ | .mkdir _ _ | .truncate _ | .unlink _ => .isTrue trivial
  | .write _ _ _ => inferInstanceAs (Decidable (_ → _ → ZeroGap _ _ _))

lemma Op.Appends.fillsGap {fs : Ext2Filesystem} {op : Op} (h : op.Appends fs) : op.FillsGap fs := by
  cases op with
  | write n offset data =>
    have h : offset.toNat ≤ (fs.inode n).size.toNat := h
    exact fun _ _ i hi hsize => absurd hi (by omega)
  | _ => trivial

/-- File `n` of the filesystem behaves as the byte array `bytes`: it has its size, a read returns a
window of it, and a write or a truncation of another file does not change what a read returns. -/
structure IsArray (fs : Ext2Filesystem) (n : Nat) (bytes : List UInt8) : Prop where
  size : (fs.inode n).size.toNat = bytes.length
  read : ∀ (offset : UInt32) (size : Nat), offset.toNat + size < 2 ^ 64 → ext2Read fs n offset size =
      some (((min size (bytes.length - offset.toNat) : Nat) : Int), window bytes offset.toNat size)
  write : ∀ m, m ≠ n → NiceWrite fs m → ∀ at' data (offset : UInt32) (size : Nat), offset.toNat + size < 2 ^ 64 →
    ext2Read (ext2Write fs m at' data).2 n offset size = ext2Read fs n offset size
  truncate : ∀ path : Path, ext2LookupInode fs path.bytes ≠ n → ∀ (offset : UInt32) (size : Nat),
    offset.toNat + size < 2 ^ 64 →
    ext2Read (ext2Truncate fs path.bytes).2 n offset size = ext2Read fs n offset size

section reads

variable {fs fs' : Ext2Filesystem} {n : Nat}

lemma regular_write (hi : Inv fs) {m : Nat} (hnice : NiceWrite fs m) (offset : UInt32)
    (data : List UInt8) (hn : Regular fs n) : Regular (ext2Write fs m offset data).2 n := by
  rcases write_spec hi m offset data hnice with ⟨-, h⟩ | ⟨done, fs1, -, -, -, -, h, hgrow, -, hsize, hw⟩
  · rw [h]
    exact hn
  · have hn1 : fs1.inodeUsed n = true := by
      rw [hgrow.inodeUsed]
      exact hn.1
    rw [h]
    exact ⟨by rw [hw.inodeUsed, hsize.inodeUsed]; exact hn1, by
      rw [hw.inode, hsize.isDir n hn1, hgrow.isDir_eq (inodeUsed_range hn.1).1]
      exact hn.2⟩

lemma regular_truncate (hi : Inv fs) (path : List UInt8) (hn : Regular fs n) : Regular (ext2Truncate fs path).2 n := by
  have h := truncate_spec hi path
  exact ⟨by rw [h.inodeUsed]; exact hn.1, by rw [h.isDir n hn.1]; exact hn.2⟩

lemma read_apply (hi : Inv fs) (op : Op) (hop : op.Nice fs) (hn : Regular (op.apply fs) n)
    (htarget : ¬ op.Targets fs n) (hlt : n < fs.inodesCount) (hdense : Dense fs n)
    (offset : UInt32) {size : Nat} (hsize : offset.toNat + size < 2 ^ 64) :
    ext2Read (op.apply fs) n offset size = ext2Read fs n offset size := by
  have hkeep := keepsFile_apply hi op hop hn htarget
  have hshape := shape_apply_any fs op
  rw [read_eq hi.geometry hkeep.regular.1 hlt hdense offset hsize,
    read_eq (hi.geometry.of_shape hshape) hn.1 (by rw [inodesCount_of_shape hshape]; exact hlt)
      (hkeep.dense hdense) offset hsize, hkeep.contents_eq hdense]

lemma isArray_of_dense (hi : Inv fs) (hn : Regular fs n) (hlt : n < fs.inodesCount)
    (hdense : Dense fs n) : IsArray fs n (contents fs n) where
  size := (length_contents fs n).symm
  read offset size hsize := by
    rw [read_eq hi.geometry hn.1 hlt hdense offset hsize, length_window]
  write m hm hnice at' data _ _ hsize :=
    read_apply hi (.write m at' data) hnice (regular_write hi hnice at' data hn) hm hlt hdense _ hsize
  truncate path hpath _ _ hsize :=
    read_apply hi (.truncate path) trivial (regular_truncate hi path.bytes hn) hpath hlt hdense _ hsize

/-- In every run of safe steps whose writes leave no gap, every regular file below `inodes_count`
behaves as its array. -/
theorem run_file_contents (heap : Heap) {device : Ramdisk} (hroom : HasRoom device) (ops : List Op)
    (h : Along FileState.step (fun s op => op.Nice s.fs ∧ op.Appends s.fs)
      (.start (ext2Format heap device)) ops) (n : Nat)
    (hn : Regular (run FileState.step (.start (ext2Format heap device)) ops).fs n)
    (hlt : n < (run FileState.step (.start (ext2Format heap device)) ops).fs.inodesCount) :
    IsArray (run FileState.step (.start (ext2Format heap device)) ops).fs n
      ((run FileState.step (.start (ext2Format heap device)) ops).files n).items := by
  obtain ⟨hi, hok⟩ := filesOk_run heap hroom (h.mono fun _ _ hop => ⟨hop.1, hop.2.fillsGap⟩)
  obtain ⟨hdense, hcont⟩ := hok n hn
  rw [← hcont]
  exact isArray_of_dense hi hn hlt hdense

set_option maxRecDepth 8192 in
theorem run_file_contents_append :
    let s := run FileState.step (.start (ext2Format zeroHeap smallDevice))
      [.home, .create (.ofString "/f") 0o644, .write 13 0 [1, 2, 3], .write 13 2 [4, 5]]
    IsArray s.fs 13 (s.files 13).items ∧ (s.files 13).items = [1, 2, 4, 5] := by
  intro s
  -- one evaluation of the run for all that is read off it
  have heval : Along FileState.step (fun s op => op.Nice s.fs ∧ op.Appends s.fs)
        (.start (ext2Format zeroHeap smallDevice))
        [.home, .create (.ofString "/f") 0o644, .write 13 0 [1, 2, 3], .write 13 2 [4, 5]] ∧
      Regular s.fs 13 ∧ 13 < s.fs.inodesCount ∧ (s.files 13).items = [1, 2, 4, 5] := by decide
  obtain ⟨hops, hregular, hlt, hitems⟩ := heval
  exact ⟨run_file_contents zeroHeap hasRoom_smallDevice _ hops 13 hregular hlt, hitems⟩

set_option maxRecDepth 8192 in
/-- The file with the last inode number can be created, but neither read nor written. -/
theorem file_contents_fails :
    let ops : List Op := [.home, .create .a 0o644, .create (.ofString "/f") 0o644]
    let s := run FileState.step (.start (ext2Format zeroHeap smallDevice)) ops
    Along FileState.step (fun s op => op.Nice s.fs ∧ op.Appends s.fs)
      (.start (ext2Format zeroHeap smallDevice)) ops ∧
    Regular s.fs 14 ∧ ext2LookupInode s.fs (cstring "/f") = 14 ∧ (s.files 14).items = [] ∧
      ext2Read s.fs 14 0 1 = some (-1, []) ∧ (ext2Write s.fs 14 0 [7]).1 = -1 := by
  decide

/-- In every run of safe steps whose writes leave no gap that is not zero yet, a read of a regular
file below `inodes_count` is never short, and returns zeros where nothing was written. -/
theorem run_unwritten_zero (heap : Heap) {device : Ramdisk} (hroom : HasRoom device) (ops : List Op)
    (h : Along FileState.step (fun s op => op.Nice s.fs ∧ op.FillsGap s.fs)
      (.start (ext2Format heap device)) ops) (n : Nat)
    (hn : Regular (run FileState.step (.start (ext2Format heap device)) ops).fs n)
    (hlt : n < (run FileState.step (.start (ext2Format heap device)) ops).fs.inodesCount)
    (offset : UInt32) (size : Nat) (hsize : offset.toNat + size < 2 ^ 64) :
    let s := run FileState.step (.start (ext2Format heap device)) ops
    ∃ bytes, ext2Read s.fs n offset size = some ((bytes.length : Int), bytes) ∧
      bytes.length = min size ((s.fs.inode n).size.toNat - offset.toNat) ∧
      ∀ j < bytes.length, (s.files n).written (offset.toNat + j) = false → bytes.getD j 0 = 0 := by
  intro s
  obtain ⟨hi, hok⟩ := filesOk_run heap hroom h
  obtain ⟨hdense, hcont⟩ := hok n hn
  refine ⟨window (contents s.fs n) offset.toNat size,
    read_eq hi.geometry hn.1 hlt hdense offset hsize, by rw [length_window, length_contents], ?_⟩
  intro j _ hj
  rw [hcont]
  exact (s.files n).window_unwritten _ _ hj

set_option maxRecDepth 8192 in
theorem run_unwritten_zero_gap :
    let s := run FileState.step (.start (ext2Format zeroHeap smallDevice))
      [.home, .create (.ofString "/f") 0o644, .write 13 0 [0, 0, 0, 5],
        .truncate (.ofString "/f"), .write 13 2 [9]]
    ((s.files 13).written 1 = false ∧ (s.files 13).written 2 = true) ∧
    ∃ bytes, ext2Read s.fs 13 0 3 = some ((bytes.length : Int), bytes) ∧
      bytes.length = min 3 ((s.fs.inode 13).size.toNat - (0 : UInt32).toNat) ∧
      ∀ j < bytes.length, (s.files 13).written ((0 : UInt32).toNat + j) = false → bytes.getD j 0 = 0 := by
  have heval : let ops : List Op := [.home, .create (.ofString "/f") 0o644,
        .write 13 0 [0, 0, 0, 5], .truncate (.ofString "/f"), .write 13 2 [9]]
      let s := run FileState.step (.start (ext2Format zeroHeap smallDevice)) ops
      Along FileState.step (fun s op => op.Nice s.fs ∧ op.FillsGap s.fs)
          (.start (ext2Format zeroHeap smallDevice)) ops ∧
        Regular s.fs 13 ∧ 13 < s.fs.inodesCount ∧
        (s.files 13).written 1 = false ∧ (s.files 13).written 2 = true := by decide
  obtain ⟨hops, hregular, hlt, hwritten⟩ := heval
  exact ⟨hwritten, run_unwritten_zero zeroHeap hasRoom_smallDevice _ hops 13 hregular hlt 0 3 (by decide)⟩

set_option maxRecDepth 8192 in
/-- A new file whose first byte was never written shows a byte of the removed file `/a`. -/
theorem unwritten_zero_fails :
    let s := run FileState.step (.start (ext2Format zeroHeap smallDevice))
      [.create .a 0o644, .write 12 0 [5], .unlink .a, .create (.ofString "/f") 0o644, .write 12 1 [7]]
    Regular s.fs 12 ∧ 12 < s.fs.inodesCount ∧ (s.files 12).written 0 = false ∧
      ext2Read s.fs 12 0 2 = some (2, [5, 7]) := by
  decide

end reads

end VibeOS
