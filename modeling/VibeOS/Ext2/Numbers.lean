import VibeOS.Ext2.Format

/-!
# Inode numbers at the upper end

`ext2_alloc_inode_num` scans the 0-based bits `11 .. inodes_count - 1` and returns the 1-based number of the first
clear one, so `inodes_count` itself can be handed out. `ext2_write_inode` and `ext2_free_inode_num` accept that
number, but `ext2_stat`, `ext2_read`, `ext2_write`, `ext2_truncate`, `ext2_readdir`, `find_entry_in_dir` and
`add_entry_to_dir` all reject `inode_num >= inodes_count`. Below it the functions agree (`number_usable`).
-/

namespace VibeOS

open Buf Ext2Filesystem

section numbers

variable {fs fs' : Ext2Filesystem} {n d : Nat} {path name : List UInt8} {mode : UInt16}
  {fileType : UInt8}

/-- No function turns the number away: each of them goes on to what the inode's own contents
decide. Reading a directory's entries, searching it and adding to it ask for a directory, writing
for anything else. -/
structure Usable (fs : Ext2Filesystem) (n : Nat) : Prop where
  stat : ext2Stat fs n = some (fs.inode n)
  read : ∀ offset size r, ext2Read fs n offset size = some r → 0 ≤ r.1
  write : (fs.inode n).isDir = false → ∀ offset data, 0 ≤ (ext2Write fs n offset data).1
  truncate : ∀ path, ext2LookupInode fs path = n → (ext2Truncate fs path).1 = 0
  readdir : (fs.inode n).isDir = true → ∀ maxEntries, 0 < maxEntries →
    ext2Readdir fs n maxEntries = readdirBlocks fs (fs.inode n) (List.range 12) maxEntries
  find : (fs.inode n).isDir = true → ∀ name,
    findEntryInDir fs n name = findInBlocks fs (fs.inode n) name (List.range 12)
  add : (fs.inode n).isDir = true → ∀ m name fileType,
    addEntryToDir fs n m name fileType = addInBlocks fs n m name fileType (List.range 12)
  writeInode : ext2WriteInode fs n = ext2WriteBlock fs (inodeBlockNum fs n)
    ((ext2ReadBlock fs (inodeBlockNum fs n)).blit (inodeOffset fs n) INODE_SIZE
      (fs.inode n).encode)

lemma usable_of_lt (hn : n ≠ 0) (hlt : n < fs.inodesCount) : Usable fs n where
  stat := by rw [ext2Stat, if_neg (by omega)]
  read := by
    intro offset size r h
    rw [ext2Read, if_neg (by omega)] at h
    dsimp only at h
    split_ifs at h
    · cases h
      exact le_refl _
    all_goals
      obtain ⟨r', -, rfl⟩ := Option.map_eq_some_iff.mp h
      exact Int.natCast_nonneg _
  write := by
    intro hdir offset data
    rw [ext2Write, if_neg (by omega), if_neg (by rw [hdir]; exact Bool.false_ne_true)]
    exact Int.natCast_nonneg _
  truncate := by
    intro path h
    rw [ext2Truncate]
    rw [h, if_neg (by omega)]
  readdir := by
    intro hdir maxEntries hmax
    rw [ext2Readdir, if_neg (by omega), if_neg (not_not.mpr hdir)]
  find := by
    intro hdir name
    rw [findEntryInDir, if_neg (by omega), if_neg (not_not.mpr hdir)]
  add := by
    intro hdir m name fileType
    rw [addEntryToDir, if_neg (by omega), if_neg (not_not.mpr hdir)]
  writeInode := by
    rw [ext2WriteInode, if_neg (by omega)]

/-- `ext2_stat` turns every other number away. -/
lemma Usable.lt (h : Usable fs n) : n < fs.inodesCount := by
  by_contra hlt
  have hstat := h.stat
  rw [ext2Stat, if_pos (by omega)] at hstat
  cases hstat

/-! ### What success reports -/

lemma allocBlock_eq (h : (ext2AllocBlock fs).1 ≠ 0) : (ext2AllocBlock fs).2 = markBlock fs (ext2AllocBlock fs).1 := by
  rw [ext2AllocBlock] at h ⊢
  split at h
  · rfl
  · exact absurd rfl h

/-- Adding an entry keeps the layout, every other inode and the directory's mode. -/
lemma addInBlocks_keeps {m : Nat} {l : List Nat} (hd : 1 ≤ d) (h : addInBlocks fs d m name fileType l = some fs') :
    fs'.shape = fs.shape ∧ (∀ k, 1 ≤ k → k ≠ d → fs'.inode k = fs.inode k) ∧
      (fs'.inode d).mode = (fs.inode d).mode := by
  induction l with
  | nil => cases h
  | cons i l ih =>
    rw [addInBlocks] at h
    dsimp only at h
    by_cases hz : (fs.inode d).ptr i = 0
    · split_ifs at h with hb
      have hmark := allocBlock_eq hb
      rw [hmark] at h
      cases h
      refine ⟨by simp, fun k hk hkd => ?_, by simp [Inode.setPtr]⟩
      rw [inode_writeInode, inode_writeBlock, inode_setInode_of_ne _ _ hd hk hkd, inode_markBlock]
    · rw [if_neg hz] at h
      split at h
      · cases h
        exact ⟨rfl, fun k _ _ => rfl, rfl⟩
      · exact ih h

lemma addEntryToDir_keeps {m : Nat} (h : addEntryToDir fs d m name fileType = some fs') :
    fs'.shape = fs.shape ∧ (∀ k, 1 ≤ k → k ≠ d → fs'.inode k = fs.inode k) ∧
      (fs'.inode d).mode = (fs.inode d).mode ∧ (fs.inode d).isDir = true := by
  obtain ⟨-, hdir⟩ := addEntryToDir_isDir h
  rw [addEntryToDir] at h
  split_ifs at h with hd
  obtain ⟨h1, h2, h3⟩ := addInBlocks_keeps (by omega) h
  exact ⟨h1, h2, h3, hdir⟩

/-- A file `ext2_create` reports is a file of size zero behind a number of the inode table. -/
lemma create_success (h : ext2Create fs path mode = (n, fs')) (hn : n ≠ 0) :
    n ≤ fs.inodesCount ∧ fs'.shape = fs.shape ∧ (fs'.inode n).isDir = false ∧ (fs'.inode n).size = 0 := by
  rcases create_cases fs path mode with h0 | ⟨m, -, h0⟩ | ⟨m, p, name, fs1, hfree, -, -, hadd, h0⟩
  · rw [h0] at h
    cases h
    exact absurd rfl hn
  · rw [h0] at h
    cases h
    exact absurd rfl hn
  · rw [h0] at h
    cases h
    obtain ⟨hshape, hother, -, hdir⟩ := addEntryToDir_keeps hadd
    have hnode : (fileNode fs n mode).inode n = fileInode (fs.inode n) mode :=
      inode_setInode_self _ _ _
    -- the new file is no directory, so it is not the directory that got the entry
    have hne : n ≠ p := by
      intro hnp
      rw [← hnp, hnode, isDir_fileInode] at hdir
      cases hdir
    have hinode : (flush (ext2WriteInode fs1 n)).inode n = fileInode (fs.inode n) mode := by
      rw [flush, inode_writeBitmaps, inode_writeSuperblock, inode_writeInode, hother n (by omega) hne, hnode]
    refine ⟨hfree.2.1, ?_, ?_, ?_⟩
    · rw [flush, shape_writeBitmaps, shape_writeSuperblock, shape_writeInode, hshape]
      rfl
    · rw [hinode, isDir_fileInode]
    · rw [hinode]
      rfl

lemma mkdir_success_cases (h : ext2Mkdir fs path mode = (n, fs')) (hn : n ≠ 0) :
    ∃ b p name fs1, FreeInode fs n ∧ p ≠ 0 ∧ addEntryToDir (dirNode fs n b p mode) p n name 2 = some fs1 ∧
      fs' = flush (ext2WriteInode (ext2WriteInode (incLinks fs1 p) n) p) := by
  rcases hsplit : splitDir (stripTrailing path) with ⟨pp, name⟩
  simp only [ext2Mkdir, hsplit] at h
  split_ifs at h with h1 h2 h3 h4 h5 h6 h7
  all_goals first | (cases h; exact absurd rfl hn) | skip
  rcases allocInodeNum_cases fs with ⟨ha, -⟩ | ⟨m, hm1, hm2, hm3, ha⟩
  · exact absurd (by rw [ha]) h6
  · rw [ha] at h h7
    have hmark := allocBlock_eq h7
    rw [hmark] at h
    split at h
    · cases h
      exact absurd rfl hn
    · rename_i fs1 hadd
      cases h
      exact ⟨_, _, name, fs1, ⟨by omega, hm2, hm3⟩, h4, hadd, rfl⟩

lemma mkdir_success (h : ext2Mkdir fs path mode = (n, fs')) (hn : n ≠ 0) :
    n ≤ fs.inodesCount ∧ fs'.shape = fs.shape ∧ (fs'.inode n).isDir = true := by
  obtain ⟨b, p, name, fs1, hfree, hp, hadd, rfl⟩ := mkdir_success_cases h hn
  obtain ⟨hshape, hother, hmode, -⟩ := addEntryToDir_keeps hadd
  have hnode : (dirNode fs n b p mode).inode n = dirInode fs n b mode :=
    inode_setInode_self _ _ _
  have hinode : (flush (ext2WriteInode (ext2WriteInode (incLinks fs1 p) n) p)).inode n = (incLinks fs1 p).inode n := by
    rw [flush, inode_writeBitmaps, inode_writeSuperblock, inode_writeInode, inode_writeInode]
  refine ⟨hfree.2.1, ?_, ?_⟩
  · rw [flush, shape_writeBitmaps, shape_writeSuperblock, shape_writeInode, shape_writeInode,
      incLinks, shape_setInode, hshape]
    rfl
  · rw [hinode, ← isDir_dirInode fs n b mode, ← hnode]
    apply isDir_eq_of_mode
    by_cases hnp : n = p
    · rw [← hnp] at hmode ⊢
      rw [incLinks, inode_setInode_self]
      exact hmode
    · rw [incLinks, inode_setInode_of_ne _ _ (by omega) (by omega) hnp, hother n (by omega) hnp]

end numbers

/-! ### Every number but the last is usable -/

/-- A number that the allocator returns is accepted by every function, in every state of the same layout, exactly if
it is not `inodes_count`; and so is that of a file or directory whose creation was reported. -/
theorem number_usable (fs : Ext2Filesystem) : (∀ n fs₁, ext2AllocInodeNum fs = (n, fs₁) → n ≠ 0 →
      ∀ g : Ext2Filesystem, g.inodesCount = fs.inodesCount → (Usable g n ↔ n ≠ fs.inodesCount)) ∧
    (∀ path mode n fs', ext2Create fs path mode = (n, fs') → n ≠ 0 →
      ((Usable fs' n ∧ (fs'.inode n).isDir = false ∧ ∀ offset size, ext2Read fs' n offset size = some (0, [])) ↔
        n ≠ fs.inodesCount)) ∧
    ∀ path mode n fs', ext2Mkdir fs path mode = (n, fs') → n ≠ 0 →
      ((Usable fs' n ∧ (fs'.inode n).isDir = true) ↔ n ≠ fs.inodesCount) := by
  refine ⟨?_, ?_, ?_⟩
  · intro n fs₁ h hn g hg
    rcases allocInodeNum_cases fs with ⟨ha, -⟩ | ⟨m, -, hm, -, ha⟩
    · rw [ha] at h
      cases h
      exact absurd rfl hn
    · rw [ha] at h
      cases h
      exact ⟨fun hu => hg ▸ hu.lt.ne, fun hne => usable_of_lt hn (by omega)⟩
  · intro path mode n fs' h hn
    obtain ⟨hle, hshape, hdir, hsize⟩ := create_success h hn
    have hc := inodesCount_of_shape hshape
    refine ⟨fun hu => hc ▸ hu.1.lt.ne, fun hne => ⟨usable_of_lt hn (by omega), hdir, fun offset size => ?_⟩⟩
    rw [ext2Read, if_neg (by omega)]
    dsimp only
    rw [hsize, if_pos (by exact Nat.zero_le _)]
  · intro path mode n fs' h hn
    obtain ⟨hle, hshape, hdir⟩ := mkdir_success h hn
    have hc := inodesCount_of_shape hshape
    exact ⟨fun hu => hc ▸ hu.1.lt.ne, fun hne => ⟨usable_of_lt hn (by omega), hdir⟩⟩

/-- The small device with `/home` made: `/bin` gets the last number but one, and works. -/
theorem number_usable_bin :
    let fs := (ext2Mkdir (formatRoot zeroHeap smallDevice) (cstring "//home") 0o755).2
    12 ≤ fs.inodesCount ∧ (ext2Mkdir fs (cstring "//bin") 0o755).1 = 13 ∧
      Usable (ext2Mkdir fs (cstring "//bin") 0o755).2 13 := by
  have heval :
      let fs := (ext2Mkdir (formatRoot zeroHeap smallDevice) (cstring "//home") 0o755).2
      fs.inodesCount = 14 ∧ (ext2Mkdir fs (cstring "//bin") 0o755).1 = 13 := by decide
  obtain ⟨hc, hn⟩ := heval
  refine ⟨by rw [hc]; decide, hn, ?_⟩
  exact (((number_usable _).2.2 (cstring "//bin") 0o755 13 _ (Prod.ext hn rfl) (by decide)).mpr
    (by rw [hc]; decide)).1

/-- A third directory on the small device: `ext2_mkdir` reports success for `//etc` with number 14, and
afterwards the directory can be neither stat'ed nor searched nor filled. -/
theorem number_usable_fails :
    let fs := (ext2Mkdir (ext2Mkdir (formatRoot zeroHeap smallDevice) (cstring "//home") 0o755).2
      (cstring "//bin") 0o755).2
    let fs' := (ext2Mkdir fs (cstring "//etc") 0o755).2
    12 ≤ fs.inodesCount ∧ (ext2Mkdir fs (cstring "//etc") 0o755).1 = 14 ∧ (ext2AllocInodeNum fs).1 = 14 ∧
      ext2Stat fs' 14 = none ∧ findEntryInDir fs' 14 [46] = 0 ∧ ext2Readdir fs' 14 32 = [] ∧
      (addEntryToDir fs' 14 2 [97] 1).isNone = true := by
  decide

end VibeOS
