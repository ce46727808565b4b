import VibeOS.Ext2.Numbers

/-!
# When a refused removal leaves no trace

`ext2_unlink` takes the entry out of its directory first and looks afterwards whether the target is a directory with
entries of its own, of which it counts those of `block[0]` only. So the result `-1` never changes anything, `-2`
always does, and a directory whose further entries lie in other blocks is removed. `unlink_atomic` states what is
left. The geometry that reading a block back needs is kept by every operation, safe or not (`shape_apply_any`).
-/

namespace VibeOS

open List
open Buf Ext2Filesystem

/-! ### No operation changes the layout -/

section

variable (fs : Ext2Filesystem) (n : Nat)

lemma shape_allocBlock : (ext2AllocBlock fs).2.shape = fs.shape := by
  by_cases h : (ext2AllocBlock fs).1 = 0
  · rw [ext2AllocBlock] at h ⊢
    dsimp only at h ⊢
    split <;> rfl
  · rw [allocBlock_eq h, shape_markBlock]

lemma shape_ensureRoot (k : Nat) (table : Bool) : (ensureRoot fs n k table).2.shape = fs.shape := by
  have ha := shape_allocBlock fs
  rw [ensureRoot]
  dsimp only
  split_ifs
  all_goals first | rfl | exact ha

lemma shape_ensureEntry (t j : Nat) (table : Bool) : (ensureEntry fs n t j table).2.shape = fs.shape := by
  have ha := shape_allocBlock fs
  rw [ensureEntry]
  dsimp only
  split_ifs
  all_goals first | rfl | exact ha

lemma shape_bmapAlloc (bi : Nat) : (ext2BmapAlloc fs n bi).2.shape = fs.shape := by
  rw [ext2BmapAlloc]
  dsimp only
  split_ifs
  · exact shape_ensureRoot fs n bi false
  · exact shape_ensureRoot fs n 12 true
  · exact (shape_ensureEntry _ n _ _ false).trans (shape_ensureRoot fs n 12 true)
  · exact shape_ensureRoot fs n 13 true
  · exact (shape_ensureEntry _ n _ _ true).trans (shape_ensureRoot fs n 13 true)
  · exact (shape_ensureEntry _ n _ _ false).trans
      ((shape_ensureEntry _ n _ _ true).trans (shape_ensureRoot fs n 13 true))
  · rfl

lemma shape_writeLoop (offset : Nat) (data : List UInt8) (fuel done : Nat) :
    (writeLoop n offset data fuel fs done).2.shape = fs.shape := by
  induction fuel generalizing fs done with
  | zero => rfl
  | succ fuel ih =>
    have hb := shape_bmapAlloc fs n ((offset + done) / fs.bs % 2 ^ 32)
    rw [writeLoop]
    dsimp only
    split_ifs
    · exact hb
    · exact (ih _ _).trans hb
    · exact (ih _ _).trans hb
    · rfl

lemma shape_flush : (flush fs).shape = fs.shape := by
  rw [flush, shape_writeBitmaps, shape_writeSuperblock]

lemma shape_write (offset : UInt32) (data : List UInt8) : (ext2Write fs n offset data).2.shape = fs.shape := by
  have hloop := shape_writeLoop fs n offset.toNat data (mapLimit fs + 1) 0
  rw [ext2Write]
  dsimp only
  split_ifs
  · rfl
  · rfl
  all_goals
    refine (shape_flush _).trans ?_
    rw [shape_writeInode]
    exact hloop

lemma shape_freeDirect (l : List Nat) : (freeDirect fs n l).shape = fs.shape := by
  induction l generalizing fs with
  | nil => rfl
  | cons i l ih =>
    rw [freeDirect]
    split_ifs
    · rw [ih, shape_setInode, shape_freeBlock]
    · exact ih fs

lemma shape_unlinkTarget : (unlinkTarget fs n).shape = fs.shape := by
  refine (shape_flush _).trans ?_
  rw [shape_freeInodeNum, shape_writeInode, shape_setInode, shape_freeDirect]

lemma shape_allocInodeNum : (ext2AllocInodeNum fs).2.shape = fs.shape := by
  rcases allocInodeNum_cases fs with ⟨h, -⟩ | ⟨m, -, -, -, h⟩
  · rw [h]
  · rw [h, shape_markInode]

lemma shape_mkdir_failed {path : List UInt8} {mode : UInt16}
    (h : (ext2Mkdir fs path mode).1 = 0) : (ext2Mkdir fs path mode).2.shape = fs.shape := by
  have hi := shape_allocInodeNum fs
  have hb := (shape_allocBlock (ext2AllocInodeNum fs).2).trans hi
  rcases hsplit : splitDir (stripTrailing path) with ⟨pp, name⟩
  simp only [ext2Mkdir, hsplit] at h ⊢
  split_ifs at h ⊢ with h1 h2 h3 h4 h5 h6 h7
  all_goals first | rfl | exact hi | skip
  · rw [shape_freeInodeNum]
    exact hb
  · split at h
    · rw [shape_freeInodeNum, shape_freeBlock, shape_writeBlock, shape_setInode]
      exact hb
    · exact absurd h h6

end

lemma OldName.shape {fs fs₁ : Ext2Filesystem} {path name : List UInt8} {p t : Nat}
    (h : OldName fs path p name t fs₁) : fs₁.shape = fs.shape := by
  obtain ⟨i, -, b', -, -, rfl⟩ := removeInBlocks_cases h.removed
  rfl

lemma shape_apply_any (fs : Ext2Filesystem) (op : Op) : (op.apply fs).shape = fs.shape := by
  cases op with
  | create path mode =>
    rcases create_cases fs path.bytes mode with h | ⟨n, -, h⟩ | ⟨n, p, name, fs₁, -, -, -, hadd, h⟩
    · rw [Op.apply, h]
    · rw [Op.apply, h, shape_freeInodeNum]
      rfl
    · rw [Op.apply, h, shape_flush, shape_writeInode, (addEntryToDir_keeps hadd).1]
      rfl
  | mkdir path mode =>
    by_cases hn : (ext2Mkdir fs path.bytes mode).1 = 0
    · exact shape_mkdir_failed fs hn
    · exact (mkdir_success (Prod.ext rfl rfl) hn).2.1
  | write n offset data => exact shape_write fs n offset data
  | truncate path =>
    rw [Op.apply, ext2Truncate]
    split_ifs
    · rfl
    · exact shape_writeInode _
  | unlink path =>
    rcases unlink_cases fs path.bytes with h | ⟨p, name, t, fs₁, hold, ⟨-, h⟩ | ⟨-, h⟩⟩
    · rw [Op.apply, h]
    · rw [Op.apply, h]
      exact hold.shape
    · rw [Op.apply, h, shape_unlinkTarget]
      exact hold.shape

lemma shape_run (fs : Ext2Filesystem) (ops : List Op) : (run Op.apply fs ops).shape = fs.shape := by
  induction ops generalizing fs with
  | nil => rfl
  | cons op ops ih => rw [run_cons, ih, shape_apply_any]

/-! ### The count before and after -/

section

variable {fs fs₁ : Ext2Filesystem} {path name : List UInt8} {p t : Nat}

/-- The directory that loses the entry has no block in common with `block[0]` of the target. -/
def Apart (fs : Ext2Filesystem) (path : List UInt8) (t : Nat) : Prop :=
  ∀ i < 12, (fs.inode (ext2LookupInode fs (splitParent path).1)).ptr i ≠ 0 →
    (fs.inode (ext2LookupInode fs (splitParent path).1)).ptr i ≠ (fs.inode t).ptr 0

/-- The path names no directory with more than two live entries in `block[0]`. -/
def UnlinkSafe (fs : Ext2Filesystem) (path : List UInt8) : Prop :=
  ∀ t, unlinkFinds fs path = some t → (fs.inode t).isDir = true → Apart fs path t ∧ dirNotEmpty fs (fs.inode t) = false

/-- Taking the entry out does not change the count of the target's first block. -/
lemma dirNotEmpty_removed (hg : Geometry fs) (hold : OldName fs path p name t fs₁)
    (hap : Apart fs path t) : dirNotEmpty fs₁ (fs₁.inode t) = dirNotEmpty fs (fs.inode t) := by
  rw [hold.inode]
  obtain ⟨i, hi, b', hz, -, rfl⟩ := removeInBlocks_cases hold.removed
  have hi := mem_range.mp hi
  rw [Apart, hold.lookup] at hap
  have hread : ext2ReadBlock (ext2WriteBlock fs ((fs.inode p).ptr i) b') ((fs.inode t).ptr 0) =
      ext2ReadBlock fs ((fs.inode t).ptr 0) :=
    readBlock_writeBlock_of_ne hg b' (hap i hi hz).symm
  rw [dirNotEmpty, dirNotEmpty, hread]
  rfl

lemma dirNotEmpty_of_file (h : (fs.inode t).isDir = false) : dirNotEmpty fs (fs.inode t) = false := by
  rw [dirNotEmpty, h]
  rfl

/-- A well-formed directory with an entry besides `.` and `..` in its first block has more than two
live entries there. -/
lemma dirNotEmpty_of_entry (hi : Inv fs) (ht : fs.inodeUsed t)
    (hdir : (fs.inode t).isDir = true) {e : List UInt8 × Nat} (he : e ∈ blockPairs fs t 0)
    (h1 : e.1 ≠ [46]) (h2 : e.1 ≠ [46, 46]) : dirNotEmpty fs (fs.inode t) = true := by
  have hok := hi.dirs t ht hdir
  obtain ⟨q, r, rest, hq, hes⟩ := hok.dots
  have hpairs := blockPairs_zero_of_dots hok.first (hi.lt_pow ht) hq hes
  have hchain := (hok.tiled 0 (by decide) hok.first).chain
  have hlen : (blockEntries (ext2ReadBlock fs ((fs.inode t).ptr 0))).length ≤ fs.bs := by
    rw [hi.geometry.bs_eq]
    have := hchain.length_le
    omega
  have hcount : countEntries (ext2ReadBlock fs ((fs.inode t).ptr 0)) fs.bs fs.bs 0 = (blockPairs fs t 0).length := by
    rw [blockPairs, if_neg hok.first]
    rw [hi.geometry.bs_eq] at hlen ⊢
    exact countEntries_eq hchain hlen
  have hrest : pairs rest ≠ [] := by
    intro hnil
    rw [hpairs, hnil] at he
    rcases mem_cons.mp he with rfl | he
    · exact h1 rfl
    rcases mem_cons.mp he with rfl | he
    · exact h2 rfl
    · cases he
  have hpos := length_pos_iff.mpr hrest
  rw [dirNotEmpty, hdir, hcount, hpairs]
  simp only [length_cons, Bool.true_and, Bool.and_eq_true, decide_eq_true_eq]
  exact ⟨hok.first, by omega⟩

lemma apart_of_ne (hi : Inv fs) (hold : OldName fs path p name t fs₁)
    (hp : fs.inodeUsed p) (ht : fs.inodeUsed t) (hne : p ≠ t) : Apart fs path t := by
  intro i hi' hz heq
  rw [hold.lookup] at hz heq
  have hpi := own_root_of_used hp (show i < 14 by omega)
  have hti := own_root_of_used ht (show 0 < 14 by omega)
  have hslot := hi.owned.inj (.root p i) (.root t 0) (by rw [hpi, hti, heq]) (by rw [hpi]; exact hz)
  injection hslot with hpt
  exact hne hpt

lemma unlinkFinds_cases (h : unlinkFinds fs path = some t) : ∃ p name fs₁, OldName fs path p name t fs₁ := by
  rw [unlinkFinds] at h
  split_ifs at h with hc
  obtain ⟨⟨t', fs₁⟩, hrem, rfl⟩ := Option.map_eq_some_iff.mp h
  exact ⟨_, _, fs₁, hc.1, rfl, hc.2.1, rfl, hc.2.2, hrem⟩

lemma unlink_of_finds (hg : Geometry fs) (hf : unlinkFinds fs path = some t) (hap : Apart fs path t) :
    (ext2Unlink fs path).1 = if dirNotEmpty fs (fs.inode t) then -2 else 0 := by
  rcases unlink_cases fs path with h | ⟨p, name, t', fs₁, hold, hres⟩
  · obtain ⟨p, name, fs₁, hold⟩ := unlinkFinds_cases hf
    rw [ext2Unlink] at h
    simp only [hold.absolute, ne_eq, not_true, if_false, hold.name_eq, hold.name_ne, hold.lookup,
      hold.parent_ne, hold.removed] at h
    split_ifs at h <;> cases h
  · have htt : t' = t := Option.some_inj.mp (hold.finds.symm.trans hf)
    subst htt
    rw [← dirNotEmpty_removed hg hold hap]
    rcases hres with ⟨hne, h⟩ | ⟨hne, h⟩
    · rw [h, hne]
      rfl
    · rw [h, hne]
      rfl

/-- A removal that finds its name is refused exactly if the directory has more than two live entries in `block[0]`. -/
lemma unlink_refuses_iff (hg : Geometry fs) (hf : unlinkFinds fs path = some t) (hap : Apart fs path t) :
    (ext2Unlink fs path).1 = -2 ↔ dirNotEmpty fs (fs.inode t) = true := by
  rw [unlink_of_finds hg hf hap]
  split_ifs with h <;> simp [h]

section

variable (hi : Inv fs) (hnice : NiceUnlink fs path)

include hi hnice

/-- What a safe removal finds is in use and is another inode than the directory it is taken from. -/
lemma apart_of_nice (hf : unlinkFinds fs path = some t) : Apart fs path t ∧ fs.inodeUsed t = true := by
  obtain ⟨p, name, fs₁, hold⟩ := unlinkFinds_cases hf
  obtain ⟨hpdir, hdot, hdotdot⟩ := hnice (by rw [hf]; rfl)
  rw [hold.lookup] at hpdir
  rw [hold.name_eq] at hdot hdotdot
  have hp0 : ext2LookupInode fs (splitParent path).1 ≠ 0 := by
    rw [hold.lookup]
    exact hold.parent_ne
  have hp : fs.inodeUsed p = true := hold.lookup ▸ hi.used_lookup hp0
  obtain ⟨-, -, -, hlinks⟩ := removeInBlocks_spec hi.geometry hi.owned hp (hi.dirs p hp hpdir)
    hdot hdotdot hold.removed
  have hmem : (name, t) ∈ (treeOf fs).links p := hlinks.mem_iff.mpr mem_cons_self
  have ht := (hi.tree.link_used p _ ⟨hp, hpdir⟩ hmem).1
  have hatt : (treeOf fs).Attached 2 p := hold.lookup ▸ hi.attached_lookup hp0
  exact ⟨apart_of_ne hi hold hp ht (hi.tree.ne_of_attached hatt ⟨hp, hpdir⟩ hmem).symm, ht⟩

/-- A refused removal has taken the name out of the directory. -/
lemma refused_changes (h : (ext2Unlink fs path).1 = -2) : (ext2Unlink fs path).2 ≠ fs := by
  intro heq
  rcases unlink_spec hi path hnice with h' | ⟨p, name, t, fs₁, -, -, hperm, -, -, -, ⟨-, h'⟩ | ⟨-, h', -⟩⟩
  · rw [h'] at h
    cases h
  · have hsame : fs₁ = fs := (congrArg Prod.snd h').symm.trans heq
    rw [hsame] at hperm
    have hlen := hperm.length_eq
    rw [length_cons] at hlen
    omega
  · rw [h'] at h
    cases h

end

end

/-! ### Atomicity -/

/-- In every run, whatever the operations are: the result `-1` leaves everything as it was; so does every negative
result when the path names no directory with more than two live entries in its first block; a directory with that
many, and no other, is refused with `-2`. In runs of safe steps this is the exact condition for the first, and a
directory with an entry besides `.` and `..` in its first block has that many. -/
theorem unlink_atomic (heap : Heap) {device : Ramdisk} (hroom : HasRoom device) (ops : List Op)
    (path : List UInt8) :
    let fs := run Op.apply (ext2Format heap device) ops
    ((ext2Unlink fs path).1 = -1 → (ext2Unlink fs path).2 = fs) ∧
    (UnlinkSafe fs path → (ext2Unlink fs path).1 < 0 → (ext2Unlink fs path).2 = fs) ∧
    (∀ t, unlinkFinds fs path = some t → Apart fs path t →
      ((ext2Unlink fs path).1 = -2 ↔ dirNotEmpty fs (fs.inode t) = true)) ∧
    (Along Op.apply Op.Nice (ext2Format heap device) ops → NiceUnlink fs path →
      (((ext2Unlink fs path).1 < 0 → (ext2Unlink fs path).2 = fs) ↔ UnlinkSafe fs path) ∧
      ∀ t, unlinkFinds fs path = some t → (fs.inode t).isDir = true →
        ((ext2Unlink fs path).1 = -2 ↔ dirNotEmpty fs (fs.inode t) = true) ∧
        ((∃ e ∈ blockPairs fs t 0, e.1 ≠ [46] ∧ e.1 ≠ [46, 46]) → dirNotEmpty fs (fs.inode t) = true)) := by
  intro fs
  have hg : Geometry fs := (inv_format heap hroom).geometry.of_shape (shape_run _ ops)
  have hminus : (ext2Unlink fs path).1 = -1 → (ext2Unlink fs path).2 = fs := by
    intro h
    rcases unlink_cases fs path with h' | ⟨p, name, t, fs₁, -, ⟨-, h'⟩ | ⟨-, h'⟩⟩
    · rw [h']
    · rw [h'] at h
      cases h
    · rw [h'] at h
      cases h
  have hsafe : UnlinkSafe fs path → (ext2Unlink fs path).1 < 0 → (ext2Unlink fs path).2 = fs := by
    intro hsafe hneg
    rcases unlink_cases fs path with h' | ⟨p, name, t, fs₁, hold, ⟨hfull, h'⟩ | ⟨-, h'⟩⟩
    · rw [h']
    · -- the target cannot be a directory that is too full
      exfalso
      by_cases hdir : (fs.inode t).isDir = true
      · obtain ⟨hap, hempty⟩ := hsafe t hold.finds hdir
        rw [dirNotEmpty_removed hg hold hap, hempty] at hfull
        cases hfull
      · have hfile : (fs₁.inode t).isDir = false := by
          rw [hold.inode]
          exact Bool.not_eq_true _ ▸ hdir
        rw [dirNotEmpty_of_file hfile] at hfull
        cases hfull
    · rw [h'] at hneg
      exact absurd hneg (lt_irrefl _)
  refine ⟨hminus, hsafe, fun t hf hap => unlink_refuses_iff hg hf hap, fun hnice hpath => ?_⟩
  have hi : Inv fs := inv_run heap hroom hnice
  refine ⟨⟨fun hkeep t hf hdir => ?_, hsafe⟩, fun t hf hdir => ?_⟩
  · obtain ⟨hap, -⟩ := apart_of_nice hi hpath hf
    refine ⟨hap, by_contra fun hfull => ?_⟩
    have hres := (unlink_refuses_iff hg hf hap).mpr (Bool.eq_true_of_not_eq_false hfull)
    exact refused_changes hi hpath hres (hkeep (by rw [hres]; decide))
  · obtain ⟨hap, ht⟩ := apart_of_nice hi hpath hf
    exact ⟨unlink_refuses_iff hg hf hap, fun ⟨e, he, h1, h2⟩ => dirNotEmpty_of_entry hi ht hdir he h1 h2⟩

/-- The small device with a file `a` in `/home`. -/
def fullHomeOps : List Op := [.home, .create (.ofString "/home/a") 0o644]

def fullHome : Ext2Filesystem := run Op.apply (ext2Format zeroHeap smallDevice) fullHomeOps

set_option maxRecDepth 8192 in
theorem unlink_atomic_home : (ext2Unlink fullHome (cstring "/home")).1 = -2 := by
  have hnice : Along Op.apply Op.Nice (ext2Format zeroHeap smallDevice) fullHomeOps := by decide
  have heval : NiceUnlink fullHome (cstring "/home") ∧
      unlinkFinds fullHome (cstring "/home") = some 12 ∧ (fullHome.inode 12).isDir = true ∧
      ∃ e ∈ blockPairs fullHome 12 0, e.1 ≠ [46] ∧ e.1 ≠ [46, 46] := by decide
  obtain ⟨hpath, hf, hdir, he⟩ := heval
  have hunlink := ((unlink_atomic zeroHeap hasRoom_smallDevice fullHomeOps (cstring "/home")).2.2.2 hnice hpath).2
    12 hf hdir
  exact hunlink.1.mpr (hunlink.2 he)

/-- The refused removal of `/home` has removed its name, and `/home/.` is removed although the
directory holds the file `a`. -/
theorem unlink_atomic_fails : (ext2Unlink fullHome (cstring "/home")).1 = -2 ∧
      ext2LookupInode fullHome (cstring "/home") = 12 ∧
      ext2LookupInode (ext2Unlink fullHome (cstring "/home")).2 (cstring "/home") = 0 ∧
      findEntryInDir fullHome 12 (cstring "a") = 13 ∧ unlinkFinds fullHome (cstring "/home/.") = some 12 ∧
      (ext2Unlink fullHome (cstring "/home/.")).1 = 0 := by
  decide

end VibeOS
