import VibeOS.Ext2.Tidy

/-!
# Safety of every run

Three results about every state that a run of safe steps reaches from a formatted device: the blocks are exclusive, none
leaks, and the directories form a tree.
-/

namespace VibeOS

open Buf Ext2Filesystem Ownership

/-- A slot of an inode in use that holds a block. -/
def Refers (fs : Ext2Filesystem) (σ : Slot) : Prop :=
  fs.inodeUsed σ.inode = true ∧ own fs σ ≠ 0

instance (fs : Ext2Filesystem) (σ : Slot) : Decidable (Refers fs σ) :=
  inferInstanceAs (Decidable (_ ∧ _))

/-! ### Blocks -/

variable {device : Ramdisk}

/-- In every run of safe steps no block is referenced twice, every referenced block lies in the data
area and is marked used, and so `ext2_alloc_block` hands out none of them. -/
theorem run_blocks_exclusive (heap : Heap) (hroom : HasRoom device)
    (ops : List Op) (hnice : Along Op.apply Op.Nice (ext2Format heap device) ops) :
    let fs := run Op.apply (ext2Format heap device) ops
    (∀ σ τ, Refers fs σ → Refers fs τ → σ ≠ τ → own fs σ ≠ own fs τ) ∧
    (∀ σ, Refers fs σ → fs.firstDataBlock ≤ own fs σ ∧ own fs σ < fs.blocksCount ∧ fs.blockUsed (own fs σ) = true) ∧
    ∀ σ, Refers fs σ → (ext2AllocBlock fs).1 ≠ own fs σ := by
  intro fs
  have hi := inv_run heap hroom hnice
  refine ⟨fun σ τ hσ _ hne heq => hne (hi.owned.inj σ τ heq hσ.2), fun σ hσ => ?_, fun σ hσ heq => ?_⟩
  · have hr := hi.owned.range σ hσ.2
    exact ⟨hr.1, hr.2, hi.owned.marked σ hσ.2⟩
  · have hm := hi.owned.marked σ hσ.2
    rcases allocBlock_cases fs hi.geometry with ⟨halloc, -⟩ | ⟨b, -, -, hfree, -, halloc⟩
    · rw [halloc] at heq
      exact hσ.2 heq.symm
    · rw [halloc] at heq
      rw [← heq, hfree] at hm
      cases hm

theorem run_blocks_exclusive_create_write :
    let fs := run Op.apply (ext2Format zeroHeap smallDevice)
      [.home, .create (.ofString "/f") 0o644, .write 13 0 [7]]
    (∀ σ τ, Refers fs σ → Refers fs τ → σ ≠ τ → own fs σ ≠ own fs τ) ∧
    (∀ σ, Refers fs σ → fs.firstDataBlock ≤ own fs σ ∧ own fs σ < fs.blocksCount ∧ fs.blockUsed (own fs σ) = true) ∧
    ∀ σ, Refers fs σ → (ext2AllocBlock fs).1 ≠ own fs σ :=
  run_blocks_exclusive zeroHeap hasRoom_smallDevice _ (by decide)

set_option maxRecDepth 8192 in
/-- `ext2_unlink` of `/home/.` frees the inode of `/home`, but not its name. The inode is handed out
again to a failing `ext2_mkdir`, which leaves a pointer to a freed block in it; the block goes to
`/f`, and the removal of `/home` frees it under `/f`. -/
theorem blocks_exclusive_fails :
    let fs := run Op.apply (ext2Format zeroHeap smallDevice)
      [.home, .create (.ofString "/f") 0o644, .unlink (.ofString "/home/."),
        .mkdir (.ofString "/f/x") 0o755, .write 13 0 [7], .unlink (.ofString "/home")]
    HasRoom smallDevice ∧ Refers fs (.root 13 0) ∧ fs.blockUsed (own fs (.root 13 0)) = false ∧
      (ext2AllocBlock fs).1 = own fs (.root 13 0) :=
  ⟨hasRoom_smallDevice, by decide⟩

/-! ### The directory tree -/

lemma tidy_run (heap : Heap) (hroom : HasRoom device) {ops : List Op}
    (h : Along Op.apply (fun fs op => op.Nice fs ∧ op.Leaf fs) (ext2Format heap device) ops) :
    Inv (run Op.apply (ext2Format heap device) ops) ∧ (treeOf (run Op.apply (ext2Format heap device) ops)).Full 2 :=
  have hstart := tidy_format heap hroom
  run_invariant (I := fun fs => Inv fs ∧ (treeOf fs).Full 2)
    (fun _ op hi hop => ⟨inv_apply hi.1 op hop.1, full_apply hi.1 hi.2 op hop.1 hop.2⟩)
    ⟨hstart.1, hstart.2.2⟩ h

/-- The directory that `..` names is the one that holds the directory's own name. -/
lemma Inv.up_spec {fs : Ext2Filesystem} (hi : Inv fs) (hfull : (treeOf fs).Full 2) {d : Nat}
    (hd : (treeOf fs).Dir d) : (treeOf fs).Dir (dirUp fs d) ∧
      (d = 2 ∧ dirUp fs d = 2 ∨ ∃ name, (name, d) ∈ dirLinks fs (dirUp fs d)) := by
  cases hfull d hd.1 with
  | root =>
    have hroot : dirUp fs 2 = 2 := hi.tree.root_up
    exact ⟨by rw [hroot]; exact hi.tree.root_dir, .inl ⟨rfl, hroot⟩⟩
  | @link p e _ hp he =>
    have hup : dirUp fs e.2 = p := hi.tree.up_link _ _ hp he hd.2
    rw [hup]
    exact ⟨hp, .inr ⟨e.1, he⟩⟩

/-- In every run whose removals are safe and take leaves, every entry of a directory names an inode in
use, every directory holds its `.` and its `..`, which names the directory that holds it, and every
inode in use can be reached from the root. -/
theorem run_tree (heap : Heap) (hroom : HasRoom device) (ops : List Op)
    (h : Along Op.apply (fun fs op => op.Nice fs ∧ op.Leaf fs) (ext2Format heap device) ops) :
    let fs := run Op.apply (ext2Format heap device) ops
    (∀ d, fs.inodeUsed d = true → (fs.inode d).isDir = true →
      (∀ e ∈ dirPairs fs d, fs.inodeUsed e.2 = true) ∧ ([46], d) ∈ dirPairs fs d ∧
      ∃ p, ([46, 46], p) ∈ dirPairs fs d ∧ (treeOf fs).Dir p ∧ (d = 2 ∧ p = 2 ∨ ∃ name, (name, d) ∈ dirLinks fs p)) ∧
    ∀ n, fs.inodeUsed n = true → (treeOf fs).Attached 2 n := by
  intro fs
  obtain ⟨hi, hfull⟩ : Inv fs ∧ (treeOf fs).Full 2 := tidy_run heap hroom h
  refine ⟨fun d hd hdir => ?_, hfull⟩
  have hup := hi.up_spec hfull ⟨hd, hdir⟩
  rw [(hi.dirs d hd hdir).dirPairs_eq (hi.lt_pow hd)]
  refine ⟨fun e he => ?_, List.mem_cons_self, dirUp fs d, by simp, hup⟩
  rcases List.mem_cons.mp he with rfl | he
  · exact hd
  · rcases List.mem_cons.mp he with rfl | he
    · exact hup.1.1
    · exact (hi.tree.link_used d e ⟨hd, hdir⟩ he).1

set_option maxRecDepth 8192 in
theorem run_tree_mkdir_unlink :
    let fs := run Op.apply (ext2Format zeroHeap smallDevice)
      [.home, .mkdir (.ofString "/home/a") 0o755, .unlink (.ofString "/home/a")]
    (∀ d, fs.inodeUsed d = true → (fs.inode d).isDir = true →
      (∀ e ∈ dirPairs fs d, fs.inodeUsed e.2 = true) ∧ ([46], d) ∈ dirPairs fs d ∧
      ∃ p, ([46, 46], p) ∈ dirPairs fs d ∧ (treeOf fs).Dir p ∧ (d = 2 ∧ p = 2 ∨ ∃ name, (name, d) ∈ dirLinks fs p)) ∧
    ∀ n, fs.inodeUsed n = true → (treeOf fs).Attached 2 n :=
  run_tree zeroHeap hasRoom_smallDevice _ (by decide)

/-- After the removal of `/home/.` the root directory still names the inode of `/home`, which is no
longer in use. -/
theorem tree_fails :
    let fs := run Op.apply (ext2Format zeroHeap smallDevice) [.home, .unlink (.ofString "/home/.")]
    (fs.inodeUsed 2 = true ∧ (fs.inode 2).isDir = true) ∧
      (cstring "home", 12) ∈ dirPairs fs 2 ∧ fs.inodeUsed 12 = false := by
  decide

/-! ### Leaks and counters -/

/-- An owned block belongs to an inode in use when inodes that are not own nothing. -/
lemma Tight.used_of_own {fs : Ext2Filesystem} (ht : Tight fs) (hi : Inv fs) {σ : Slot}
    (h : own fs σ ≠ 0) : fs.inodeUsed σ.inode = true := by
  induction σ with
  | root i k =>
    rw [own] at h
    split_ifs at h with hc
    · by_contra hu
      have hu : fs.inodeUsed i = false := Bool.not_eq_true _ ▸ hu
      have hk0 : k ≠ 0 := fun h0 => by
        rw [hc.2.2.2 h0] at hu
        cases hu
      have htab := ht.tables i hc.1 hc.2.1 hu
      have hk : k < 12 ∨ k = 12 ∨ k = 13 := by omega
      rcases hk with hk | rfl | rfl
      · exact h (hi.fresh i hc.1 hc.2.1 hu k (by omega) hk)
      · exact h htab.1
      · exact h htab.2
    · exact absurd rfl h
  | child p j ih =>
    refine ih fun hz => h (own_child_of_zero hz j)

/-- In every run whose removals are safe, take leaves and leave no pointer tables behind, every
marked block is metadata or referenced by an inode in use that the root reaches, and both counters
are right. -/
theorem run_no_leak (heap : Heap) (hroom : HasRoom device) (ops : List Op)
    (h : Along Op.apply (fun fs op => op.Nice fs ∧ op.Flat fs ∧ op.Leaf fs)
      (ext2Format heap device) ops) :
    let fs := run Op.apply (ext2Format heap device) ops
    (∀ b < fs.blocksCount, fs.blockUsed b = true → b < fs.firstDataBlock ∨
      ∃ σ, Refers fs σ ∧ own fs σ = b ∧ (treeOf fs).Attached 2 σ.inode) ∧
    fs.superblock.freeBlocks.toNat = Bitmap.clearCount fs.blockBitmap fs.blocksCount ∧
    fs.superblock.freeInodes.toNat = Bitmap.clearCount fs.inodeBitmap fs.inodesCount := by
  intro fs
  obtain ⟨hi, ht, hfull⟩ : Inv fs ∧ Tight fs ∧ (treeOf fs).Full 2 :=
    run_invariant (I := fun fs => Inv fs ∧ Tight fs ∧ (treeOf fs).Full 2)
      (fun _ op hi hop => ⟨inv_apply hi.1 op hop.1, tight_apply hi.1 hi.2.1 op hop.1 hop.2.1,
        full_apply hi.1 hi.2.2 op hop.1 hop.2.2⟩) (tidy_format heap hroom) h
  refine ⟨fun b hb hu => ?_, ht.blocks, ht.inodes⟩
  by_cases hlo : b < fs.firstDataBlock
  · exact .inl hlo
  · right
    obtain ⟨σ, hσ⟩ := ht.noLeak b (by omega) hb hu
    have hge := hi.geometry.first_ge
    have hne : own fs σ ≠ 0 := by omega
    have hused := ht.used_of_own hi hne
    exact ⟨σ, ⟨hused, hne⟩, hσ, hfull _ hused⟩

set_option maxRecDepth 8192 in
theorem run_no_leak_create_unlink :
    let fs := run Op.apply (ext2Format zeroHeap smallDevice)
      [.home, .create (.ofString "/f") 0o644, .write 13 1024 [7], .unlink (.ofString "/f")]
    (∀ b < fs.blocksCount, fs.blockUsed b = true → b < fs.firstDataBlock ∨
      ∃ σ, Refers fs σ ∧ own fs σ = b ∧ (treeOf fs).Attached 2 σ.inode) ∧
    fs.superblock.freeBlocks.toNat = Bitmap.clearCount fs.blockBitmap fs.blocksCount ∧
    fs.superblock.freeInodes.toNat = Bitmap.clearCount fs.inodeBitmap fs.inodesCount :=
  run_no_leak zeroHeap hasRoom_smallDevice _ (by decide)

set_option maxRecDepth 8192 in
/-- Removing a file with a pointer table leaves the table marked, and nobody in use refers to it.
Removing `/home/.` and then `/home` counts one inode as freed twice. -/
theorem no_leak_fails :
    (let fs := run Op.apply (ext2Format zeroHeap smallDevice)
      [.home, .create (.ofString "/f") 0o644, .write 13 12288 [7], .unlink (.ofString "/f")]
    fs.blockUsed 10 = true ∧ fs.firstDataBlock ≤ 10 ∧ 10 < fs.blocksCount ∧ ∀ σ, Refers fs σ → own fs σ ≠ 10) ∧
    let fs := run Op.apply (ext2Format zeroHeap smallDevice)
      [.home, .unlink (.ofString "/home/."), .unlink (.ofString "/home")]
    fs.superblock.freeInodes.toNat ≠ Bitmap.clearCount fs.inodeBitmap fs.inodesCount := by
  refine ⟨?_, by decide⟩
  intro fs
  have heval : Along Op.apply Op.Nice (ext2Format zeroHeap smallDevice)
        [.home, .create (.ofString "/f") 0o644, .write 13 12288 [7], .unlink (.ofString "/f")] ∧
      fs.blockUsed 10 = true ∧ fs.firstDataBlock ≤ 10 ∧ 10 < fs.blocksCount ∧
      own fs (.root 13 12) = 10 ∧ fs.inodeUsed 13 = false := by decide
  obtain ⟨hnice, h1, h2, h3, h4, h5⟩ := heval
  have hi : Inv fs := inv_run zeroHeap hasRoom_smallDevice hnice
  refine ⟨h1, h2, h3, fun σ hσ heq => ?_⟩
  have hσ13 := hi.owned.inj σ (.root 13 12) (by rw [heq, h4]) hσ.2
  have hused : fs.inodeUsed 13 = true := (hσ13 ▸ hσ).1
  rw [h5] at hused
  cases hused

end VibeOS
