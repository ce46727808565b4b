import VibeOS.Ext2.Contents

/-!
# The two block maps

`ext2_bmap_alloc` and `ext2_read` compute the place of a logical block independently. By
`readBlockMap_spec` the reader finds the writer's block, and `0` where there is none. The exception is a
file with a double-indirect table and no single-indirect one: `ext2_read` tests `block[12] != 0` together with the
range, so an index of the single-indirect range falls through to the double-indirect branch and its index wraps.
`bmapAlloc_own_ne` says that mapping one index moves no other one, and `block_map_agrees` follows by induction on
the writes.
-/

namespace VibeOS

open Buf Ext2Filesystem Ownership

/-! ### The reader -/

section

variable {fs : Ext2Filesystem} {n : Nat}

/-- An index of the single-indirect range is read through a single-indirect table, or there is no
double-indirect one either. -/
def SparseOk (fs : Ext2Filesystem) (n bi : Nat) : Prop :=
  12 ≤ bi → bi < 268 → (fs.inode n).ptr 12 ≠ 0 ∨ (fs.inode n).ptr 13 = 0

/-- Elsewhere the index that `ext2_read` computes wraps around and leaves the double-indirect table. -/
lemma readBlockMap_outside (hg : Geometry fs) {bi : Nat} (h : ¬ SparseOk fs n bi) (cache : ReadCache) :
    readBlockMap fs (fs.inode n) cache bi = none := by
  simp only [SparseOk, Classical.not_imp, not_or, ne_eq, not_not] at h
  obtain ⟨hlo, hhi, h12, h13⟩ := h
  rw [readBlockMap, hg.ptrs_eq]
  dsimp only
  rw [if_neg (by omega), if_neg (fun hc => hc.2 h12), if_pos ⟨by omega, h13⟩, if_pos (by omega)]

end

/-! ### The writer moves no other index -/

section

variable {fs : Ext2Filesystem} {n : Nat}

lemma dataSlot_ne_of_level (n bi : Nat) {σ : Slot} (h : 0 < σ.level) : dataSlot n bi ≠ σ := by
  rintro rfl
  rw [dataSlot_level] at h
  exact lt_irrefl 0 h

variable (hg : Geometry fs) (ho : Owned fs) (hn : fs.inodeUsed n = true)

include hg ho hn

lemma ensureRoot_own_ne (table : Bool) {k : Nat} (hk : k < 14)
    (htable : 0 < (Slot.root n k).level → table) {σ : Slot} (hσ : σ ≠ .root n k) :
    own (ensureRoot fs n k table).2 σ = own fs σ := by
  rcases ensureRoot_cases hg n k table with ⟨-, h⟩ | ⟨-, h⟩ | ⟨hz, b, hb, hfree, h⟩
  · rw [h]
  · rw [h]
  · rw [h, own_growRoot hg ho hn hb hfree hk hz htable, if_neg hσ]

lemma ensureEntry_own_ne (table : Bool) {p : Slot} {j : Nat} (hp : 0 < p.level) (hj : j < 256)
    (hpo : own fs p ≠ 0) (htable : 0 < (Slot.child p j).level → table) {σ : Slot} (hσ : σ ≠ .child p j) :
    own (ensureEntry fs n (own fs p) j table).2 σ = own fs σ := by
  rcases ensureEntry_cases hg n (own fs p) j table with ⟨-, h⟩ | ⟨-, h⟩ | ⟨hz, b, hb, hfree, h⟩
  · rw [h]
  · rw [h]
  · rw [h, own_growEntry hg ho hn hb hfree hp hj hpo hz htable, if_neg hσ]

lemma bmapAlloc_own_ne {bi bj : Nat} (hne : bj ≠ bi) : blockOf (ext2BmapAlloc fs n bi).2 n bj = blockOf fs n bj := by
  have hslot : dataSlot n bj ≠ dataSlot n bi := fun h => hne (dataSlot_inj h)
  rw [blockOf, blockOf, ext2BmapAlloc, hg.ptrs_eq]
  by_cases h1 : bi < 12
  · simp only [h1, if_true]
    rw [dataSlot.eq_def n bi, if_pos h1] at hslot
    exact ensureRoot_own_ne hg ho hn false (by omega)
      (by rw [Slot.level, if_neg (by omega), if_neg (by omega)]; omega) hslot
  by_cases h2 : bi < 12 + 256
  · simp only [h1, h2, if_true, if_false]
    rw [dataSlot.eq_def n bi, if_neg h1, if_pos h2] at hslot
    have hroot := ensureRoot_own_ne hg ho hn true (show 12 < 14 by omega) (fun _ => rfl)
      (dataSlot_ne_of_level n bj (by exact Nat.one_pos))
    have hgrow := grows_ensureRoot true hg ho hn (show 12 < 14 by omega) fun _ => rfl
    rcases hr : ensureRoot fs n 12 true with ⟨t, fs1⟩
    rw [hr] at hroot hgrow
    obtain ⟨hgr, ht⟩ := hgrow
    dsimp only at hroot hgr ht ⊢
    subst ht
    split_ifs with h0
    · exact hroot
    · rw [← hroot]
      exact ensureEntry_own_ne (hg.of_shape hgr.shape) hgr.owned
        (by rw [hgr.inodeUsed]; exact hn) false (p := .root n 12) Nat.one_pos (by omega) h0
        (by simp [Slot.level]) hslot
  by_cases h3 : bi < 12 + 256 + 256 * 256
  · simp only [h1, h2, h3, if_true, if_false]
    rw [dataSlot.eq_def n bi, if_neg h1, if_neg (by omega), show bi - 268 = bi - 12 - 256 by omega] at hslot
    have hroot := ensureRoot_own_ne hg ho hn true (show 13 < 14 by omega) (fun _ => rfl)
      (dataSlot_ne_of_level n bj (by exact Nat.two_pos))
    have hgrow := grows_ensureRoot true hg ho hn (show 13 < 14 by omega) fun _ => rfl
    rcases hr : ensureRoot fs n 13 true with ⟨t, fs1⟩
    rw [hr] at hroot hgrow
    obtain ⟨hgr, ht⟩ := hgrow
    dsimp only at hroot hgr ht ⊢
    subst ht
    split_ifs with h0 h0'
    · exact hroot
    all_goals
      have hg1 := hg.of_shape hgr.shape
      have hn1 : fs1.inodeUsed n = true := by rw [hgr.inodeUsed]; exact hn
      have hl2 := ensureEntry_own_ne hg1 hgr.owned hn1 true (p := .root n 13) Nat.two_pos
        (show (bi - 12 - 256) / 256 < 256 by omega) h0 (fun _ => rfl)
        (dataSlot_ne_of_level n bj (by exact Nat.one_pos))
      have hgrow2 := grows_ensureEntry (n := n) true hg1 hgr.owned hn1 (p := .root n 13) rfl
        Nat.two_pos (show (bi - 12 - 256) / 256 < 256 by omega) h0 (fun _ => rfl)
    · rw [hl2, hroot]
    · rw [← hroot, ← hl2]
      obtain ⟨hgr2, ht2⟩ := hgrow2
      rw [ht2] at h0' ⊢
      exact ensureEntry_own_ne (hg1.of_shape hgr2.shape) hgr2.owned
        (by rw [hgr2.inodeUsed]; exact hn1) false (by exact Nat.one_pos)
        (show (bi - 12 - 256) % 256 < 256 by omega) h0' (by simp [Slot.level]) hslot
  · simp only [h1, h2, h3, if_false]

end

/-! ### Writes -/

section

variable {fs : Ext2Filesystem} {n : Nat}

/-- The write has a byte in logical block `bi`. -/
def Covers (offset : Nat) (data : List UInt8) (bi : Nat) : Prop :=
  offset < (bi + 1) * 1024 ∧ bi * 1024 < offset + data.length ∧ data ≠ []

lemma covers_of_index {offset done : Nat} {data : List UInt8} (h : done < data.length) :
    Covers offset data ((offset + done) / 1024) :=
  ⟨by omega, by omega, fun h0 => by rw [h0] at h; exact absurd h (Nat.not_lt_zero _)⟩

lemma writeLoop_blockOf_ne (offset : Nat) (data : List UInt8) {bj : Nat} (hcov : ¬ Covers offset data bj) (fuel : Nat) :
    ∀ (fs : Ext2Filesystem) (_ : Geometry fs) (_ : Owned fs) (_ : fs.inodeUsed n)
      (done : Nat), (offset + done) / 1024 < 2 ^ 32 →
      blockOf (writeLoop n offset data fuel fs done).2 n bj = blockOf fs n bj := by
  induction fuel with
  | zero => exact fun _ _ _ _ _ _ => rfl
  | succ fuel ih =>
    intro fs hg ho hn done hsmall
    by_cases hlt : done < data.length
    · have hne : bj ≠ (offset + done) / 1024 := fun h => hcov (h ▸ covers_of_index hlt)
      have hmod : (offset + done) / 1024 % 2 ^ 32 = (offset + done) / 1024 := Nat.mod_eq_of_lt hsmall
      obtain ⟨hgr, hres⟩ := grows_bmapAlloc hg ho hn ((offset + done) / 1024)
      have hkeep := bmapAlloc_own_ne hg ho hn hne
      rw [writeLoop_succ _ _ _ _ _ hlt, hg.bs_eq, hmod]
      rcases hb : ext2BmapAlloc fs n ((offset + done) / 1024) with ⟨b, fs1⟩
      rw [hb] at hgr hres hkeep
      dsimp only at hgr hres hkeep ⊢
      split_ifs with hb0
      · exact hkeep
      · have hrange : (offset + done) / 1024 < 65804 := by
          by_contra hc
          exact hb0 (by rw [hres, if_neg hc])
        rw [if_pos hrange] at hres
        rw [hres] at hb0 ⊢
        have hw := fun buf => grows_writeBlock (hg.of_shape hgr.shape) hgr.owned
          (dataSlot_inode n ((offset + done) / 1024)) (dataSlot_level n _) hb0 buf
        have hsame := fun buf => own_writeBlock (hg.of_shape hgr.shape) hgr.owned
          (dataSlot_level n ((offset + done) / 1024)) buf (dataSlot n bj)
        rw [ih _ ?_ (hw _).owned ?_ _ ?_]
        · exact (hsame _).trans hkeep
        · exact hg.of_shape (by rw [shape_writeBlock, hgr.shape])
        · rw [inodeUsed_writeBlock, hgr.inodeUsed]
          exact hn
        · omega
    · rw [writeLoop, if_neg hlt]

def Op.IsWrite : Op → Prop
  | .write _ _ _ => True
  | _ => False

/-- The operation is a write that has no byte in logical block `bi` of file `n`. -/
def Op.Spares (n bi : Nat) : Op → Prop
  | .write m offset data => m ≠ n ∨ ¬ Covers offset.toNat data bi
  | _ => False

instance Op.decidableIsWrite : (op : Op) → Decidable op.IsWrite
  | .write _ _ _ => .isTrue trivial
  | .create _ _ | .mkdir _ _ | .truncate _ | .unlink _ => .isFalse id

/-- What a write does to the blocks of file `n`: it keeps those there are, keeps the file in use,
and maps no index that it does not cover. -/
lemma write_blockOf (hi : Inv fs) {op : Op} (hop : op.Nice fs) (hw : op.IsWrite) (hn : fs.inodeUsed n) :
    (op.apply fs).inodeUsed n = true ∧ (∀ bi, blockOf fs n bi ≠ 0 → blockOf (op.apply fs) n bi = blockOf fs n bi) ∧
      ∀ bi, op.Spares n bi → blockOf (op.apply fs) n bi = blockOf fs n bi := by
  cases op with
  | create path mode => exact hw.elim
  | mkdir path mode => exact hw.elim
  | truncate path => exact hw.elim
  | unlink path => exact hw.elim
  | write m offset data =>
    rcases write_spec hi m offset data hop with ⟨-, h⟩ | ⟨done, fs1, hm, -, -, hloop, h, hgrow, hi1, hsize, hback⟩
    · rw [Op.apply, h]
      exact ⟨hn, fun _ _ => rfl, fun _ _ => rfl⟩
    · have hagree := hsize.trans hback.agree
      have hown : ∀ bi, blockOf (Op.apply fs (.write m offset data)) n bi = blockOf fs1 n bi := by
        intro bi
        rw [Op.apply, h]
        exact hagree.own_eq hi1.owned _
      refine ⟨?_, fun bi h0 => ?_, fun bi hsp => ?_⟩
      · rw [Op.apply, h]
        exact (hagree.inodeUsed n).trans ((hgrow.inodeUsed n).trans hn)
      · rw [hown]
        exact hgrow.own_mono _ h0
      · rw [hown]
        by_cases hmn : m = n
        · subst hmn
          have hcov : ¬ Covers offset.toNat data bi := hsp.resolve_left fun h => h rfl
          have hkeep := writeLoop_blockOf_ne offset.toNat data hcov (mapLimit fs + 1) fs hi.geometry
            hi.owned hm 0 (by have := offset.toNat_lt; omega)
          rwa [hloop] at hkeep
        · by_contra hne
          have := (hgrow.own_new _ hne).1
          rw [dataSlot_inode] at this
          exact hmn this.symm

lemma run_writes {ws : List Op} (hi : Inv fs) (hn : fs.inodeUsed n = true)
    (hws : Along Op.apply (fun s op => op.Nice s ∧ op.IsWrite) fs ws) :
    Inv (run Op.apply fs ws) ∧ (run Op.apply fs ws).inodeUsed n = true ∧
      (∀ bi, blockOf fs n bi ≠ 0 → blockOf (run Op.apply fs ws) n bi = blockOf fs n bi) ∧
      ∀ bi, (∀ op ∈ ws, op.Spares n bi) → blockOf (run Op.apply fs ws) n bi = blockOf fs n bi := by
  induction ws generalizing fs with
  | nil => exact ⟨hi, hn, fun _ _ => rfl, fun _ _ => rfl⟩
  | cons op ws ih =>
    obtain ⟨⟨hop, hw⟩, hws⟩ := hws
    obtain ⟨hn', hkeep, hspare⟩ := write_blockOf hi hop hw hn
    obtain ⟨hi'', hn'', hkeep', hspare'⟩ := ih (inv_apply hi op hop) hn' hws
    refine ⟨hi'', hn'', fun bi h0 => ?_, fun bi hsp => ?_⟩
    · rw [run_cons, hkeep' bi (by rw [hkeep bi h0]; exact h0), hkeep bi h0]
    · rw [run_cons, hspare' bi (fun op hop => hsp op (List.mem_cons_of_mem _ hop)),
        hspare bi (hsp op List.mem_cons_self)]

end

/-! ### Agreement -/

/-- In every state that safe operations reach: a block that `ext2_bmap_alloc` returned is the one the reader finds after
any further writes; and an index without a block that no later write covers is a hole, if and only if it does not lie
in the single-indirect range of a file with a double-indirect table and no single-indirect one. -/
theorem block_map_agrees (heap : Heap) {device : Ramdisk} (hroom : HasRoom device) (ops : List Op)
    (hops : Along Op.apply Op.Nice (ext2Format heap device) ops) (n bi : Nat) :
    let fs := run Op.apply (ext2Format heap device) ops
    fs.inodeUsed n = true → (fs.inode n).isDir = false →
    (∀ p fs₁ ws, ext2BmapAlloc fs n bi = (p, fs₁) → p ≠ 0 → Along Op.apply (fun s op => op.Nice s ∧ op.IsWrite) fs₁ ws →
      let fs₂ := run Op.apply fs₁ ws
      ∀ cache, CacheOk fs₂ (fs₂.inode n) cache → ∃ cache', readBlockMap fs₂ (fs₂.inode n) cache bi = some (p, cache') ∧
          CacheOk fs₂ (fs₂.inode n) cache') ∧
    ∀ ws, blockOf fs n bi = 0 →
      Along Op.apply (fun s op => op.Nice s ∧ op.IsWrite) fs ws → (∀ op ∈ ws, op.Spares n bi) →
      let fs₂ := run Op.apply fs ws
      ∀ cache, CacheOk fs₂ (fs₂.inode n) cache →
        ((∃ cache', readBlockMap fs₂ (fs₂.inode n) cache bi = some (0, cache') ∧
          CacheOk fs₂ (fs₂.inode n) cache') ↔ SparseOk fs₂ n bi) := by
  intro fs hn hdir
  have hi : Inv fs := inv_run heap hroom hops
  refine ⟨?_, ?_⟩
  · intro p fs₁ ws hb hp hws fs₂ cache hc
    obtain ⟨hgr, hres⟩ := grows_bmapAlloc hi.geometry hi.owned hn bi
    rw [hb] at hgr hres
    dsimp only at hgr hres
    have hlt : bi < 65804 := by
      by_contra hc
      exact hp (by rw [hres, if_neg hc])
    rw [if_pos hlt] at hres
    have hi1 : Inv fs₁ := hi.grows hgr.toGrows (fun _ hτ => hτ.1) hn hdir
    obtain ⟨hi2, hn2, hkeep, -⟩ := run_writes hi1 (by rw [hgr.inodeUsed]; exact hn) hws
    have hne : blockOf fs₁ n bi ≠ 0 := by
      rw [blockOf, ← hres]
      exact hp
    have hblock : blockOf fs₂ n bi = p := (hkeep bi hne).trans hres.symm
    rw [← hblock] at hp ⊢
    exact readBlockMap_eq hi2.geometry hn2 hc hp
  · intro ws h0 hws hsp fs₂ cache hc
    obtain ⟨hi2, hn2, -, hspare⟩ := run_writes hi hn hws
    constructor
    · rintro ⟨cache', hread, -⟩
      by_contra hs
      rw [readBlockMap_outside hi2.geometry hs] at hread
      cases hread
    · intro hs
      rw [← (hspare bi hsp).trans h0]
      exact readBlockMap_spec hi2.geometry hn2 hc hs

/-- The small device with one empty file `/a`, inode 13. -/
def oneFileOps : List Op := [.home, .create .a 0o644]

def oneFile : Ext2Filesystem := run Op.apply (ext2Format zeroHeap smallDevice) oneFileOps

/-- A block far out in a new file is found again after a write at its start. -/
theorem block_map_agrees_far :
    let r := ext2BmapAlloc oneFile 13 268
    let fs₂ := run Op.apply r.2 [.write 13 0 [97]]
    r.1 ≠ 0 ∧ ∃ cache', readBlockMap fs₂ (fs₂.inode 13) .empty 268 = some (r.1, cache') := by
  have hops : Along Op.apply Op.Nice (ext2Format zeroHeap smallDevice) oneFileOps := by decide
  have heval : oneFile.inodeUsed 13 = true ∧ (oneFile.inode 13).isDir = false ∧
      (ext2BmapAlloc oneFile 13 268).1 ≠ 0 ∧ Along Op.apply (fun s op => op.Nice s ∧ op.IsWrite)
        (ext2BmapAlloc oneFile 13 268).2 [.write 13 0 [97]] := by decide
  obtain ⟨hn, hdir, hp, hws⟩ := heval
  refine ⟨hp, ?_⟩
  obtain ⟨cache', hread, -⟩ := (block_map_agrees zeroHeap hasRoom_smallDevice oneFileOps hops 13 268
    hn hdir).1 _ _ _ rfl hp hws .empty (cacheOk_empty _ _)
  exact ⟨cache', hread⟩

/-- The same file after one byte was written behind the single-indirect range. -/
def sparseFile : Ext2Filesystem := (ext2Write oneFile 13 274432 [97]).2

/-- Reading its block 12, which was never written, leaves the double-indirect table. -/
theorem block_map_fails : (sparseFile.inode 13).size = 274433 ∧ (sparseFile.inode 13).ptr 12 = 0 ∧
      (sparseFile.inode 13).ptr 13 ≠ 0 ∧ blockOf sparseFile 13 12 = 0 ∧
      (readBlockMap sparseFile (sparseFile.inode 13) .empty 12).isNone = true ∧
      ext2Read sparseFile 13 12288 1 = none := by
  decide

end VibeOS
