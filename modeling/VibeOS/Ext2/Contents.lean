import VibeOS.Lib.Growable
import VibeOS.Ext2.Format

/-!
# The contents of files

`fileByte fs n i` is byte `i` of file `n`: the file's block `i / 1024` is found through the pointer
tables (`own`), whatever they hold. A file is `Dense` when every block below its size is mapped.

* `read_eq`: `ext2_read` of a dense file returns the window of its contents, through its own block map
  with its cached tables;
* `writeLoop_bytes`: the write loop stores its bytes and leaves every other mapped byte alone.
-/

namespace VibeOS

open List
open Buf Ext2Filesystem Ownership Growable

/-- The block that holds logical block `bi` of file `n`, `0` for none. -/
def blockOf (fs : Ext2Filesystem) (n bi : Nat) : Nat := own fs (dataSlot n bi)

/-- The bytes of file `n`. -/
def fileByte (fs : Ext2Filesystem) (n : Nat) : Buf := fun i =>
  ext2ReadBlock fs (blockOf fs n (i / 1024)) (i % 1024)

/-- Byte `i` of file `n` has a block. -/
def Mapped (fs : Ext2Filesystem) (n i : Nat) : Prop := blockOf fs n (i / 1024) ≠ 0

instance (fs : Ext2Filesystem) (n i : Nat) : Decidable (Mapped fs n i) :=
  inferInstanceAs (Decidable (_ ≠ _))

def Dense (fs : Ext2Filesystem) (n : Nat) : Prop :=
  ∀ i < (fs.inode n).size.toNat, Mapped fs n i

def contents (fs : Ext2Filesystem) (n : Nat) : List UInt8 :=
  (fileByte fs n).slice 0 (fs.inode n).size.toNat

/-! ### Block maps -/

variable {bi offset i done : Nat}
variable {cache : ReadCache}

section blockMap

variable {fs : Ext2Filesystem} {n : Nat}

lemma lt_of_blockOf (h : blockOf fs n bi ≠ 0) : bi < 65804 := by
  by_contra hc
  refine h ?_
  rw [blockOf, dataSlot, if_neg (by omega), if_neg (by omega)]
  refine own_child_of_zero ?_ _
  rw [own, if_neg]
  rintro ⟨-, hlt, -⟩
  omega

lemma dataSlot_inj {bj : Nat} (h : dataSlot n bi = dataSlot n bj) : bi = bj := by
  simp only [dataSlot] at h
  split_ifs at h with h1 h2 h3 h4 h5 h6 <;> simp_all <;> omega

/-- What a read has cached of the pointer blocks is what they hold. -/
structure CacheOk (fs : Ext2Filesystem) (ino : Inode) (cache : ReadCache) : Prop where
  single : ∀ b ∈ cache.indirectBuffer, b = ext2ReadBlock fs (ino.ptr 12)
  double : ∀ b ∈ cache.dindBuffer, b = ext2ReadBlock fs (ino.ptr 13)
  second : cache.dindL2Cached ≠ 0 → cache.dindL2Buffer = ext2ReadBlock fs cache.dindL2Cached

lemma cacheOk_empty (fs : Ext2Filesystem) (ino : Inode) : CacheOk fs ino .empty :=
  ⟨fun _ h => (by cases h), fun _ h => (by cases h), fun h => absurd rfl h⟩

lemma CacheOk.single_getD {ino : Inode} (hc : CacheOk fs ino cache) :
    cache.indirectBuffer.getD (ext2ReadBlock fs (ino.ptr 12)) = ext2ReadBlock fs (ino.ptr 12) := by
  rcases hb : cache.indirectBuffer with _ | b
  · rfl
  · exact hc.single b hb

lemma CacheOk.double_getD {ino : Inode} (hc : CacheOk fs ino cache) :
    cache.dindBuffer.getD (ext2ReadBlock fs (ino.ptr 13)) = ext2ReadBlock fs (ino.ptr 13) := by
  rcases hb : cache.dindBuffer with _ | b
  · rfl
  · exact hc.double b hb

lemma CacheOk.second_eq {ino : Inode} (hc : CacheOk fs ino cache) {l2 : Nat}
    (h : l2 ≠ 0) : (if cache.dindL2Cached ≠ l2 then ext2ReadBlock fs l2 else cache.dindL2Buffer) =
      ext2ReadBlock fs l2 := by
  split_ifs with hcached
  · rfl
  · rw [not_not] at hcached
    rw [← hcached]
    exact hc.second (hcached ▸ h)

/-- The lookup finds the block of an index, or that it has none, and no table is indexed outside. -/
lemma readBlockMap_spec (hg : Geometry fs) (hn : fs.inodeUsed n) (hc : CacheOk fs (fs.inode n) cache)
    (hs : 12 ≤ bi → bi < 268 → (fs.inode n).ptr 12 ≠ 0 ∨ (fs.inode n).ptr 13 = 0) :
    ∃ cache', readBlockMap fs (fs.inode n) cache bi = some (blockOf fs n bi, cache') ∧
      CacheOk fs (fs.inode n) cache' := by
  have hroot : ∀ k < 14, own fs (.root n k) = (fs.inode n).ptr k := fun k hk =>
    own_root_of_used hn hk
  have hptr : ∀ t k, ((ext2ReadBlock fs t).getU32 (4 * k)).toNat = ext2PtrGet fs t k :=
    fun _ _ => rfl
  rw [readBlockMap, hg.ptrs_eq]
  by_cases h1 : bi < 12
  · refine ⟨cache, ?_, hc⟩
    rw [if_pos h1, blockOf, dataSlot, if_pos h1, hroot bi (by omega)]
  by_cases h2 : bi < 268
  · have hslot : blockOf fs n bi = own fs (.child (.root n 12) (bi - 12)) := by
      rw [blockOf, dataSlot, if_neg h1, if_pos h2]
    by_cases h12 : (fs.inode n).ptr 12 = 0
    · -- no single-indirect table: by the condition there is no double-indirect one
      have h13 := (hs (by omega) h2).resolve_left (not_not.mpr h12)
      refine ⟨cache, ?_, hc⟩
      rw [if_neg h1, if_neg (fun hc => hc.2 h12), if_neg (fun hc => hc.2 h13), hslot,
        own_child_of_zero ((hroot 12 (by omega)).trans h12)]
    · have hval : blockOf fs n bi = ext2PtrGet fs ((fs.inode n).ptr 12) (bi - 12) := by
        rw [← hroot 12 (by omega)] at h12 ⊢
        exact hslot.trans (own_child_of_table (p := .root n 12) Nat.one_pos (by omega) h12)
      refine ⟨{ cache with indirectBuffer := some (ext2ReadBlock fs ((fs.inode n).ptr 12)) }, ?_,
        ⟨fun b hb => (Option.some.inj hb).symm, hc.double, hc.second⟩⟩
      rw [if_neg h1, if_pos ⟨by omega, h12⟩]
      simp only [hc.single_getD, hptr, hval]
  · have hslot : blockOf fs n bi = own fs (.child (.child (.root n 13) ((bi - 268) / 256)) ((bi - 268) % 256)) := by
      rw [blockOf, dataSlot, if_neg h1, if_neg h2]
    rw [if_neg h1, if_neg (by omega)]
    by_cases h3 : bi < 12 + 256 + 256 * 256 ∧ (fs.inode n).ptr 13 ≠ 0
    · have hdi : (bi + 2 ^ 32 - 12 - 256) % 2 ^ 32 = bi - 268 := by omega
      have h13 := h3.2
      have htab : own fs (.child (.root n 13) ((bi - 268) / 256)) =
          ext2PtrGet fs ((fs.inode n).ptr 13) ((bi - 268) / 256) := by
        rw [← hroot 13 (by omega)] at h13 ⊢
        exact own_child_of_table (p := .root n 13) Nat.two_pos (by omega) h13
      rw [if_pos h3]
      simp only [hdi, hc.double_getD, hptr]
      rw [if_neg (by omega)]
      by_cases hl2 : ext2PtrGet fs ((fs.inode n).ptr 13) ((bi - 268) / 256) = 0
      · rw [if_pos hl2, hslot, own_child_of_zero (htab.trans hl2)]
        exact ⟨_, rfl, hc.single, fun b hb => (Option.some.inj hb).symm, hc.second⟩
      · have hval : blockOf fs n bi = ext2PtrGet fs (ext2PtrGet fs ((fs.inode n).ptr 13) ((bi - 268) / 256))
            ((bi - 268) % 256) := by
          rw [← htab] at hl2 ⊢
          exact hslot.trans (own_child_of_table Nat.one_pos (Nat.mod_lt _ (by omega)) hl2)
        rw [if_neg hl2]
        simp only [hc.second_eq hl2, hptr, ← hval]
        exact ⟨_, rfl, hc.single, fun b hb => (Option.some.inj hb).symm, fun _ => rfl⟩
    · have hzero : blockOf fs n bi = 0 := by
        by_contra hne
        have hlt := lt_of_blockOf hne
        have h13 : (fs.inode n).ptr 13 = 0 := by_contra fun h => h3 ⟨by omega, h⟩
        rw [hslot, own_child_of_zero (own_child_of_zero ((hroot 13 (by omega)).trans h13) _)] at hne
        exact hne rfl
      rw [if_neg h3, hzero]
      exact ⟨cache, rfl, hc⟩

lemma readBlockMap_eq (hg : Geometry fs) (hn : fs.inodeUsed n)
    (hc : CacheOk fs (fs.inode n) cache) (h : blockOf fs n bi ≠ 0) :
    ∃ cache', readBlockMap fs (fs.inode n) cache bi = some (blockOf fs n bi, cache') ∧
      CacheOk fs (fs.inode n) cache' := by
  refine readBlockMap_spec hg hn hc fun h1 h2 => .inl fun h12 => h ?_
  rw [blockOf, dataSlot, if_neg (by omega), if_pos h2]
  exact own_child_of_zero ((own_root_of_used hn (by omega)).trans h12) _

end blockMap

/-! ### Reading -/

section

variable {fs : Ext2Filesystem} {n : Nat}

lemma slice_fileByte {o m : Nat} (h : o % 1024 + m ≤ 1024) :
    (ext2ReadBlock fs (blockOf fs n (o / 1024))).slice (o % 1024) m = (fileByte fs n).slice o m := by
  refine slice_congr fun k hk => ?_
  rw [fileByte, show (o + k) / 1024 = o / 1024 by omega, show (o + k) % 1024 = o % 1024 + k by omega]

lemma readLoop_eq (hg : Geometry fs) (hn : fs.inodeUsed n) {size : Nat}
    (hmap : ∀ i, offset ≤ i → i < offset + size → Mapped fs n i) (fuel : Nat) :
    ∀ (cache : ReadCache) (done : Nat), CacheOk fs (fs.inode n) cache → done ≤ size →
      (done < size → 65805 ≤ fuel + (offset + done) / 1024) →
      readLoop fs (fs.inode n) offset size fuel cache ((fileByte fs n).slice offset done) =
        some (size, (fileByte fs n).slice offset size) := by
  have hlt : ∀ i, offset ≤ i → i < offset + size → i / 1024 < 65804 := fun i h1 h2 =>
    lt_of_blockOf (hmap i h1 h2)
  induction fuel with
  | zero =>
    intro cache done _ hle hfuel
    have hdone : done = size := by
      by_contra hne
      have h1 := hlt (offset + done) (by omega) (by omega)
      omega
    rw [readLoop, hdone, length_slice]
  | succ fuel ih =>
    intro cache done hc hle hfuel
    rw [readLoop, length_slice]
    by_cases hd : done < size
    · have hm := hmap (offset + done) (by omega) (by omega)
      have hbi := hlt (offset + done) (by omega) (by omega)
      obtain ⟨cache', hread, hc'⟩ := readBlockMap_eq hg hn hc hm
      have hmod : (offset + done) / 1024 % 2 ^ 32 = (offset + done) / 1024 := by omega
      have hb0 : blockOf fs n ((offset + done) / 1024) ≠ 0 := hm
      rw [if_pos hd, hg.bs_eq]
      simp only [hmod, hread, if_neg hb0]
      rw [slice_fileByte (by omega), ← slice_append]
      exact ih cache' _ hc' (by omega) fun _ => by omega
    · rw [if_neg hd, show done = size by omega]

lemma window_slice (b : Buf) (s o m : Nat) : window (b.slice 0 s) o m = b.slice o (min m (s - o)) := by
  refine ext_getElem (by simp) fun k h1 h2 => ?_
  simp [window, slice]

lemma read_eq (hg : Geometry fs) (hn : fs.inodeUsed n) (hlt : n < fs.inodesCount)
    (hdense : Dense fs n) (offset : UInt32) {size : Nat} (hsize : offset.toNat + size < 2 ^ 64) :
    ext2Read fs n offset size = some (((window (contents fs n) offset.toNat size).length : Int),
        window (contents fs n) offset.toNat size) := by
  rw [contents, window_slice, length_slice, ext2Read, if_neg (by omega)]
  dsimp only
  by_cases ho : offset.toNat ≥ (fs.inode n).size.toNat
  · rw [if_pos ho, show min size ((fs.inode n).size.toNat - offset.toNat) = 0 by omega]
    rfl
  · have hclamp : (if (offset.toNat + size) % 2 ^ 64 > (fs.inode n).size.toNat then
        (fs.inode n).size.toNat - offset.toNat else size) =
        min size ((fs.inode n).size.toNat - offset.toNat) := by
      split_ifs <;> omega
    rw [if_neg ho, hclamp, hg.mapLimit_eq]
    have hmap : ∀ i, offset.toNat ≤ i →
        i < offset.toNat + min size ((fs.inode n).size.toNat - offset.toNat) → Mapped fs n i :=
      fun i _ hi => hdense i (by omega)
    have hloop := readLoop_eq hg hn hmap 65805 .empty 0 (cacheOk_empty fs _)
      (Nat.zero_le (min size ((fs.inode n).size.toNat - offset.toNat))) (fun _ => by omega)
    rw [slice_zero] at hloop
    rw [hloop]
    rfl

end

/-! ### Writing -/

variable {data : List UInt8}

section write

variable {fs fs' : Ext2Filesystem} {n : Nat}

lemma blockOf_used (ho : Owned fs) (h : blockOf fs n bi ≠ 0) :
    fs.firstDataBlock ≤ blockOf fs n bi ∧ fs.blockUsed (blockOf fs n bi) = true :=
  ⟨(ho.range _ h).1, ho.marked _ h⟩

lemma blockOf_inj (ho : Owned fs) {bj : Nat} (h : blockOf fs n bi = blockOf fs n bj)
    (h0 : blockOf fs n bi ≠ 0) : bi = bj :=
  dataSlot_inj (ho.inj _ _ h h0)

lemma Grows.mapped {T : Slot → Prop} (h : Grows n T fs fs') {m : Nat} (hm : Mapped fs m i) : Mapped fs' m i := by
  rw [Mapped, blockOf, h.own_mono _ hm]
  exact hm

lemma Grows.fileByte_eq (h : Grows n (tablesOf n) fs fs') (ho : Owned fs)
    (hm : Mapped fs n i) : fileByte fs' n i = fileByte fs n i := by
  have hkeep : blockOf fs' n (i / 1024) = blockOf fs n (i / 1024) := h.own_mono _ hm
  have hused := blockOf_used ho hm
  rw [fileByte, fileByte, hkeep, h.data _ hm hused.1 hused.2]
  rintro τ ⟨-, hlevel⟩ hτ
  rw [h.owned.inj τ (dataSlot n (i / 1024)) (hτ.trans hkeep.symm) (hτ.symm ▸ hm), dataSlot_level] at hlevel
  exact lt_irrefl 0 hlevel

lemma fileByte_writeBlock (hg : Geometry fs) (ho : Owned fs) (bi : Nat) (buf : Buf) (hm : Mapped fs n i) :
    fileByte (ext2WriteBlock fs (blockOf fs n bi) buf) n i =
      if i / 1024 = bi then buf (i % 1024) else fileByte fs n i := by
  have hkeep : blockOf (ext2WriteBlock fs (blockOf fs n bi) buf) n (i / 1024) =
      blockOf fs n (i / 1024) := own_writeBlock hg ho (dataSlot_level n bi) buf _
  rw [fileByte, hkeep]
  split_ifs with hi
  · rw [hi, readBlock_writeBlock_self hg, trunc_of_lt (Nat.mod_lt _ (by omega))]
  · rw [readBlock_writeBlock_of_ne hg _ fun h => hi (blockOf_inj ho h hm)]
    rfl

lemma writeChunk_apply (old : Buf) (hlt : done < data.length) (hi : i / 1024 = (offset + done) / 1024) :
    writeChunk 1024 old offset data done (i % 1024) = if offset + done ≤ i ∧
        i < offset + (done + min (data.length - done) (1024 - (offset + done) % 1024))
      then data.getD (i - offset) 0 else old (i % 1024) := by
  rw [writeChunk]
  split_ifs with hpart hin hin
  · rw [blit_of_mem (by omega) (by omega)]
    congr 1
    omega
  · rw [blit_of_not_mem (by omega)]
  · rw [blit_of_mem (by omega) (by omega)]
    congr 1
    omega
  · omega

lemma fileByte_writeRound (hg : Geometry fs) (ho : Owned fs) (hlt : done < data.length) (hm : Mapped fs n i) :
    fileByte (ext2WriteBlock fs (blockOf fs n ((offset + done) / 1024)) (writeChunk 1024
      (ext2ReadBlock fs (blockOf fs n ((offset + done) / 1024))) offset data done)) n i = if offset + done ≤ i ∧
        i < offset + (done + min (data.length - done) (1024 - (offset + done) % 1024))
      then data.getD (i - offset) 0 else fileByte fs n i := by
  rw [fileByte_writeBlock hg ho _ _ hm]
  by_cases hi : i / 1024 = (offset + done) / 1024
  · rw [if_pos hi, writeChunk_apply _ hlt hi, fileByte, hi]
  · rw [if_neg hi, if_neg (by omega)]

/-- The write loop stores its bytes into the file and leaves every other mapped byte alone. -/
lemma writeLoop_bytes (offset : Nat) (data : List UInt8) (fuel : Nat) :
    ∀ (fs : Ext2Filesystem) (_ : Geometry fs) (_ : Owned fs) (_ : fs.inodeUsed n)
      (done : Nat) (_ : done ≤ data.length) (_ : (offset + done) / 1024 < 2 ^ 32) (done' : Nat)
      (fs' : Ext2Filesystem) (_ : writeLoop n offset data fuel fs done = (done', fs')),
      done ≤ done' ∧ done' ≤ data.length ∧ (∀ i, offset + done ≤ i → i < offset + done' →
        Mapped fs' n i ∧ fileByte fs' n i = data.getD (i - offset) 0) ∧
      ∀ i, Mapped fs n i → (i < offset + done ∨ offset + done' ≤ i) → fileByte fs' n i = fileByte fs n i := by
  induction fuel with
  | zero =>
    intro fs _ _ _ done hle _ done' fs' h
    obtain ⟨rfl, rfl⟩ := Prod.mk.inj h
    exact ⟨le_rfl, hle, fun i h1 h2 => absurd h2 (by omega), fun _ _ _ => rfl⟩
  | succ fuel ih =>
    intro fs hg ho hn done hle hbound done' fs' h
    by_cases hlt : done < data.length
    · obtain ⟨hgrow, hres⟩ := grows_bmapAlloc hg ho hn ((offset + done) / 1024)
      rw [writeLoop_succ _ _ _ _ _ hlt, hg.bs_eq, Nat.mod_eq_of_lt hbound] at h
      rcases hb : ext2BmapAlloc fs n ((offset + done) / 1024) with ⟨b, fs1⟩
      rw [hb] at hgrow hres h
      dsimp only at hgrow hres h
      have hold : ∀ i, Mapped fs n i → fileByte fs1 n i = fileByte fs n i := fun i hm =>
        hgrow.fileByte_eq ho hm
      by_cases hb0 : b = 0
      · rw [if_pos hb0] at h
        obtain ⟨rfl, rfl⟩ := Prod.mk.inj h
        exact ⟨le_rfl, hle, fun i h1 h2 => absurd h2 (by omega), fun i hm _ => hold i hm⟩
      · have hbi : (offset + done) / 1024 < 65804 := by
          by_contra hc
          exact hb0 (by rw [hres, if_neg hc])
        rw [if_pos hbi] at hres
        have hg1 := hg.of_shape hgrow.shape
        have hn1 : fs1.inodeUsed n = true := by rw [hgrow.inodeUsed, hn]
        rw [if_neg hb0] at h
        obtain rfl : b = blockOf fs1 n ((offset + done) / 1024) := hres
        obtain ⟨fs2, hfs2⟩ : ∃ fs2, fs2 = ext2WriteBlock fs1
            (blockOf fs1 n ((offset + done) / 1024)) (writeChunk 1024
              (ext2ReadBlock fs1 (blockOf fs1 n ((offset + done) / 1024))) offset data done) :=
          ⟨_, rfl⟩
        rw [← hfs2] at h
        have hround : ∀ i, Mapped fs1 n i → fileByte fs2 n i = _ := fun i hm =>
          hfs2 ▸ fileByte_writeRound hg1 hgrow.owned hlt hm
        have hw : GrowsFile n (blocksOf n) fs1 fs2 := hfs2 ▸ grows_writeBlock hg1 hgrow.owned
          (dataSlot_inode n _) (dataSlot_level n _) hb0 _
        have hg2 := hg1.of_shape hw.shape
        have hn2 := (hw.inodeUsed n).trans hn1
        have hloop := (grows_writeLoop offset data fuel fs2 hg2 hw.owned hn2
          (done + min (data.length - done) (1024 - (offset + done) % 1024))).toGrows
        obtain ⟨hle1, hle2, hnew, hkeep⟩ :=
          ih fs2 hg2 hw.owned hn2 _ (by omega) (by omega) done' fs' h
        rw [h] at hloop
        refine ⟨by omega, hle2, fun i h1 h2 => ?_, fun i hm hi => ?_⟩
        · -- either this round stored the byte and the later ones kept it, or a later one stored it
          by_cases hi : i < offset + (done + min (data.length - done) (1024 - (offset + done) % 1024))
          · have hm : Mapped fs1 n i := by
              rw [Mapped, show i / 1024 = (offset + done) / 1024 by omega]
              exact hb0
            refine ⟨hloop.mapped (hw.mapped hm), ?_⟩
            rw [hkeep i (hw.mapped hm) (.inl hi), hround i hm, if_pos ⟨h1, hi⟩]
          · exact hnew i (by omega) h2
        · have hm1 := hgrow.mapped hm
          rw [hkeep i (hw.mapped hm1) (by omega), hround i hm1, if_neg (by omega), hold i hm]
    · rw [writeLoop, if_neg hlt] at h
      obtain ⟨rfl, rfl⟩ := Prod.mk.inj h
      exact ⟨le_rfl, hle, fun i h1 h2 => absurd h2 (by omega), fun _ _ _ => rfl⟩

end write

/-! ### Files that a step does not touch -/

/-- Every mapped byte of file `n` is as it was. -/
def SameBytes (n : Nat) (fs fs' : Ext2Filesystem) : Prop :=
  ∀ i, Mapped fs n i → Mapped fs' n i ∧ fileByte fs' n i = fileByte fs n i

section same

variable {fs fs' fs'' : Ext2Filesystem} {n m : Nat}

lemma SameBytes.trans (h1 : SameBytes n fs fs') (h2 : SameBytes n fs' fs'') : SameBytes n fs fs'' := by
  intro i hi
  obtain ⟨hm1, hb1⟩ := h1 i hi
  obtain ⟨hm2, hb2⟩ := h2 i hm1
  exact ⟨hm2, hb2.trans hb1⟩

lemma SameBytes.of_blocks (h : ∀ bi, blockOf fs n bi ≠ 0 → blockOf fs' n bi = blockOf fs n bi ∧
    ext2ReadBlock fs' (blockOf fs n bi) = ext2ReadBlock fs (blockOf fs n bi)) : SameBytes n fs fs' := by
  intro i hi
  obtain ⟨hb, hr⟩ := h (i / 1024) hi
  exact ⟨by rw [Mapped, hb]; exact hi, by rw [fileByte, hb, hr, fileByte]⟩

section

variable (h : Dense fs n) (hb : SameBytes n fs fs') (hsize : (fs'.inode n).size = (fs.inode n).size)

include h hb hsize

lemma Dense.of_same : Dense fs' n :=
  fun i hi => (hb i (h i (hsize ▸ hi))).1

lemma contents_of_same : contents fs' n = contents fs n := by
  rw [contents, contents, hsize]
  refine slice_congr fun k hk => ?_
  rw [zero_add]
  exact (hb k (h k hk)).2

end

lemma Agree.sameBytes (h : Agree fs fs') (ho : Owned fs) (n : Nat) : SameBytes n fs fs' :=
  .of_blocks fun _ hbi => ⟨h.own_eq ho _, h.data _ (blockOf_used ho hbi).1 (blockOf_used ho hbi).2⟩

lemma Grows.sameBytes {T : Slot → Prop} (h : Grows m T fs fs') (ho : Owned fs)
    (hT : ∀ τ, T τ → τ.inode = m) (hne : n ≠ m) : SameBytes n fs fs' :=
  .of_blocks fun bi hbi => ⟨h.own_mono _ hbi, h.readBlock_of_ne ho hT hbi (by rw [dataSlot_inode]; exact hne)⟩

lemma Releases.sameBytes {t : Nat} (h : Releases t fs fs') (ho : Owned fs) (hne : n ≠ t) : SameBytes n fs fs' :=
  .of_blocks fun bi hbi => ⟨h.own_other _ fun k _ hk => hne (by
    rw [← dataSlot_inode n bi, hk]
    rfl), h.data _ (blockOf_used ho hbi).1⟩

lemma sameBytes_fileNode (hm : FreeInode fs m) (mode : UInt16) (n : Nat) : SameBytes n fs (fileNode fs m mode) :=
  .of_blocks fun _ _ => ⟨own_fileNode hm mode _, rfl⟩

lemma sameBytes_dirNode {b p : Nat} {mode : UInt16} (hg : Geometry fs) (ho : Owned fs)
    (hm : FreeInode fs m) (hb : FreeBlock fs b) (hne : n ≠ m) : SameBytes n fs (dirNode fs m b p mode) :=
  .of_blocks fun bi hbi => ⟨by
    rw [blockOf, own_dirNode hg ho hm hb, if_neg]
    · rfl
    · intro h
      exact hne (by rw [← dataSlot_inode n bi, h]; rfl),
    readBlock_dirNode hg (ne_fresh_of_used hb.2 (blockOf_used ho hbi).2)⟩

end same

/-! ### `ext2_write` on a file -/

section

variable {fs : Ext2Filesystem} {n : Nat}

variable (fs)

@[simp] lemma length_contents (n : Nat) : (contents fs n).length = (fs.inode n).size.toNat := length_slice _ _ _

lemma getD_contents (n i : Nat) : (contents fs n).getD i 0 =
    if i < (fs.inode n).size.toNat then fileByte fs n i else 0 := by
  split_ifs with hi
  · rw [getD_eq_getElem _ _ (by rw [length_contents]; exact hi)]
    simp only [contents, getElem_slice, zero_add]
  · rw [getD_eq_default _ _ (by rw [length_contents]; omega)]

/-- The gap that a write at `offset` leaves behind the end of the file already holds zeros. -/
def ZeroGap (n offset : Nat) : Prop :=
  ∀ i < offset, (fs.inode n).size.toNat ≤ i → Mapped fs n i ∧ fileByte fs n i = 0

variable {fs}

instance (fs : Ext2Filesystem) (n offset : Nat) : Decidable (ZeroGap fs n offset) :=
  inferInstanceAs (Decidable (∀ i < offset, _ → _))

lemma size_growSize {fs1 : Ext2Filesystem} {e : Nat} (he : e < 2 ^ 32) :
    ((growSize fs1 n e).inode n).size.toNat = max (fs1.inode n).size.toNat e := by
  rw [growSize]
  split_ifs with hlt
  · rw [inode_setInode_self]
    rw [UInt32.toNat_ofNat_of_lt' he]
    omega
  · omega

lemma write_contents (hi : Inv fs) (hn : fs.inodeUsed n) (hdense : Dense fs n)
    {offset : UInt32} (hgap : ZeroGap fs n offset.toNat) {fuel : Nat}
    {fs1 fs' : Ext2Filesystem} (hloop : writeLoop n offset.toNat data fuel fs 0 = (done, fs1))
    (hgrow : GrowsFile n (blocksOf n) fs fs1) (hsame : SameBytes n fs1 fs')
    (hsize : (fs'.inode n).size = ((growSize fs1 n (offset.toNat + done)).inode n).size) :
    Dense fs' n ∧ contents fs' n = overwrite (contents fs n) offset.toNat (data.take done) := by
  have ho32 := offset.toNat_lt
  obtain ⟨-, hdone, hnew, hkeep⟩ := writeLoop_bytes offset.toNat data fuel fs hi.geometry hi.owned hn 0
    (Nat.zero_le _) (by omega) done fs1 hloop
  have hend : offset.toNat + done < 2 ^ 32 := by
    by_cases h0 : done = 0
    · omega
    · have := lt_of_blockOf (hnew (offset.toNat + done - 1) (by omega) (by omega)).1
      omega
  have hlen : (fs'.inode n).size.toNat = max (fs.inode n).size.toNat (offset.toNat + done) := by
    rw [hsize, size_growSize hend, hgrow.size]
  -- a byte below the new size was written, was there, or lies in the gap
  have hbyte : ∀ i < (fs'.inode n).size.toNat, Mapped fs1 n i ∧ fileByte fs1 n i =
      if offset.toNat ≤ i ∧ i < offset.toNat + done then data.getD (i - offset.toNat) 0
      else (contents fs n).getD i 0 := by
    intro i hi'
    rw [getD_contents]
    split_ifs with hin hold
    · exact hnew i (by omega) hin.2
    · have hm := hdense i hold
      exact ⟨hgrow.mapped hm, hkeep i hm (by omega)⟩
    · obtain ⟨hm, hz⟩ := hgap i (by omega) (by omega)
      exact ⟨hgrow.mapped hm, by rw [hkeep i hm (by omega), hz]⟩
  refine ⟨fun i hi' => (hsame i (hbyte i hi').1).1, ext_getD ?_ fun i hi' => ?_⟩
  · rw [length_overwrite, length_contents, length_contents, length_take, hlen]
    omega
  · rw [length_contents] at hi'
    rw [getD_overwrite, getD_contents, if_pos hi', (hsame i (hbyte i hi').1).2, (hbyte i hi').2,
      length_take, show min done data.length = done by omega]
    split_ifs with hin
    · rw [getD_eq_getElem?_getD, getD_eq_getElem?_getD, getElem?_take_of_lt (by omega)]
    · rfl

end

end VibeOS
