import VibeOS.Vfs.Calls

/-!
# One descriptor, one file

A descriptor of a file on the disk remembers the inode it was opened on, and 63 bytes of the path. Reads
go to the inode, writes look the path up again and create a file when they find none. `Sound` is the
condition under which the two meet: at a write the path still names the inode, and the offset fits the 32
bits that are passed on.

* `run_descriptor_file`: along sound calls, every read through a descriptor reads the inode it was opened
  on and every write changes that inode and no other, both at the offset of the descriptor.
* `run_calls_refine`: along sound calls, the disk changes by safe ext2 operations only.
-/

namespace VibeOS

open List Option Function Option
open Ext2Filesystem ProcessTable

/-! ### One write -/

section

variable {fs : Ext2Filesystem} {n : Nat}

/-- From `fs` to `fs'` inode `n` took `data` at `offset`, and no other inode changed. -/
structure WritesOnly (n offset : Nat) (data : List UInt8) (fs fs' : Ext2Filesystem) : Prop where
  stored : ∀ k < data.length, Mapped fs' n (offset + k) ∧ fileByte fs' n (offset + k) = data.getD k 0
  kept : ∀ i, Mapped fs n i → (i < offset ∨ offset + data.length ≤ i) → fileByte fs' n i = fileByte fs n i
  inode : ∀ m, fs.inodeUsed m = true → m ≠ n → fs'.inode m = fs.inode m
  bytes : ∀ m, m ≠ n → SameBytes m fs fs'
  used : ∀ m, fs'.inodeUsed m = fs.inodeUsed m

lemma WritesOnly.refl (n offset : Nat) (fs : Ext2Filesystem) : WritesOnly n offset [] fs fs where
  stored _ hk := absurd hk (Nat.not_lt_zero _)
  kept _ _ _ := rfl
  inode _ _ _ := rfl
  bytes _ _ _ hi := ⟨hi, rfl⟩
  used _ := rfl

lemma write_writesOnly (hi : Inv fs) (hn : fs.inodeUsed n) (offset : UInt32) (data : List UInt8) :
    WritesOnly n offset.toNat (data.take (ext2Write fs n offset data).1.toNat) fs (ext2Write fs n offset data).2 := by
  have ho32 := offset.toNat_lt
  rcases write_spec hi n offset data (.inl hn) with ⟨-, h⟩ | ⟨done, fs1, -, -, -, hloop, h, hgrow, hi1, hsize, hw⟩
  · rw [h]
    exact .refl n _ fs
  · obtain ⟨-, hdone, hnew, hkeep⟩ := writeLoop_bytes offset.toNat data _ fs hi.geometry hi.owned hn 0
      (Nat.zero_le _) (by omega) done fs1 hloop
    have hlen : (data.take done).length = done := by
      rw [length_take]
      omega
    have hino : ∀ m, 1 ≤ m → m ≠ n → (growSize fs1 n (offset.toNat + done)).inode m = fs1.inode m := by
      intro m hm hne
      rw [growSize]
      split_ifs
      · exact inode_setInode_of_ne _ _ (inodeUsed_range hn).1 hm hne
      · rfl
    have hback := fun m => (hsize.sameBytes hi1.owned m).trans (hw.agree.sameBytes (hsize.owned hi1.owned) m)
    rw [h]
    refine ⟨?_, ?_, ?_, ?_, ?_⟩
    · intro k hk
      rw [show ((done : Int)).toNat = done from rfl, hlen] at hk
      obtain ⟨hm, hb⟩ := hnew (offset.toNat + k) (by omega) (by omega)
      obtain ⟨hm', hb'⟩ := hback n (offset.toNat + k) hm
      refine ⟨hm', ?_⟩
      rw [hb', hb, show offset.toNat + k - offset.toNat = k by omega,
        show ((done : Int)).toNat = done from rfl, getD_eq_getElem?_getD, getD_eq_getElem?_getD, getElem?_take_of_lt hk]
    · intro i hm hout
      rw [show ((done : Int)).toNat = done from rfl, hlen] at hout
      rw [(hback n i (hgrow.mapped hm)).2, hkeep i hm (by omega)]
    · intro m hm hne
      rw [hw.inode, hino m (inodeUsed_range hm).1 hne, hgrow.inode_ne m (inodeUsed_range hm).1 hne]
    · intro m hne
      exact (hgrow.sameBytes hi.owned blocksOf_inode hne).trans (hback m)
    · intro m
      rw [hw.inodeUsed, hsize.inodeUsed, hgrow.inodeUsed]

end

/-! ### Handles -/

/-- What the descriptors of the process in slot `i` say about its handles: each has one there, which holds
what was opened. -/
structure HandlesOk (i : ProcSlot) (p : Process) : Prop where
  path : ∀ k, (0 : UInt8) ∉ (p.handles k).path ∧ (p.handles k).path.length < 256
  used : ∀ fd o k out, p.fds fd = some (.vfs o k out) → o = i ∧ (p.handles k).used = true
  found : ∀ fd o k path ino, p.fds fd = some (.vfs o k (.found path ino)) →
    path.head? = some slash ∧ (p.handles k).kind = 1 ∧ (p.handles k).path = path.take 63 ∧ (p.handles k).cachedIno = ino

/-- An absolute C string, if something was found under it. -/
def OpenOutcome.Good : OpenOutcome → Prop
  | .found path _ => (0 : UInt8) ∉ path ∧ path.head? = some slash
  | _ => True

variable {out : OpenOutcome}
variable {v : VfsHandle}

section handles

variable {t : ProcessTable} {i : ProcSlot} {p : Process}

lemma handlesOk_init (uids : ProcSlot → Nat) (i : ProcSlot) : HandlesOk i ((processInit uids).procs i) where
  path _ := ⟨not_mem_nil, Nat.zero_lt_succ _⟩
  used _ _ _ _ h := by cases h
  found _ _ _ _ _ h := by cases h

lemma handlesOk_modify (h : ∀ j, HandlesOk j (t.procs j)) {f : Process → Process}
    (hf : HandlesOk i (f (t.procs i))) (j : ProcSlot) : HandlesOk j ((t.modify i f).procs j) := by
  by_cases hj : j = i
  · subst hj
    rw [procs_modify_self]
    exact hf
  · rw [procs_modify_of_ne _ _ hj]
    exact h j

lemma HandlesOk.fill (h : HandlesOk i p) {k : Fin 8} (hk : (p.handles k).used = false)
    (hpath : (0 : UInt8) ∉ v.path ∧ v.path.length < 256) :
    HandlesOk i { p with handles := update p.handles k v } := by
  have hne : ∀ fd o k' out, p.fds fd = some (.vfs o k' out) → k' ≠ k := by
    rintro fd o k' out hfd rfl
    rw [(h.used fd o k' out hfd).2] at hk
    cases hk
  refine ⟨fun k' => ?_, fun fd o k' out hfd => ?_, fun fd o k' path ino hfd => ?_⟩
  · by_cases hk' : k' = k
    · subst hk'
      simpa using hpath
    · simpa [update_of_ne hk'] using h.path k'
  · have hk' := hne fd o k' out hfd
    simpa [update_of_ne hk'] using h.used fd o k' out hfd
  · have hk' := hne fd o k' _ hfd
    simpa [update_of_ne hk'] using h.found fd o k' path ino hfd

lemma HandlesOk.bind (h : HandlesOk i p) {k : Fin 8} {fd : Fin 16}
    (hout : out.Good) (hmissing : out ≠ .missing) (hk : p.handles k = openedHandle v out) :
    HandlesOk i { p with fds := update p.fds fd (some (.vfs i k out)) } := by
  refine ⟨h.path, fun fd' o k' out' hfd => ?_, fun fd' o k' path ino hfd => ?_⟩
  · by_cases hf : fd' = fd
    · subst hf
      simp only [update_self, some.injEq, FdObject.vfs.injEq] at hfd
      obtain ⟨rfl, rfl, rfl⟩ := hfd
      refine ⟨rfl, ?_⟩
      rw [hk]
      cases out with
      | missing => exact absurd rfl hmissing
      | embedded file => rfl
      | found path ino => rfl
    · simp only [update_of_ne hf] at hfd
      exact h.used fd' o k' out' hfd
  · by_cases hf : fd' = fd
    · subst hf
      simp only [update_self, some.injEq, FdObject.vfs.injEq] at hfd
      obtain ⟨rfl, rfl, rfl⟩ := hfd
      rw [hk]
      exact ⟨hout.2, rfl, rfl, rfl⟩
    · simp only [update_of_ne hf] at hfd
      exact h.found fd' o k' path ino hfd

lemma HandlesOk.seek (h : HandlesOk i p) (k : Fin 8) (offset : Nat) :
    HandlesOk i { p with handles := update p.handles k { p.handles k with offset := offset } } := by
  have hsame : ∀ k', ∃ o, update p.handles k { p.handles k with offset := offset } k' =
      { p.handles k' with offset := o } := by
    intro k'
    by_cases hk : k' = k
    · subst hk
      exact ⟨offset, update_self _ _ _⟩
    · exact ⟨(p.handles k').offset, by rw [update_of_ne hk]⟩
  refine ⟨fun k' => ?_, fun fd o k' out hfd => ?_, fun fd o k' path ino hfd => ?_⟩
  all_goals
    obtain ⟨o', ho'⟩ := hsame k'
    dsimp only
    rw [ho']
  · exact h.path k'
  · exact h.used fd o k' out hfd
  · exact h.found fd o k' path ino hfd

lemma handlesOk_moveOffset (h : ∀ j, HandlesOk j (t.procs j)) (i : ProcSlot) (fd : Fin 16)
    (offset : Nat) (j : ProcSlot) : HandlesOk j ((processMoveOffset t i fd offset).procs j) := by
  rw [processMoveOffset]
  split
  · split_ifs
    · exact handlesOk_modify h ((h _).seek _ offset) j
    · exact h j
  · exact h j

lemma openedHandle_path (hout : out.Good) (hv : (0 : UInt8) ∉ v.path ∧ v.path.length < 256) :
    (0 : UInt8) ∉ (openedHandle v out).path ∧ (openedHandle v out).path.length < 256 := by
  cases out with
  | missing => exact hv
  | embedded file => exact ⟨not_mem_nil, Nat.zero_lt_succ _⟩
  | found path ino =>
    refine ⟨fun hm => hout.1 (mem_of_mem_take hm), ?_⟩
    have : (path.take 63).length ≤ 63 := length_take_le 63 path
    exact lt_of_le_of_lt this (by decide)

/-- Opening a file keeps the invariant, and the descriptor it returns holds what was opened. -/
lemma handlesOk_open (h : ∀ j, HandlesOk j (t.procs j)) (hout : out.Good) :
    (∀ j, HandlesOk j ((processOpen t i out).2.procs j)) ∧ (∀ fd, (processOpen t i out).1 = some fd →
        ∃ k, ((processOpen t i out).2.procs i).fds fd = some (.vfs i k out)) ∧
      ∀ j fd o, (t.procs j).fds fd = some o → ((processOpen t i out).2.procs j).fds fd = some o := by
  rw [processOpen]
  split_ifs with hm
  · exact ⟨h, fun fd hfd => (by cases hfd), fun j fd o ho => ho⟩
  split
  · exact ⟨h, fun fd hfd => (by cases hfd), fun j fd o ho => ho⟩
  rename_i k hk
  have hfree : ((t.procs i).handles k).used = false := by simpa using find?_some hk
  split
  · have hpath : (0 : UInt8) ∉ (releaseVfsHandle (openedHandle ((t.procs i).handles k) out)).path ∧
        (releaseVfsHandle (openedHandle ((t.procs i).handles k) out)).path.length < 256 :=
      ⟨not_mem_nil, Nat.zero_lt_succ _⟩
    dsimp only
    refine ⟨handlesOk_modify h ((h i).fill hfree hpath), fun fd hfd => (by cases hfd), fun j fd o ho => ?_⟩
    by_cases hj : j = i
    · subst hj
      rw [procs_modify_self]
      exact ho
    · rw [procs_modify_of_ne _ _ hj]
      exact ho
  · rename_i fd fds hfd
    rw [fdAlloc, map_eq_some_iff] at hfd
    obtain ⟨fd', hfind, heq⟩ := hfd
    obtain ⟨rfl, rfl⟩ := Prod.mk.inj heq
    have hnone : (t.procs i).fds fd' = none := by
      have := find?_some hfind
      simpa using (Bool.and_eq_true_iff.mp this).2
    have hfill := (h i).fill hfree (openedHandle_path hout ((h i).path k))
    dsimp only
    refine ⟨handlesOk_modify h (hfill.bind hout hm (update_self _ _ _)), fun fd hfd => ?_, fun j fd o ho => ?_⟩
    · obtain rfl := some.inj hfd
      exact ⟨k, by rw [procs_modify_self]; exact update_self _ _ _⟩
    · by_cases hj : j = i
      · subst hj
        have hne : fd ≠ fd' := by
          rintro rfl
          rw [hnone] at ho
          cases ho
        rw [procs_modify_self]
        dsimp only
        rw [update_of_ne hne]
        exact ho
      · rw [procs_modify_of_ne _ _ hj]
        exact ho

lemma fds_moveOffset (t : ProcessTable) (i : ProcSlot) (fd : Fin 16) (offset : Nat) (j : ProcSlot) :
    ((processMoveOffset t i fd offset).procs j).fds = (t.procs j).fds := by
  rw [processMoveOffset]
  split
  · split_ifs
    · rename_i o k _ _ _
      by_cases hj : j = o
      · subst hj
        rw [procs_modify_self]
      · rw [procs_modify_of_ne _ _ hj]
    · rfl
  · rfl

end handles

/-! ### Calls -/

/-- A removal is safe for the filesystem; the offset of a transfer fits in 32 bits; and at a write the path
of the handle still names the inode that was opened. -/
def FileKernel.Sound (s : FileKernel) : ProcSlot × FileCall → Prop
  | (i, .unlink path) =>
    ∀ fs ∈ s.vfs.ext2, ∀ resolved ∈ (s.resolve i path).toOption, NiceUnlink fs resolved
  | (i, .read fd _) => ∀ h ∈ s.handle i fd, h.offset < 2 ^ 32
  | (i, .write fd _) =>
    ∀ h ∈ s.handle i fd, h.offset < 2 ^ 32 ∧
      ∀ fs ∈ s.vfs.ext2, h.cachedIno ≠ 0 → ext2LookupInode fs h.path = h.cachedIno
  | _ => True

instance FileKernel.decidableSound (s : FileKernel) : (e : ProcSlot × FileCall) → Decidable (s.Sound e)
  | (_, .unlink _) | (_, .read _ _) | (_, .write _ _) => by
      unfold FileKernel.Sound
      infer_instance
  | (_, .open _) | (_, .creat _) | (_, .seek _ _ _) | (_, .writeFile _ _) | (_, .mkdir _) =>
    .isTrue trivial

/-- What a call leaves: a disk reached by safe operations, and descriptors as they were or new. -/
structure Follows (s s' : FileKernel) : Prop where
  disk : s.vfs.Moves s'.vfs
  handles : ∀ j, HandlesOk j (s'.table.procs j)
  fds : ∀ j fd o, (s.table.procs j).fds fd = some o → (s'.table.procs j).fds fd = some o

variable {resolved : List UInt8}
variable {call : FileCall}

section calls

variable {s s' : FileKernel} {i : ProcSlot} {fd : Fin 16} {h : VfsHandle}

lemma Follows.of_vfs (hs : ∀ j, HandlesOk j (s.table.procs j)) {v : Vfs} (hv : s.vfs.Moves v) :
    Follows s { s with vfs := v } :=
  ⟨hv, hs, fun _ _ _ ho => ho⟩

lemma Follows.refl (hs : ∀ j, HandlesOk j (s.table.procs j)) : Follows s s :=
  .of_vfs hs (.refl s.vfs)

lemma Follows.moveOffset (hf : Follows s s') (i : ProcSlot) (fd : Fin 16) (offset : Nat) :
    Follows s { s' with table := processMoveOffset s'.table i fd offset } :=
  ⟨hf.disk, handlesOk_moveOffset hf.handles i fd offset, fun j fd' o ho => by
    rw [fds_moveOffset]
    exact hf.fds j fd' o ho⟩

lemma Follows.advance (hf : Follows s s') (i : ProcSlot) (fd : Fin 16) (h : VfsHandle) (n : Int) :
    Follows s (s'.advance i fd h n) := by
  rw [FileKernel.advance]
  split_ifs
  · exact hf.moveOffset i fd _
  · exact hf

lemma openOutcome_good (v : Vfs) (h0 : (0 : UInt8) ∉ resolved)
    (hslash : resolved.head? = some slash) : (openOutcome v resolved).Good := by
  rw [openOutcome]
  split
  · trivial
  · split
    · exact ⟨h0, hslash⟩
    · trivial

lemma Follows.openVfs (hf : Follows s s') (i : ProcSlot)
    (h0 : (0 : UInt8) ∉ resolved) (hslash : resolved.head? = some slash) :
    Follows s (processOpenVfs s' i resolved).2 := by
  obtain ⟨hh, -, hfds⟩ := handlesOk_open (i := i) hf.handles (openOutcome_good s'.vfs h0 hslash)
  exact ⟨hf.disk, hh, fun j fd o ho => hfds j fd o (hf.fds j fd o ho)⟩

lemma handle_path (hs : ∀ j, HandlesOk j (s.table.procs j)) (hh : s.handle i fd = some h) :
    (0 : UInt8) ∉ h.path ∧ h.path.length < 256 := by
  rw [FileKernel.handle] at hh
  split at hh
  · obtain rfl := some.inj hh
    exact (hs _).path _
  · cases hh

variable {r : Int × List UInt8 × FileKernel}

section

variable (hs : ∀ j, HandlesOk j (s.table.procs j))

include hs

lemma read_follows {count : Nat}
    (hr : processVfsRead s i fd h count = some r) : Follows s r.2.2 := by
  rw [processVfsRead] at hr
  by_cases hused : (!h.used) = true
  · rw [if_pos hused] at hr
    obtain rfl := some.inj hr
    exact .refl hs
  rw [if_neg hused] at hr
  by_cases hkind : h.kind = 1
  · rw [if_pos hkind] at hr
    obtain ⟨a, -, rfl⟩ := map_eq_some_iff.mp hr
    exact (Follows.refl hs).advance i fd h a.1
  · rw [if_neg hkind] at hr
    split at hr
    · obtain rfl := some.inj hr
      exact .refl hs
    · obtain rfl := some.inj hr
      exact (Follows.refl hs).advance i fd h _

lemma write_follows (hpath : (0 : UInt8) ∉ h.path ∧ h.path.length < 256) {data : List UInt8} {r : Int × FileKernel}
    (hr : processVfsWrite s i fd h data = some r) : Follows s r.2 := by
  rw [processVfsWrite] at hr
  split_ifs at hr
  · obtain rfl := some.inj hr
    exact .refl hs
  · obtain ⟨a, ha, rfl⟩ := map_eq_some_iff.mp hr
    exact (Follows.of_vfs hs (vfsWrite_moves _ hpath.1 hpath.2 ha)).advance i fd h a.1
  · obtain rfl := some.inj hr
    exact .refl hs

lemma sysCall_follows (hok : s.Sound (i, call)) (hr : sysCall s i call = some r) :
    Follows s r.2.2 := by
  cases call <;> rw [sysCall] at hr
  case «open» path =>
    split at hr
    · obtain rfl := some.inj hr
      exact .refl hs
    · rename_i resolved hres
      obtain ⟨h0, -, hslash⟩ := FileKernel.resolve_spec hres
      obtain rfl := some.inj hr
      exact (Follows.refl hs).openVfs i h0 hslash
  case creat path =>
    split at hr
    · obtain rfl := some.inj hr
      exact .refl hs
    · rename_i resolved hres
      obtain ⟨h0, hlen, hslash⟩ := FileKernel.resolve_spec hres
      have hcreate : Follows s { s with vfs := (vfsCreate s.vfs (s.table.procs i).uid resolved).2 } :=
        .of_vfs hs (vfsCreate_moves _ h0 hlen)
      dsimp only at hr
      split_ifs at hr
      · obtain rfl := some.inj hr
        exact hcreate
      · obtain rfl := some.inj hr
        exact hcreate.openVfs i h0 hslash
  case read fd count =>
    split at hr
    · obtain rfl := some.inj hr
      exact .refl hs
    · obtain ⟨h, -, hr⟩ := bind_eq_some_iff.mp hr
      exact read_follows hs hr
  case write fd data =>
    split at hr
    · obtain rfl := some.inj hr
      exact .refl hs
    · obtain ⟨h, hh, hr⟩ := bind_eq_some_iff.mp hr
      obtain ⟨a, ha, rfl⟩ := map_eq_some_iff.mp hr
      exact write_follows hs (handle_path hs hh) ha
  case seek fd offset whence =>
    obtain rfl := some.inj hr
    rw [sysSeek]
    split
    · exact .refl hs
    · split_ifs
      · exact .refl hs
      · split
        · exact .refl hs
        · exact (Follows.refl hs).moveOffset i fd _
  case writeFile path data =>
    split at hr
    · obtain rfl := some.inj hr
      exact .refl hs
    · rename_i resolved hres
      obtain ⟨h0, hlen, -⟩ := FileKernel.resolve_spec hres
      obtain ⟨a, ha, rfl⟩ := map_eq_some_iff.mp hr
      exact .of_vfs hs (vfsWriteAll_moves _ h0 hlen ha)
  case unlink path =>
    split at hr
    · obtain rfl := some.inj hr
      exact .refl hs
    · rename_i resolved hres
      obtain ⟨h0, hlen, -⟩ := FileKernel.resolve_spec hres
      obtain rfl := some.inj hr
      refine .of_vfs hs (vfsUnlink_moves _ h0 hlen fun fs hfs => hok fs hfs resolved ?_)
      rw [hres]
      rfl
  case mkdir path =>
    split at hr
    · obtain rfl := some.inj hr
      exact .refl hs
    · rename_i resolved hres
      obtain ⟨h0, hlen, -⟩ := FileKernel.resolve_spec hres
      obtain rfl := some.inj hr
      exact .of_vfs hs (vfsMkdir_moves _ h0 hlen)

end

/-- A well-formed disk under handles that hold what was opened. -/
structure FileInv (s : FileKernel) : Prop where
  disk : ∃ fs, s.vfs.ext2 = some fs ∧ Inv fs
  handles : ∀ i, HandlesOk i (s.table.procs i)

lemma Follows.inv (hs : FileInv s) (hf : Follows s s') : FileInv s' := by
  obtain ⟨fs, hfs, hi⟩ := hs.disk
  exact ⟨hf.disk.inv hfs hi, hf.handles⟩

lemma step_follows (hs : FileInv s) {e : ProcSlot × FileCall} (hok : s.Sound e) : Follows s (s.step e) := by
  rw [FileKernel.step]
  split
  · exact .refl hs.handles
  · rename_i hr
    exact sysCall_follows hs.handles hok hr

lemma fileInv_boot (heap : Heap) {device : Ramdisk} (hroom : HasRoom device) (files : List VfsFile)
    (uids : ProcSlot → Nat) (cwd : ProcSlot → Cwd) : FileInv (.boot heap device files uids cwd) :=
  ⟨⟨_, rfl, inv_format heap hroom⟩, handlesOk_init uids⟩

end calls

/-! ### Reads and writes -/

/-- Through the descriptor, `SYS_READ` reads inode `ino` and `SYS_WRITE` changes inode `ino` and no other, at
the offset of the descriptor, which moves on by what was transferred. -/
structure Addresses (s : FileKernel) (i : ProcSlot) (fd : Fin 16) (ino : Nat) (fs : Ext2Filesystem)
    (h : VfsHandle) : Prop where
  read : ∀ count, s.Sound (i, .read fd count) → ∃ offset : UInt32, offset.toNat = h.offset ∧
    sysCall s i (.read fd count) = (ext2Read fs ino offset count).map fun r =>
      (r.1, r.2, s.advance i fd h r.1)
  write : ∀ data, s.Sound (i, .write fd data) → ∃ n fs', sysCall s i (.write fd data) =
      some (n, [], { s with vfs := { s.vfs with ext2 := some fs' } }.advance i fd h n) ∧
    WritesOnly ino h.offset (data.take n.toNat) fs fs'

section address

variable {s : FileKernel} {i : ProcSlot} {fd : Fin 16}

lemma FileInv.addresses (hs : FileInv s) {k : Fin 8} {path : List UInt8} {ino : Nat}
    (hfd : (s.table.procs i).fds fd = some (.vfs i k (.found path ino))) (hino : ino ≠ 0) :
    ∃ fs h, s.vfs.ext2 = some fs ∧ s.handle i fd = some h ∧ Addresses s i fd ino fs h := by
  obtain ⟨fs, hfs, hi⟩ := hs.disk
  obtain ⟨hslash, hkind, hpath, hcached⟩ := (hs.handles i).found fd i k path ino hfd
  obtain ⟨-, hused⟩ := (hs.handles i).used fd i k _ hfd
  have hhandle : s.handle i fd = some ((s.table.procs i).handles k) := by
    rw [FileKernel.handle, hfd]
  generalize (s.table.procs i).handles k = h at *
  refine ⟨fs, h, hfs, hhandle, ⟨fun count hok => ?_, fun data hok => ?_⟩⟩
  · have hoff := hok h hhandle
    refine ⟨UInt32.ofNat h.offset, UInt32.toNat_ofNat_of_lt' hoff, ?_⟩
    rw [sysCall, hfd]
    dsimp only
    rw [hhandle, bind_some, processVfsRead, hused, hkind, if_neg (by decide), if_pos rfl, hfs, hcached]
    dsimp only
    rw [if_pos hino]
  · obtain ⟨hoff, hres⟩ := hok h hhandle
    have hlook : ext2LookupInode fs h.path = ino := by
      rw [← hcached]
      exact hres fs hfs (by rw [hcached]; exact hino)
    have hfound : lookupOrCreate fs h.path = (ino, fs) := by
      rw [lookupOrCreate, hlook]
      exact if_neg hino
    have habs : h.path.head? = some slash := by
      rw [hpath, head?_take, if_neg (by decide), hslash]
    have hn : fs.inodeUsed ino = true := by
      rw [← hlook]
      exact hi.used_lookup (by rw [hlook]; exact hino)
    have hwrites := write_writesOnly hi hn (UInt32.ofNat h.offset) data
    rw [UInt32.toNat_ofNat_of_lt' hoff] at hwrites
    refine ⟨_, _, ?_, hwrites⟩
    rw [sysCall, hfd]
    dsimp only
    rw [hhandle, bind_some, processVfsWrite, hused, hkind, if_neg (by decide), if_pos rfl, vfsWrite, hfs]
    dsimp only
    rw [if_pos habs, hfound]
    dsimp only
    rw [if_pos hino]
    rfl

/-- The descriptor that `SYS_OPEN` or `SYS_CREAT` returns for a path on the disk. -/
lemma opened_entry (hs : FileInv s) {path : CString} (hcall : call = .open path ∨ call = .creat path) {s1 : FileKernel}
    (hret : sysCall s i call = some ((fd.val : Int), [], s1))
    (hres : s.resolve i path = .ok resolved) (hemb : vfsLookup s1.vfs resolved = none)
    {fs : Ext2Filesystem} (hfs : s1.vfs.ext2 = some fs) {ino : Nat}
    (hlook : ext2LookupInode fs resolved = ino) (hino : ino ≠ 0) :
    ∃ k, (s1.table.procs i).fds fd = some (.vfs i k (.found resolved ino)) := by
  obtain ⟨h0, -, hslash⟩ := FileKernel.resolve_spec hres
  -- both calls end in the same function
  have key : ∀ s' : FileKernel, (∀ j, HandlesOk j (s'.table.procs j)) →
      processOpenVfs s' i resolved = ((fd.val : Int), s1) →
      ∃ k, (s1.table.procs i).fds fd = some (.vfs i k (.found resolved ino)) := by
    intro s' hs' heq
    rw [processOpenVfs] at heq
    obtain ⟨hval, rfl⟩ := Prod.mk.inj heq
    have hout : openOutcome s'.vfs resolved = .found resolved ino := by
      rw [openOutcome, hemb]
      dsimp only
      rw [vfsOpenIno, hemb, hfs]
      simp [hlook, hino]
    obtain ⟨-, hentry, -⟩ := handlesOk_open (i := i) hs' (openOutcome_good s'.vfs h0 hslash)
    rw [hout] at hval hentry ⊢
    cases hr : (processOpen s'.table i (.found resolved ino)).1 with
    | none =>
      rw [hr] at hval
      simp [SYSCALL_EMFILE] at hval
    | some fd' =>
      rw [hr] at hval
      dsimp only at hval
      obtain rfl : fd' = fd := Fin.ext (by exact_mod_cast hval)
      exact hentry fd' hr
  rcases hcall with rfl | rfl
  · rw [sysCall, hres] at hret
    obtain ⟨h1, h2⟩ := Prod.mk.inj (some.inj hret)
    exact key s hs.handles (Prod.ext h1 (Prod.mk.inj h2).2)
  · rw [sysCall, hres] at hret
    dsimp only at hret
    split_ifs at hret with hneg
    · obtain ⟨h1, -⟩ := Prod.mk.inj (some.inj hret)
      omega
    · obtain ⟨h1, h2⟩ := Prod.mk.inj (some.inj hret)
      exact key { s with vfs := (vfsCreate s.vfs (s.table.procs i).uid resolved).2 } hs.handles
        (Prod.ext h1 (Prod.mk.inj h2).2)

end address

/-- Every descriptor that `SYS_OPEN` or `SYS_CREAT` returned for a path on the disk addresses the inode of
the path, in every state that sound calls of any processes lead to. -/
theorem run_descriptor_file (heap : Heap) {device : Ramdisk} (hroom : HasRoom device)
    (files : List VfsFile) (uids : ProcSlot → Nat) (cwd : ProcSlot → Cwd)
    (before after : List (ProcSlot × FileCall)) {s s₁ : FileKernel}
    (hs : s = run FileKernel.step (.boot heap device files uids cwd) before)
    (hbefore : Along FileKernel.step FileKernel.Sound (.boot heap device files uids cwd) before)
    {i : ProcSlot} {path : CString} {call : FileCall} (hcall : call = .open path ∨ call = .creat path) {fd : Fin 16}
    (hret : sysCall s i call = some ((fd.val : Int), [], s₁)) {resolved : List UInt8}
    (hres : s.resolve i path = .ok resolved) (hemb : vfsLookup s₁.vfs resolved = none)
    {fs₁ : Ext2Filesystem} (hfs₁ : s₁.vfs.ext2 = some fs₁) {ino : Nat}
    (hlook : ext2LookupInode fs₁ resolved = ino) (hino : ino ≠ 0)
    (hafter : Along FileKernel.step FileKernel.Sound s₁ after) :
    ∃ fs h, (run FileKernel.step s₁ after).vfs.ext2 = some fs ∧ (run FileKernel.step s₁ after).handle i fd = some h ∧
      Addresses (run FileKernel.step s₁ after) i fd ino fs h := by
  have hinv : FileInv s := by
    rw [hs]
    exact run_invariant (I := FileInv) (fun _ _ hs hok => (step_follows hs hok).inv hs)
      (fileInv_boot heap hroom files uids cwd) hbefore
  have hsound : s.Sound (i, call) := by rcases hcall with rfl | rfl <;> trivial
  have hinv1 : FileInv s₁ := (sysCall_follows hinv.handles hsound hret).inv hinv
  obtain ⟨k, hentry⟩ := opened_entry hinv hcall hret hres hemb hfs₁ hlook hino
  -- calls only add descriptors
  obtain ⟨hinv2, hentry2⟩ := run_invariant (I := fun s : FileKernel => FileInv s ∧ (s.table.procs i).fds fd = some
    (.vfs i k (.found resolved ino))) (fun _ _ h hok => ⟨(step_follows h.1 hok).inv h.1, (step_follows h.1 hok).fds i fd
    _ h.2⟩) ⟨hinv1, hentry⟩ hafter
  exact hinv2.addresses hentry2 hino

lemma sysCall_eq_step {s : FileKernel} {i : ProcSlot} {n : Int} {b : List UInt8}
    (h : (sysCall s i call).map (fun r => (r.1, r.2.1)) = some (n, b)) :
    sysCall s i call = some (n, b, s.step (i, call)) := by
  obtain ⟨r, hr, heq⟩ := map_eq_some_iff.mp h
  obtain ⟨rfl, rfl⟩ := Prod.mk.inj heq
  rw [FileKernel.step, hr]

/-- A device with the inodes 12 to 16 to spare after formatting. -/
def roomyDevice : Ramdisk := ⟨Buf.zero, 64 * 1024, 512⟩

/-- The working directory `/home`. -/
def homeCwd : Cwd := ⟨cstring "/home", by decide, by decide⟩

def CString.ofString (s : String) (h : (0 : UInt8) ∉ cstring s := by decide) : CString := ⟨cstring s, h⟩

/-- A process makes `/home`, inode 12; the second slash keeps the name that `ext2_mkdir` loses. -/
theorem run_descriptor_file_creat :
    let boot := run FileKernel.step (.boot zeroHeap roomyDevice [] (fun _ => 0) fun _ => homeCwd)
      [(1, .mkdir (.ofString "//home"))]
    let s := run FileKernel.step (boot.step (1, .creat (.ofString "f")))
      [(2, .creat (.ofString "g")), (1, .write 3 [7, 8]), (2, .unlink (.ofString "g")), (1, .seek 3 1 0)]
    ∃ fs h, s.vfs.ext2 = some fs ∧ s.handle 1 3 = some h ∧ Addresses s 1 3 13 fs h := by
  -- one evaluation of the run for all that is read off it
  have heval :
      let start : FileKernel := .boot zeroHeap roomyDevice [] (fun _ => 0) fun _ => homeCwd
      let boot := run FileKernel.step start [(1, .mkdir (.ofString "//home"))]
      let s := boot.step (1, .creat (.ofString "f"))
      Along FileKernel.step FileKernel.Sound start [(1, .mkdir (.ofString "//home"))] ∧
      (sysCall boot 1 (.creat (.ofString "f"))).map (fun r => (r.1, r.2.1)) = some (((3 : Fin 16).val : Int), []) ∧
      s.vfs.ext2.isSome = true ∧ (∀ fs ∈ s.vfs.ext2, ext2LookupInode fs (cstring "/home/f") = 13) ∧
      vfsLookup s.vfs (cstring "/home/f") = none ∧ Along FileKernel.step FileKernel.Sound s
        [(2, .creat (.ofString "g")), (1, .write 3 [7, 8]), (2, .unlink (.ofString "g")), (1, .seek 3 1 0)] := by
    decide +kernel
  obtain ⟨hbefore, hret, hsome, hlook, hemb, hafter⟩ := heval
  obtain ⟨fs, hfs⟩ := isSome_iff_exists.mp hsome
  exact run_descriptor_file zeroHeap (by refine ⟨⟨2, rfl⟩, ?_, ?_⟩ <;> decide) [] (fun _ => 0) (fun _ => homeCwd)
    [(1, .mkdir (.ofString "//home"))] _ rfl hbefore (.inr rfl) (sysCall_eq_step hret) rfl hemb hfs (hlook fs hfs)
    (by decide) hafter

/-- A file whose path has 68 bytes is opened, and the write goes to a file of the first 63 bytes. -/
theorem descriptor_file_fails :
    let name : CString := ⟨List.replicate 62 97, by decide⟩
    let s := run FileKernel.step (.boot zeroHeap roomyDevice [] (fun _ => 0) fun _ => homeCwd)
      [(1, .mkdir (.ofString "//home")), (1, .writeFile name [1])]
    let s₁ := s.step (1, .open name)
    let s₂ := s₁.step (1, .write 3 [2])
    (sysCall s 1 (.open name)).map (fun r => r.1) = some 3 ∧
      s₁.vfs.ext2.map (fun fs => (ext2LookupInode fs (cstring "/home/" ++ name.bytes), contents fs 13,
        fs.inodeUsed 14)) = some (13, [1], false) ∧
      (sysCall s₁ 1 (.write 3 [2])).map (fun r => r.1) = some 1 ∧
      s₂.vfs.ext2.map (fun fs => (contents fs 13, contents fs 14, fs.inodeUsed 14)) = some ([1], [2], true) := by
  decide +kernel

/-! ### The disk below -/

/-- Sound calls of any processes change the disk by safe ext2 operations only, so it stays well-formed. -/
theorem run_calls_refine (heap : Heap) {device : Ramdisk} (hroom : HasRoom device) (files : List VfsFile)
    (uids : ProcSlot → Nat) (cwd : ProcSlot → Cwd) (calls : List (ProcSlot × FileCall))
    (h : Along FileKernel.step FileKernel.Sound (.boot heap device files uids cwd) calls) :
    ∃ fs, (run FileKernel.step (.boot heap device files uids cwd) calls).vfs.ext2 = some fs ∧
      Relation.ReflTransGen Ext2Step (ext2Format heap device) fs ∧ Inv fs := by
  refine (run_invariant (I := fun s => FileInv s ∧ ∃ fs, s.vfs.ext2 = some fs ∧
    Relation.ReflTransGen Ext2Step (ext2Format heap device) fs ∧ Inv fs) ?_
    ⟨fileInv_boot heap hroom files uids cwd, _, rfl, .refl, inv_format heap hroom⟩ h).2
  rintro s e ⟨hs, fs, hfs, hsteps, hi⟩ he
  have hf := step_follows hs he
  obtain ⟨fs', hfs', hsteps'⟩ := hf.disk fs hfs hi
  exact ⟨hf.inv hs, fs', hfs', hsteps.trans hsteps', inv_of_steps hi hsteps'⟩

theorem run_calls_refine_creat : ∃ fs, (run FileKernel.step
    (.boot zeroHeap roomyDevice [] (fun _ => 0) fun _ => homeCwd)
    [(2, .mkdir (.ofString "//home")), (1, .creat (.ofString "f")), (2, .mkdir (.ofString "d")),
      (1, .write 3 [7])]).vfs.ext2 = some fs ∧
      Relation.ReflTransGen Ext2Step (ext2Format zeroHeap roomyDevice) fs ∧ Inv fs :=
  run_calls_refine zeroHeap ⟨⟨2, rfl⟩, by decide, by decide⟩ _ _ _ _ (by decide +kernel)

end VibeOS
