import VibeOS.Vfs.Vfs

/-!
# RAM files and the bounds of their arrays

With no disk mounted, `vfs_create`, `vfs_write`, `vfs_write_all` and `vfs_read_user` work on the
32 arrays of `g_user_files`. The clamps of `vfs_write` and `vfs_read_user` add and subtract in
`size_t`: an offset behind the array makes `VFS_USER_MAX_SIZE - offset` wrap, and a count near
`2^64` makes `offset + count` wrap below the bound. `RamCall.Fits` excludes exactly these two, and
`RamOk` (no recorded size exceeds the array) is kept by every other call, which then stays inside
the arrays and writes only where it says (`StoresOnly`).
-/

namespace VibeOS

open List

/-- The calls that reach the files in memory. -/
inductive RamCall where
  | create (uid : Nat) (path : List UInt8)
  | write (uid : Nat) (path : List UInt8) (offset : UInt64) (data : List UInt8)
  | writeAll (uid : Nat) (path data : List UInt8)
  | readUser (path : List UInt8) (offset count : UInt64)

/-- The result of a call and the state after it; `none` is an access outside an array. -/
def RamCall.perform (v : Vfs) : RamCall → Option (Int × Vfs)
  | .create uid path => some (vfsCreate v uid path)
  | .write uid path offset data => vfsWrite v uid path offset.toNat data
  | .writeAll uid path data => vfsWriteAll v uid path data
  | .readUser path offset count =>
    (vfsReadUser v path offset.toNat count.toNat).map fun r => (r.1, v)

def RamCall.apply (v : Vfs) (c : RamCall) : Vfs := ((c.perform v).map Prod.snd).getD v

/-- The file's size as `vfs_read_user` finds it, `0` when there is none. -/
def userSize (v : Vfs) (path : List UInt8) : Nat :=
  ((findUserFile v path).map fun i => (v.userFiles i).size).getD 0

/-- No sum or difference of the call wraps: a write starts inside the array, and the end of a write,
and of a read that starts inside the file, is a `size_t`. -/
def RamCall.Fits (v : Vfs) : RamCall → Prop
  | .create _ _ => True
  | .write _ _ offset data =>
    offset.toNat ≤ VFS_USER_MAX_SIZE ∧ offset.toNat + data.length < 2 ^ 64
  | .writeAll _ _ data => data.length < 2 ^ 64
  | .readUser path offset count =>
    offset.toNat < userSize v path → offset.toNat + count.toNat < 2 ^ 64

instance RamCall.decidableFits (v : Vfs) : (c : RamCall) → Decidable (c.Fits v)
  | .create _ _ => .isTrue trivial
  | .write _ _ _ _ => inferInstanceAs (Decidable (_ ∧ _))
  | .writeAll _ _ _ => inferInstanceAs (Decidable (_ < _))
  | .readUser _ _ _ => inferInstanceAs (Decidable (_ → _))

/-- No disk is mounted, and no file is longer than its array. -/
structure RamOk (v : Vfs) : Prop where
  noDisk : v.ext2 = none
  size : ∀ i, (v.userFiles i).size ≤ VFS_USER_MAX_SIZE

/-- Only bytes `[offset, offset + n)` of file `i` may have changed, and no other file. -/
structure StoresOnly (v v' : Vfs) (i : Fin 32) (offset n : Nat) : Prop where
  other : ∀ j, j ≠ i → v'.userFiles j = v.userFiles j
  outside : ∀ k, ¬ (offset ≤ k ∧ k < offset + n) → (v'.userFiles i).data k = (v.userFiles i).data k

variable {offset : Nat}
variable {data : List UInt8}

variable {f : VfsUserFile}

section files

variable {v v' : Vfs} {path : List UInt8} {i : Fin 32}

@[simp] lemma userFiles_setUserFile_self (v : Vfs) (i : Fin 32) (f : VfsUserFile) :
    (v.setUserFile i f).userFiles i = f := Function.update_self ..

lemma userFiles_setUserFile_of_ne (v : Vfs) {i j : Fin 32} (f : VfsUserFile) (h : j ≠ i) :
    (v.setUserFile i f).userFiles j = v.userFiles j := Function.update_of_ne h ..

lemma RamOk.setUserFile (h : RamOk v) (hf : f.size ≤ VFS_USER_MAX_SIZE) : RamOk (v.setUserFile i f) where
  noDisk := h.noDisk
  size j := by
    by_cases hj : j = i
    · rw [hj, userFiles_setUserFile_self]
      exact hf
    · rw [userFiles_setUserFile_of_ne v f hj]
      exact h.size j

lemma StoresOnly.trans_same {v'' : Vfs} {n : Nat} (h1 : StoresOnly v v' i 0 0)
    (h2 : StoresOnly v' v'' i offset n) : StoresOnly v v'' i offset n where
  other j hj := (h2.other j hj).trans (h1.other j hj)
  outside k hk := (h2.outside k hk).trans (h1.outside k fun h => absurd h.2 (by omega))

lemma StoresOnly.refl (v : Vfs) (i : Fin 32) (offset n : Nat) : StoresOnly v v i offset n :=
  ⟨fun _ _ => rfl, fun _ _ => rfl⟩

lemma writesOnly_setUserFile (v : Vfs) (i : Fin 32) {n : Nat}
    (h : ∀ k, ¬ (offset ≤ k ∧ k < offset + n) → f.data k = (v.userFiles i).data k) :
    StoresOnly v (v.setUserFile i f) i offset n where
  other j hj := userFiles_setUserFile_of_ne v f hj
  outside k hk := by
    rw [userFiles_setUserFile_self]
    exact h k hk

/-! ### Finding and making a file -/

lemma findUserFile_some (h : findUserFile v path = some i) :
    (v.userFiles i).used = true ∧ (v.userFiles i).path = path := by
  have := find?_some h
  simpa using this

lemma findUserFile_eq (hi : (v.userFiles i).used = true ∧ (v.userFiles i).path = path)
    (huniq : ∀ j, (v.userFiles j).used = true → (v.userFiles j).path = path → j = i) :
    findUserFile v path = some i := by
  rcases hf : findUserFile v path with _ | j
  · have hnone := find?_eq_none.mp hf i (mem_finRange i)
    simp [hi.1, hi.2] at hnone
  · obtain ⟨hu, hp⟩ := findUserFile_some hf
    rw [huniq j hu hp]

lemma findUserFile_congr (hused : ∀ j, (v'.userFiles j).used = (v.userFiles j).used)
    (hpath : ∀ j, (v'.userFiles j).path = (v.userFiles j).path) : findUserFile v' path = findUserFile v path := by
  rw [findUserFile, findUserFile]
  congr 1
  funext j
  rw [hused, hpath]

lemma findUserFile_setUserFile (v : Vfs) (i : Fin 32)
    (hused : f.used = (v.userFiles i).used) (hpath : f.path = (v.userFiles i).path) :
    findUserFile (v.setUserFile i f) path = findUserFile v path := by
  refine findUserFile_congr (fun j => ?_) fun j => ?_
  all_goals
    by_cases hj : j = i
    · rw [hj, userFiles_setUserFile_self]
      assumption
    · rw [userFiles_setUserFile_of_ne v f hj]

lemma createUserFile_spec (h : RamOk v) (hnone : findUserFile v path = none) : createUserFile v path = (-1, v) ∨
    ∃ i v', createUserFile v path = (0, v') ∧ RamOk v' ∧ StoresOnly v v' i 0 0 ∧ findUserFile v' path = some i := by
  rw [createUserFile, if_neg (by rw [hnone]; exact Bool.false_ne_true)]
  rcases hfree : (List.finRange 32).find? fun i => !(v.userFiles i).used with _ | i
  · exact .inl rfl
  · refine .inr ⟨i, _, rfl, h.setUserFile (Nat.zero_le _), writesOnly_setUserFile v i fun _ _ => rfl,
      findUserFile_eq ⟨?_, ?_⟩ ?_⟩
    · rw [userFiles_setUserFile_self]
    · rw [userFiles_setUserFile_self]
    · intro j hu hp
      by_contra hj
      rw [userFiles_setUserFile_of_ne v _ hj] at hu hp
      have := find?_eq_none.mp hnone j (mem_finRange j)
      simp [hu, hp] at this

lemma vfsCreate_noDisk (uid : Nat) (h : v.ext2 = none) :
    vfsCreate v uid path = if path.length ≥ 64 then (-1, v) else createUserFile v path := by
  have hacc : vfsAccessOk v uid (parentDir path) 6 = true := by rw [vfsAccessOk, h]
  rw [vfsCreate, hacc, h]
  rfl

/-- The file a writing call works on: there is none and nothing changed, or it is found under its
path and no byte changed. -/
lemma openUserFile_spec (path : List UInt8) (uid : Nat) (h : RamOk v) : openUserFile v uid path = (none, v) ∨
    ∃ i v', openUserFile v uid path = (some i, v') ∧ RamOk v' ∧ StoresOnly v v' i 0 0 ∧
      findUserFile v' path = some i := by
  rw [openUserFile]
  rcases hf : findUserFile v path with _ | i
  · dsimp only
    rw [vfsCreate_noDisk uid h.noDisk]
    split_ifs with hlen hneg hneg
    · exact .inl rfl
    · exact absurd (show (-1 : Int) < 0 by decide) hneg
    · rcases createUserFile_spec h hf with hc | ⟨i, v', hc, -, -, -⟩
      · rw [hc]
        exact .inl rfl
      · rw [hc] at hneg
        exact absurd hneg (lt_irrefl _)
    · rcases createUserFile_spec h hf with hc | ⟨i, v', hc, hok, honly, hfind⟩
      · rw [hc] at hneg
        exact absurd (show (-1 : Int) < 0 by decide) hneg
      · rw [hc]
        exact .inr ⟨i, v', by rw [← hfind], hok, honly, hfind⟩
  · exact .inr ⟨i, v, rfl, h, StoresOnly.refl v i 0 0, hf⟩

/-! ### Writing and reading -/

lemma clampWrite_eq {count : Nat} (ho : offset ≤ VFS_USER_MAX_SIZE) (hc : offset + count < 2 ^ 64) :
    clampWrite offset count = min count (VFS_USER_MAX_SIZE - offset) := by
  rw [clampWrite, Nat.mod_eq_of_lt hc]
  by_cases hover : offset + count > VFS_USER_MAX_SIZE
  · rw [if_pos hover]
    omega
  · rw [if_neg hover]
    omega

lemma storeUserFile_spec (h : RamOk v)
    (ho : offset ≤ VFS_USER_MAX_SIZE) (hc : offset + data.length < 2 ^ 64) (hf : findUserFile v path = some i) :
    ∃ (n : Nat) (v' : Vfs), storeUserFile v i offset data = some ((n : Int), v') ∧ RamOk v' ∧
      offset + n ≤ VFS_USER_MAX_SIZE ∧ StoresOnly v v' i offset n ∧ findUserFile v' path = some i := by
  have hclamp := clampWrite_eq ho hc
  have hend : offset + clampWrite offset data.length ≤ VFS_USER_MAX_SIZE := by omega
  rw [storeUserFile, if_neg (by omega)]
  refine ⟨_, _, rfl, h.setUserFile ?_, hend, writesOnly_setUserFile v i fun k hk => ?_, ?_⟩
  · have := h.size i
    split_ifs
    · exact hend
    · exact this
  · dsimp only
    rw [Buf.blit_of_not_mem hk]
  · refine (findUserFile_setUserFile v i ?_ ?_).trans hf <;> rfl

/-- What a writing call that does not wrap does. -/
def Writes (v : Vfs) (path : List UInt8) (offset : Nat) (r : Option (Int × Vfs)) : Prop :=
  r = some (-1, v) ∨
  ∃ (n : Nat) (v' : Vfs) (i : Fin 32), r = some ((n : Int), v') ∧ RamOk v' ∧
    offset + n ≤ VFS_USER_MAX_SIZE ∧ findUserFile v' path = some i ∧ StoresOnly v v' i offset n

lemma vfsWrite_spec (uid : Nat) (h : RamOk v) (ho : offset ≤ VFS_USER_MAX_SIZE) (hc : offset + data.length < 2 ^ 64) :
    Writes v path offset (vfsWrite v uid path offset data) := by
  rw [vfsWrite, h.noDisk]
  rw [writeUserFile]
  rcases openUserFile_spec path uid h with hopen | ⟨i, v1, hopen, hok, honly, hfind⟩
  · rw [hopen]
    exact .inl rfl
  · rw [hopen]
    obtain ⟨n, v', hs, hok', hend, honly', hfind'⟩ := storeUserFile_spec hok ho hc hfind
    exact .inr ⟨n, v', i, hs, hok', hend, hfind', honly.trans_same honly'⟩

lemma vfsWriteAll_spec (uid : Nat) (h : RamOk v) (hc : data.length < 2 ^ 64) :
    Writes v path 0 (vfsWriteAll v uid path data) := by
  rw [vfsWriteAll, h.noDisk]
  rw [writeAllUserFile]
  rcases openUserFile_spec path uid h with hopen | ⟨i, v1, hopen, hok, honly, hfind⟩
  · rw [hopen]
    exact .inl rfl
  · rw [hopen]
    dsimp only
    -- the file is cut to size zero before it is written
    set v2 := v1.setUserFile i { v1.userFiles i with size := 0 } with hv2
    have hok2 : RamOk v2 := hok.setUserFile (Nat.zero_le _)
    have hfind2 : findUserFile v2 path = some i := by
      refine (findUserFile_setUserFile v1 i ?_ ?_).trans hfind <;> rfl
    have honly2 : StoresOnly v1 v2 i 0 0 := writesOnly_setUserFile v1 i fun _ _ => rfl
    rw [vfsWrite, hok2.noDisk]
    rw [writeUserFile, openUserFile, hfind2]
    have hsum : 0 + data.length < 2 ^ 64 := by omega
    obtain ⟨n, v', hs, hok', hend, honly', hfind'⟩ :=
      storeUserFile_spec hok2 (Nat.zero_le _) hsum hfind2
    exact .inr ⟨n, v', i, hs, hok', hend, hfind', (honly.trans_same honly2).trans_same honly'⟩

lemma vfsReadUser_spec (h : RamOk v) {count : Nat} (hc : offset < userSize v path → offset + count < 2 ^ 64) :
    ∃ r, vfsReadUser v path offset count = some r ∧ (0 < r.1 → offset + r.1.toNat ≤ VFS_USER_MAX_SIZE) := by
  rw [vfsReadUser]
  rcases hf : findUserFile v path with _ | i
  · exact ⟨_, rfl, fun h => absurd h (by decide)⟩
  · dsimp only
    have hsize := h.size i
    by_cases ho : offset ≥ (v.userFiles i).size
    · rw [if_pos ho]
      exact ⟨_, rfl, fun h => absurd h (lt_irrefl _)⟩
    · have hsum := hc (by rw [userSize, hf]; simpa using ho)
      rw [if_neg ho, Nat.mod_eq_of_lt hsum]
      have hend : offset + (if offset + count > (v.userFiles i).size then
          (v.userFiles i).size - offset else count) ≤ VFS_USER_MAX_SIZE := by
        split_ifs <;> omega
      rw [if_neg (by omega)]
      exact ⟨_, rfl, fun _ => hend⟩

lemma vfsCreate_ok (uid : Nat) (h : RamOk v) : RamOk (vfsCreate v uid path).2 := by
  rw [vfsCreate_noDisk uid h.noDisk]
  split_ifs
  · exact h
  · rcases hf : findUserFile v path with _ | i
    · rcases createUserFile_spec h hf with hc | ⟨i, v', hc, hok, -, -⟩
      · rw [hc]
        exact h
      · rw [hc]
        exact hok
    · rw [createUserFile, if_pos (by rw [hf]; rfl)]
      exact h

end files

/-! ### Runs -/

lemma Writes.apply {v : Vfs} {path : List UInt8} {r : Option (Int × Vfs)}
    (h : RamOk v) (hw : Writes v path offset r) : RamOk ((r.map Prod.snd).getD v) := by
  rcases hw with rfl | ⟨n, v', i, rfl, hok, -, -, -⟩
  · exact h
  · exact hok

lemma RamOk.apply {v : Vfs} (h : RamOk v) (c : RamCall) (hc : c.Fits v) : RamOk (c.apply v) := by
  cases c with
  | create uid path => exact vfsCreate_ok uid h
  | write uid path offset data => exact (vfsWrite_spec uid h hc.1 hc.2).apply h
  | writeAll uid path data => exact (vfsWriteAll_spec uid h hc).apply h
  | readUser path offset count =>
    obtain ⟨r, hr, -⟩ := vfsReadUser_spec h hc
    rw [RamCall.apply, RamCall.perform, hr]
    exact h

/-- After every sequence of calls that do not wrap, no size exceeds the arrays; and the next such call stays inside
them: reads end below `VFS_USER_MAX_SIZE`, and a write that reports `n` bytes at `offset` has changed only those
bytes of its file. -/
theorem run_ram_files (v₀ : Vfs) (h₀ : RamOk v₀) (cs : List RamCall)
    (hcs : Along RamCall.apply (fun v c => c.Fits v) v₀ cs) :
    let v := run RamCall.apply v₀ cs
    (∀ i, (v.userFiles i).size ≤ VFS_USER_MAX_SIZE) ∧
    (∀ c : RamCall, c.Fits v → (c.perform v).isSome = true) ∧
    (∀ uid path offset data, (RamCall.write uid path offset data).Fits v →
      Writes v path offset.toNat (vfsWrite v uid path offset.toNat data)) ∧
    (∀ uid path data, (RamCall.writeAll uid path data).Fits v → Writes v path 0 (vfsWriteAll v uid path data)) ∧
    ∀ path offset count, (RamCall.readUser path offset count).Fits v →
      ∃ r, vfsReadUser v path offset.toNat count.toNat = some r ∧
        (0 < r.1 → offset.toNat + r.1.toNat ≤ VFS_USER_MAX_SIZE) := by
  intro v
  have h : RamOk v := run_invariant (I := RamOk) (fun _ c hv hc => hv.apply c hc) h₀ hcs
  have hwrite : ∀ uid path offset data, (RamCall.write uid path offset data).Fits v →
      Writes v path offset.toNat (vfsWrite v uid path offset.toNat data) :=
    fun uid path offset data hc => vfsWrite_spec uid h hc.1 hc.2
  have hall : ∀ uid path data, (RamCall.writeAll uid path data).Fits v →
      Writes v path 0 (vfsWriteAll v uid path data) :=
    fun uid path data hc => vfsWriteAll_spec uid h hc
  have hsome : ∀ {path offset r}, Writes v path offset r → r.isSome = true := by
    rintro path offset r (rfl | ⟨n, v', i, rfl, -⟩) <;> rfl
  refine ⟨h.size, fun c hc => ?_, hwrite, hall, fun path offset count hc => vfsReadUser_spec h hc⟩
  cases c with
  | create uid path => rfl
  | write uid path offset data => exact hsome (hwrite uid path offset data hc)
  | writeAll uid path data => exact hsome (hall uid path data hc)
  | readUser path offset count =>
    obtain ⟨r, hr, -⟩ := vfsReadUser_spec h hc
    rw [RamCall.perform, hr]
    rfl

def bootVfs : Vfs := ⟨[], fun _ => ⟨[], Buf.zero, 0, false⟩, none⟩

lemma ramOk_bootVfs : RamOk bootVfs := ⟨rfl, fun _ => Nat.zero_le _⟩

/-- Two bytes are written to `/a`; a write at the very end of the array reports no bytes. -/
theorem run_ram_files_end :
    let v := run RamCall.apply bootVfs [.write 0 (cstring "/a") 0 [1, 2]]
    Writes v (cstring "/a") 8192 (vfsWrite v 0 (cstring "/a") 8192 [3]) :=
  (run_ram_files bootVfs ramOk_bootVfs [.write 0 (cstring "/a") 0 [1, 2]] (by decide)).2.2.1 0
    (cstring "/a") 8192 [3] (by decide)

/-- A write of one byte right behind the array, and a read of `2^64 - 1` bytes from offset 1 of a
file of two bytes, leave the array. -/
theorem ram_files_fail :
    let v := run RamCall.apply bootVfs [.write 0 (cstring "/a") 0 [1, 2]]
    (vfsWrite v 0 (cstring "/a") 8193 [3]).isNone = true ∧
      (vfsReadUser v (cstring "/a") 1 (2 ^ 64 - 1)).isNone = true := by
  decide

end VibeOS
