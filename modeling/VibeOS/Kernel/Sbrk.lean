import VibeOS.Kernel.Process

/-!
# Growing a user heap

`process_sbrk` backs the new pages of a heap with chunks from `kmalloc`, halving the batch each
time an allocation fails, and undoes everything when it runs out of memory or of chunk records. The
limit of the heap, `user_virtual_base + PROCESS_USER_IMAGE_SIZE`, is the bottom of the stack that
`paging_map_user_process` maps.

`kmalloc` is any function of the number of the call. `Batches` describes the state
between two rounds of the growth loop by the list of the batches mapped so far (`frames` are their
pages in order); `growLoop_batches` carries it through the loop, and the two ends follow:
`process_sbrk` has mapped exactly the new pages, or has put everything back (`undo_eq`).

Other names are those of `kernel/src/process.c`.
-/

namespace VibeOS.Sbrk

open List Function

def PROCESS_USER_BASE : Nat := 0x20000000
def PROCESS_USER_REGION_BYTES : Nat := 0x10000000
def PROCESS_USER_STACK_SIZE : Nat := 0x100000
def PROCESS_USER_IMAGE_SIZE : Nat := PROCESS_USER_REGION_BYTES - PROCESS_USER_STACK_SIZE
def PROCESS_USER_PAGE_TABLE_COUNT : Nat := PROCESS_USER_REGION_BYTES / 0x200000
def PROCESS_HEAP_MAX_CHUNKS : Nat := 2048

/-- `(uint64_t)(uintptr_t)-1`. -/
def minusOne : Nat := 2 ^ 64 - 1

/-- Round an address up to a page.
Source: `align_up_page_uintptr`, `align_ptr_4k` -/
def alignUpPage (value : Nat) : Nat := (value + 0xfff) % 2 ^ 64 / 4096 * 4096

/-! ### Memory -/

/-- Physical memory, and what the allocator was asked during a call. -/
structure HeapEnv where
  memory : Nat → UInt8
  calls : Nat
  /-- The blocks handed out, with the sizes asked for. -/
  allocated : List (Nat × Nat)
  freed : List Nat

/-- A call of `kmalloc`; `0` is a failure. -/
def HeapEnv.kmalloc (results : Nat → Nat) (env : HeapEnv) (size : Nat) : Nat × HeapEnv :=
  let p := results env.calls
  (p, { env with
    calls := env.calls + 1
    allocated := if p = 0 then env.allocated else env.allocated ++ [(p, size)] })

def HeapEnv.kfree (env : HeapEnv) (p : Nat) : HeapEnv := { env with freed := env.freed ++ [p] }

def HeapEnv.memoryZero (env : HeapEnv) (start n : Nat) : HeapEnv :=
  { env with memory := fun a => if start ≤ a ∧ a < start + n then 0 else env.memory a }

/-! ### The growth loop -/

/-- What the loop works on: the chunk records and the page-table entries of the owner. -/
structure Grow where
  chunks : Nat → Nat
  chunkCount : Nat
  entries : Nat → Nat
  env : HeapEnv

/-- Ask for the batch, then for half of it and so on down to one page: the block and the size of the
batch, or `none` when nothing is left. Every round at least halves a batch above one page, so the
number of its pages is enough fuel.
Source: `process_sbrk` -/
def takeBatch (results : Nat → Nat) (chunkCount : Nat) : (fuel batch : Nat) → HeapEnv → Option (Nat × Nat) × HeapEnv
  | 0, _, env => (none, env)
  | fuel + 1, batch, env =>
    if chunkCount ≥ PROCESS_HEAP_MAX_CHUNKS then (none, env)
    else
      let (allocation, env1) := env.kmalloc results (batch + 0x1000)
      if allocation ≠ 0 then (some (allocation, batch), env1)
      else if batch ≤ 0x1000 then (none, env1)
      else
        let half := batch / 2 / 4096 * 4096
        takeBatch results chunkCount fuel (if half < 0x1000 then 0x1000 else half) env1

/-- The index of an address in the page tables of the process; the difference is a `uintptr_t`. -/
def pageIndex (base va : Nat) : Nat := (va + 2 ^ 64 - base) % 2 ^ 64 / 0x1000

/-- Map `count` pages of a batch from the `b`-th on; `false` when the tables are too short.
Source: `process_sbrk` -/
def mapPages (base va pages : Nat) : (count b : Nat) → (Nat → Nat) → Bool × (Nat → Nat)
  | 0, _, entries => (true, entries)
  | count + 1, b, entries =>
    let page := pageIndex base (va + b * 0x1000)
    let table := page / 512
    let entry := page % 512
    if table ≥ PROCESS_USER_PAGE_TABLE_COUNT then (false, entries)
    else mapPages base va pages count (b + 1)
      (update entries (table * 512 + entry) ((pages + b * 0x1000) ||| 7))

/-- The loop of `process_sbrk`: whether it mapped everything. Every round maps at least one page.
Source: `process_sbrk` -/
def growLoop (results : Nat → Nat) (base oldPageEnd mapSize : Nat) : (fuel mapped : Nat) → Grow → Bool × Grow
  | 0, _, g => (false, g)
  | fuel + 1, mapped, g =>
    if mapped < mapSize then
      match takeBatch results g.chunkCount ((mapSize - mapped) / 0x1000) (mapSize - mapped) g.env with
      | (none, env) => (false, { g with env := env })
      | (some (allocation, batch), env) =>
        let pages := alignUpPage allocation
        let env1 := env.memoryZero pages batch
        match mapPages base (oldPageEnd + mapped) pages (batch / 0x1000) 0 g.entries with
        | (false, entries) =>
          (false, { g with entries := entries, env := env1.kfree allocation })
        | (true, entries) =>
          growLoop results base oldPageEnd mapSize fuel (mapped + batch)
            { chunks := update g.chunks g.chunkCount allocation
              chunkCount := g.chunkCount + 1
              entries := entries
              env := env1 }
    else (true, g)

/-- Clear the entry of an address, if the tables cover it. -/
def clearEntry (base va : Nat) (entries : Nat → Nat) : Nat → Nat :=
  let page := pageIndex base va
  let table := page / 512
  let entry := page % 512
  if table < PROCESS_USER_PAGE_TABLE_COUNT then update entries (table * 512 + entry) 0
  else entries

/-- Clear the entries of the pages that were to be mapped.
Source: `process_sbrk` -/
def unmapPages (base oldPageEnd count : Nat) (entries : Nat → Nat) : Nat → Nat :=
  (List.range count).foldl (fun e i => clearEntry base (oldPageEnd + i * 0x1000) e) entries

/-- Free `count` chunks from the record `c` on.
Source: `process_sbrk` -/
def freeChunks : (count c : Nat) → Grow → Grow
  | 0, _, g => g
  | count + 1, c, g =>
    freeChunks count (c + 1)
      { g with chunks := update g.chunks c 0, env := g.env.kfree (g.chunks c) }

/-- Roll a failed growth back.
Source: `process_sbrk` -/
def undo (base oldPageEnd mapSize chunkStart : Nat) (g : Grow) : Grow :=
  let g1 := { g with entries := unmapPages base oldPageEnd (mapSize / 0x1000) g.entries }
  { freeChunks (g1.chunkCount - chunkStart) chunkStart g1 with chunkCount := chunkStart }

/-! ### The call -/

/-- The fields of a process that the call uses.
Source: `kernel/include/process.h` `struct process` -/
structure HeapProcess where
  loaded : Bool
  isThread : Bool
  cr3 : Nat
  /-- The address of the page tables, `0` for none. -/
  userPageTables : Nat
  userVirtualBase : Nat
  heapStart : Nat
  heapBreak : Nat
  heapChunks : Nat → Nat
  heapChunkCount : Nat

/-- The processes, the page tables by their address, and memory. -/
structure SbrkState where
  processes : ProcSlot → HeapProcess
  tables : Nat → Nat → Nat
  env : HeapEnv

def processAddressSpaceOwner (s : SbrkState) (p : ProcSlot) : ProcSlot :=
  if !(s.processes p).isThread then p
  else
    ((List.finRange PROCESS_MAX_COUNT).find? fun i =>
      (s.processes i).loaded && !(s.processes i).isThread &&
        (s.processes i).userPageTables == (s.processes p).userPageTables &&
        (s.processes i).cr3 == (s.processes p).cr3).getD p

/-- Store what the loop worked on back into the owner. -/
def SbrkState.put (s : SbrkState) (o : ProcSlot) (g : Grow) : SbrkState where
  processes := update s.processes o
    { s.processes o with heapChunks := g.chunks, heapChunkCount := g.chunkCount }
  tables := update s.tables (s.processes o).userPageTables g.entries
  env := g.env

def SbrkState.setBreak (s : SbrkState) (o : ProcSlot) (newBreak : Nat) : SbrkState :=
  { s with
    processes := update s.processes o { s.processes o with heapBreak := newBreak } }

/-- A thread keeps a copy of its owner's heap bounds. -/
def SbrkState.copyBreak (s : SbrkState) (p o : ProcSlot) : SbrkState :=
  if p = o then s
  else
    { s with
      processes := update s.processes p
        { s.processes p with
          heapStart := (s.processes o).heapStart
          heapBreak := (s.processes o).heapBreak } }

/-- The last part of the call, when new pages are needed.
Source: `process_sbrk` -/
def growHeap (results : Nat → Nat) (s : SbrkState) (p o : ProcSlot) (newBreak oldPageEnd newPageEnd : Nat) :
    Nat × SbrkState :=
  let owner := s.processes o
  let mapSize := newPageEnd - oldPageEnd
  let g : Grow := ⟨owner.heapChunks, owner.heapChunkCount, s.tables owner.userPageTables, s.env⟩
  match growLoop results owner.userVirtualBase oldPageEnd mapSize (mapSize / 0x1000 + 1) 0 g with
  | (true, g') => (owner.heapBreak, ((s.put o g').setBreak o newBreak).copyBreak p o)
  | (false, g') =>
    (minusOne, s.put o (undo owner.userVirtualBase oldPageEnd mapSize owner.heapChunkCount g'))

/-- Move the break of the process's heap up: the old break, or `-1`. -/
def processSbrk (results : Nat → Nat) (s : SbrkState) (p : ProcSlot) (increment : UInt64) : Nat × SbrkState :=
  let o := processAddressSpaceOwner s p
  let owner := s.processes o
  if owner.userPageTables = 0 ∨ owner.heapStart = 0 then (minusOne, s)
  else if increment = 0 then (owner.heapBreak, s)
  else if increment.toNat ≥ 2 ^ 63 then (minusOne, s)
  else if increment.toNat > 2 ^ 64 - 1 - owner.heapBreak then (minusOne, s)
  else
    let newBreak := (owner.heapBreak + increment.toNat) % 2 ^ 64
    if newBreak < owner.heapBreak ∨ newBreak > owner.userVirtualBase + PROCESS_USER_IMAGE_SIZE then
      (minusOne, s)
    else
      let oldPageEnd := alignUpPage owner.heapBreak
      let newPageEnd := alignUpPage newBreak
      if newPageEnd = oldPageEnd then (owner.heapBreak, s.setBreak o newBreak)
      else growHeap results s p o newBreak oldPageEnd newPageEnd

/-! ### Pages -/

section

variable {base va : Nat}

lemma pageIndex_add (hb : base ≤ va) {b : Nat} (hlt : va + b * 0x1000 < 2 ^ 64) :
    pageIndex base (va + b * 0x1000) = (va - base) / 0x1000 + b := by
  rw [pageIndex]
  omega

lemma tableCount_eq : PROCESS_USER_PAGE_TABLE_COUNT = 128 := rfl

lemma alignUpPage_spec {v : Nat} (h : v + 0xfff < 2 ^ 64) :
    v ≤ alignUpPage v ∧ alignUpPage v < v + 0x1000 ∧ alignUpPage v % 0x1000 = 0 := by
  rw [alignUpPage, Nat.mod_eq_of_lt h]
  omega

lemma table_entry (page : Nat) : page / 512 * 512 + page % 512 = page := by
  rw [mul_comm]
  exact Nat.div_add_mod page 512

/-- Mapping pages that the tables cover: the entries of exactly these pages change. -/
lemma mapPages_eq {first : Nat} (pages count b : Nat) (entries : Nat → Nat)
    (hidx : ∀ k, k < b + count → pageIndex base (va + k * 0x1000) = first + k) (htab : first + (b + count) ≤ 65536) :
    mapPages base va pages count b entries = (true, fun i =>
      if first + b ≤ i ∧ i < first + (b + count) then (pages + (i - first) * 0x1000) ||| 7 else entries i) := by
  induction count generalizing b entries with
  | zero =>
    have hnone : ∀ i, ¬ (first + b ≤ i ∧ i < first + (b + 0)) := fun i => by omega
    simp only [mapPages, if_neg (hnone _)]
  | succ count ih =>
    have hpage := hidx b (by omega)
    have hroom : ¬ (first + b) / 512 ≥ 128 := by omega
    have hrest := ih (b + 1) (update entries (first + b) ((pages + b * 0x1000) ||| 7))
      (fun k hk => hidx k (by omega)) (by omega)
    simp only [mapPages, hpage, tableCount_eq, if_neg hroom, table_entry, hrest, Prod.mk.injEq, true_and]
    funext i
    by_cases hi : i = first + b
    · have hout : ¬ (first + (b + 1) ≤ i ∧ i < first + (b + 1 + count)) := by omega
      have hin : first + b ≤ i ∧ i < first + (b + (count + 1)) := by omega
      rw [if_neg hout, if_pos hin, hi, update_self, Nat.add_sub_cancel_left]
    · rw [update_of_ne hi]
      have hiff : (first + (b + 1) ≤ i ∧ i < first + (b + 1 + count)) ↔
          (first + b ≤ i ∧ i < first + (b + (count + 1))) := by omega
      simp only [hiff]

lemma unmapPages_eq {first : Nat} (count : Nat) (entries : Nat → Nat)
    (hidx : ∀ k, k < count → pageIndex base (va + k * 0x1000) = first + k) (htab : first + count ≤ 65536) (i : Nat) :
    unmapPages base va count entries i = if first ≤ i ∧ i < first + count then 0 else entries i := by
  induction count with
  | zero =>
    have hnone : ¬ (first ≤ i ∧ i < first + 0) := by omega
    rw [if_neg hnone]
    rfl
  | succ count ih =>
    have hpage := hidx count (Nat.lt_succ_self _)
    have hroom : (first + count) / 512 < 128 := by omega
    have hrest := ih (fun k hk => hidx k (by omega)) (by omega)
    have hclear : ∀ e, clearEntry base (va + count * 0x1000) e = update e (first + count) 0 := fun e => by
      simp only [clearEntry, hpage, tableCount_eq, if_pos hroom, table_entry]
    have hstep : unmapPages base va (count + 1) entries =
        update (unmapPages base va count entries) (first + count) 0 := by
      rw [unmapPages, range_succ, foldl_append, foldl_cons, foldl_nil, hclear]
      rfl
    rw [hstep]
    by_cases hi : i = first + count
    · have hin : first ≤ i ∧ i < first + (count + 1) := by omega
      rw [if_pos hin, hi, update_self]
    · have hiff : (first ≤ i ∧ i < first + count) ↔ (first ≤ i ∧ i < first + (count + 1)) := by
        omega
      rw [update_of_ne hi, hrest]
      simp only [hiff]

end

/-! ### One batch -/

lemma kmalloc_spec (results : Nat → Nat) (env : HeapEnv) (size : Nat) {p : Nat} {env' : HeapEnv}
    (h : env.kmalloc results size = (p, env')) : env'.memory = env.memory ∧ env'.freed = env.freed ∧
      (p = 0 → env'.allocated = env.allocated) ∧ (p ≠ 0 → env'.allocated = env.allocated ++ [(p, size)]) := by
  cases h
  exact ⟨rfl, rfl, fun h => if_pos h, fun h => if_neg h⟩

lemma half_spec {batch : Nat} (h : 0x1000 < batch) :
    let next := if batch / 2 / 4096 * 4096 < 0x1000 then 0x1000 else batch / 2 / 4096 * 4096
    next % 0x1000 = 0 ∧ 0 < next ∧ next ≤ batch := by
  intro next
  by_cases hh : batch / 2 / 4096 * 4096 < 0x1000
  · have : next = 0x1000 := if_pos hh
    omega
  · have : next = batch / 2 / 4096 * 4096 := if_neg hh
    omega

/-- What asking for a batch can do: it leaves memory and the free list alone, and hands out one block
for a batch of whole pages that is no larger than the one asked for, or none. -/
lemma takeBatch_spec (results : Nat → Nat) (chunkCount fuel : Nat) :
    ∀ (batch : Nat) (env : HeapEnv), batch % 0x1000 = 0 → 0 < batch →
      (∃ env', takeBatch results chunkCount fuel batch env = (none, env') ∧
        env'.memory = env.memory ∧ env'.allocated = env.allocated ∧ env'.freed = env.freed) ∨
      ∃ p n env', takeBatch results chunkCount fuel batch env = (some (p, n), env') ∧
        n % 0x1000 = 0 ∧ 0 < n ∧ n ≤ batch ∧ env'.memory = env.memory ∧
        env'.allocated = env.allocated ++ [(p, n + 0x1000)] ∧ env'.freed = env.freed := by
  induction fuel with
  | zero => exact fun batch env _ _ => .inl ⟨env, rfl, rfl, rfl, rfl⟩
  | succ fuel ih =>
    intro batch env hbatch hpos
    rw [takeBatch]
    by_cases hc : chunkCount ≥ PROCESS_HEAP_MAX_CHUNKS
    · rw [if_pos hc]
      exact .inl ⟨env, rfl, rfl, rfl, rfl⟩
    rcases hk : env.kmalloc results (batch + 0x1000) with ⟨a, env1⟩
    obtain ⟨hm, hf, hnone, hsome⟩ := kmalloc_spec results env _ hk
    rw [if_neg hc]
    dsimp only
    by_cases hp : a ≠ 0
    · rw [if_pos hp]
      exact .inr ⟨a, batch, env1, rfl, hbatch, hpos, le_refl _, hm, hsome hp, hf⟩
    have ha := hnone (not_not.mp hp)
    rw [if_neg hp]
    by_cases hsmall : batch ≤ 0x1000
    · rw [if_pos hsmall]
      exact .inl ⟨env1, rfl, hm, ha, hf⟩
    rw [if_neg hsmall]
    obtain ⟨h1, h2, h3⟩ := half_spec (not_le.mp hsmall)
    rcases ih _ env1 h1 h2 with ⟨env', h, hm', ha', hf'⟩ | ⟨p, n, env', h, hn, hn0, hle, hm', ha', hf'⟩
    · exact .inl ⟨env', h, hm'.trans hm, ha'.trans ha, hf'.trans hf⟩
    · exact .inr ⟨p, n, env', h, hn, hn0, hle.trans h3, hm'.trans hm, by rw [ha', ha], hf'.trans hf⟩

/-! ### The state between two rounds -/

/-- The frames of the batches, in the order in which they are mapped. -/
def frames (bs : List (Nat × Nat)) : List Nat :=
  bs.flatMap fun b => (List.range (b.2 / 0x1000)).map fun k => alignUpPage b.1 + k * 0x1000

lemma frames_append (bs : List (Nat × Nat)) (p n : Nat) : frames (bs ++ [(p, n)]) =
      frames bs ++ (List.range (n / 0x1000)).map fun k => alignUpPage p + k * 0x1000 := by
  simp [frames]

/-- Compared with the start `g0`, the batches `bs` are recorded and zeroed, and their frames are
mapped from the page `first` on. -/
structure Batches (g0 : Grow) (first : Nat) (bs : List (Nat × Nat)) (g : Grow) : Prop where
  whole : ∀ b ∈ bs, b.2 % 0x1000 = 0
  count : g.chunkCount = g0.chunkCount + bs.length
  chunks : ∀ c, g.chunks c =
    if g0.chunkCount ≤ c ∧ c < g0.chunkCount + bs.length then (bs.getD (c - g0.chunkCount) (0, 0)).1
    else g0.chunks c
  entries : ∀ i, g.entries i = if first ≤ i ∧ i < first + (frames bs).length then (frames bs).getD (i - first) 0 ||| 7
    else g0.entries i
  allocated : g.env.allocated = g0.env.allocated ++ bs.map fun b => (b.1, b.2 + 0x1000)
  freed : g.env.freed = g0.env.freed
  zero : ∀ f ∈ frames bs, ∀ k < 0x1000, g.env.memory (f + k) = 0

section loop

variable {g0 g : Grow} {first : Nat} {bs : List (Nat × Nat)}

lemma Batches.start (g : Grow) (first : Nat) : Batches g first [] g where
  whole := forall_mem_nil _
  count := rfl
  chunks c := by rw [if_neg (by simp)]
  entries i := by rw [if_neg (by simp [frames])]
  allocated := by simp
  freed := rfl
  zero := fun f hf => by simp [frames] at hf

lemma Batches.failed (h : Batches g0 first bs g) {env : HeapEnv}
    (hm : env.memory = g.env.memory) (ha : env.allocated = g.env.allocated)
    (hf : env.freed = g.env.freed) : Batches g0 first bs { g with env := env } :=
  { h with
    allocated := ha.trans h.allocated, freed := hf.trans h.freed, zero := fun f hf k hk => by
      rw [hm]
      exact h.zero f hf k hk }

lemma Batches.push (h : Batches g0 first bs g) {p n : Nat} {env : HeapEnv} {entries : Nat → Nat}
    (hn : n % 0x1000 = 0) (hm : env.memory = g.env.memory)
    (ha : env.allocated = g.env.allocated ++ [(p, n + 0x1000)]) (hf : env.freed = g.env.freed) (he : ∀ i, entries i =
      if first + (frames bs).length ≤ i ∧ i < first + (frames bs).length + n / 0x1000 then
        (alignUpPage p + (i - (first + (frames bs).length)) * 0x1000) ||| 7 else g.entries i) :
    Batches g0 first (bs ++ [(p, n)])
      { chunks := update g.chunks g.chunkCount p, chunkCount := g.chunkCount + 1
        entries := entries, env := env.memoryZero (alignUpPage p) n } where
  whole b hb := by
    rcases mem_append.mp hb with hb | hb
    · exact h.whole b hb
    · rw [mem_singleton.mp hb]
      exact hn
  count := by
    rw [length_append, h.count]
    exact Nat.add_assoc ..
  chunks c := by
    have hlen : (bs ++ [(p, n)]).length = bs.length + 1 := by simp
    dsimp only
    rw [hlen, h.count]
    by_cases hc : c = g0.chunkCount + bs.length
    · rw [hc, update_self, if_pos (by omega), Nat.add_sub_cancel_left]
      simp
    · rw [update_of_ne hc, h.chunks]
      by_cases hin : g0.chunkCount ≤ c ∧ c < g0.chunkCount + bs.length
      · rw [if_pos hin, if_pos (by omega), getD_append _ _ _ _ (by omega)]
      · rw [if_neg hin, if_neg (by omega)]
  entries i := by
    dsimp only
    rw [he, frames_append, length_append, length_map, length_range, h.entries]
    by_cases hnew : first + (frames bs).length ≤ i ∧ i < first + (frames bs).length + n / 0x1000
    · rw [if_pos hnew, if_pos (by omega), getD_append_right _ _ _ _ (by omega)]
      have hk : i - first - (frames bs).length < n / 0x1000 := by omega
      rw [getD_eq_getElem _ _ (by simpa using hk)]
      simp only [getElem_map, getElem_range]
      rw [Nat.sub_add_eq]
    · rw [if_neg hnew]
      by_cases hold : first ≤ i ∧ i < first + (frames bs).length
      · rw [if_pos hold, if_pos (by omega), getD_append _ _ _ _ (by omega)]
      · rw [if_neg hold, if_neg (by omega)]
  allocated := by
    dsimp only [HeapEnv.memoryZero]
    rw [ha, h.allocated]
    simp
  freed := hf.trans h.freed
  zero f hmem k hk := by
    dsimp only [HeapEnv.memoryZero]
    rw [frames_append] at hmem
    rcases mem_append.mp hmem with hmem | hmem
    · rw [hm, h.zero f hmem k hk]
      exact ite_self _
    · obtain ⟨j, hj, rfl⟩ := mem_map.mp hmem
      have hj := mem_range.mp hj
      rw [if_pos (by omega)]

variable {base oldPageEnd mapSize : Nat}

/-- The loop keeps the description; it ends with everything mapped, or it failed before. -/
lemma growLoop_batches (g0 : Grow) (results : Nat → Nat) (hb : base ≤ oldPageEnd)
    (hfirst : oldPageEnd - base = 0x1000 * first) (hsize : mapSize % 0x1000 = 0)
    (htab : first + mapSize / 0x1000 ≤ 65536) (hlt : oldPageEnd + mapSize < 2 ^ 64) (fuel : Nat) :
    ∀ (bs : List (Nat × Nat)) (g : Grow) (mapped : Nat), mapped = 0x1000 * (frames bs).length →
      mapped ≤ mapSize → (mapSize - mapped) / 0x1000 < fuel → Batches g0 first bs g →
      ∃ ok bs' g', growLoop results base oldPageEnd mapSize fuel mapped g = (ok, g') ∧
        Batches g0 first bs' g' ∧ 0x1000 * (frames bs').length ≤ mapSize ∧
        (ok → 0x1000 * (frames bs').length = mapSize) := by
  induction fuel with
  | zero =>
    intro bs g mapped _ _ hfuel _
    exact absurd hfuel (Nat.not_lt_zero _)
  | succ fuel ih =>
    intro bs g mapped hmapped hle hfuel h
    rw [growLoop]
    by_cases hmore : mapped < mapSize
    · rw [if_pos hmore]
      rcases takeBatch_spec results g.chunkCount ((mapSize - mapped) / 0x1000) (mapSize - mapped) g.env (by omega) (by
        omega) with ⟨env, htake, hm, ha, hf⟩ | ⟨p, n, env, htake, hn, hn0, hle', hm, ha, hf⟩
      · rw [htake]
        exact ⟨false, bs, _, rfl, h.failed hm ha hf, by omega, fun h => nomatch h⟩
      · have hidx : ∀ k, k < 0 + n / 0x1000 → pageIndex base (oldPageEnd + mapped + k * 0x1000) =
            first + (frames bs).length + k := fun k hk => by
          rw [pageIndex_add (by omega) (by omega)]
          omega
        have hmap := mapPages_eq (alignUpPage p) (n / 0x1000) 0 g.entries hidx (by omega)
        rw [htake]
        dsimp only
        rw [hmap]
        have hlen : (frames (bs ++ [(p, n)])).length = (frames bs).length + n / 0x1000 := by
          rw [frames_append, length_append, length_map, length_range]
        refine ih (bs ++ [(p, n)]) _ (mapped + n) ?_ (by omega) (by omega) (h.push hn hm ha hf fun i => ?_)
        · omega
        · rw [add_zero, zero_add]
    · rw [if_neg hmore]
      exact ⟨true, bs, g, rfl, h, by omega, fun _ => by omega⟩

/-! ### Undoing -/

lemma freeChunks_eq (count c : Nat) (g : Grow) :
    (freeChunks count c g).chunks = (fun i => if c ≤ i ∧ i < c + count then 0 else g.chunks i) ∧
      (freeChunks count c g).entries = g.entries ∧ (freeChunks count c g).env.allocated = g.env.allocated ∧
      (freeChunks count c g).env.freed = g.env.freed ++ (List.range count).map fun j => g.chunks (c + j) := by
  induction count generalizing c g with
  | zero =>
    refine ⟨?_, rfl, rfl, ?_⟩
    · funext i
      rw [if_neg (by omega)]
      rfl
    · simp [freeChunks]
  | succ count ih =>
    obtain ⟨h1, h2, h3, h4⟩ := ih (c + 1)
      { g with chunks := update g.chunks c 0, env := g.env.kfree (g.chunks c) }
    rw [freeChunks]
    refine ⟨?_, h2, h3, ?_⟩
    · rw [h1]
      funext i
      by_cases hi : i = c
      · rw [hi, if_neg (by omega), if_pos (by omega)]
        exact update_self ..
      · by_cases hin : c + 1 ≤ i ∧ i < c + 1 + count
        · rw [if_pos hin, if_pos (by omega)]
        · rw [if_neg hin, if_neg (by omega)]
          exact update_of_ne hi ..
    · rw [h4, range_succ_eq_map, map_cons, map_map]
      simp only [HeapEnv.kfree, append_assoc, singleton_append]
      congr 2
      refine map_congr_left fun j _ => ?_
      rw [update_of_ne (by omega), comp_apply]
      congr 1
      omega

/-- Undoing a growth that failed puts the entries, the count and the recorded chunks back, and has
freed every block that was handed out. -/
lemma undo_eq (hb : base ≤ oldPageEnd)
    (hfirst : oldPageEnd - base = 0x1000 * first) (htab : first + mapSize / 0x1000 ≤ 65536)
    (hlt : oldPageEnd + mapSize < 2 ^ 64) (h : Batches g0 first bs g) (hlen : 0x1000 * (frames bs).length ≤ mapSize)
    (hzero : ∀ i, first ≤ i → i < first + mapSize / 0x1000 → g0.entries i = 0) :
    let g' := undo base oldPageEnd mapSize g0.chunkCount g
    g'.entries = g0.entries ∧ g'.chunkCount = g0.chunkCount ∧ (∀ c < g0.chunkCount, g'.chunks c = g0.chunks c) ∧
      g'.env.allocated = g0.env.allocated ++ bs.map (fun b => (b.1, b.2 + 0x1000)) ∧
      g'.env.freed = g0.env.freed ++ bs.map Prod.fst := by
  have hcount : g.chunkCount - g0.chunkCount = bs.length := by
    rw [h.count]
    omega
  obtain ⟨h1, h2, h3, h4⟩ := freeChunks_eq bs.length g0.chunkCount
    { g with entries := unmapPages base oldPageEnd (mapSize / 0x1000) g.entries }
  intro g'
  have hg' : g' = { freeChunks bs.length g0.chunkCount
      { g with entries := unmapPages base oldPageEnd (mapSize / 0x1000) g.entries } with
      chunkCount := g0.chunkCount } := by
    change undo base oldPageEnd mapSize g0.chunkCount g = _
    rw [undo]
    rw [hcount]
  rw [hg']
  refine ⟨?_, rfl, fun c hc => ?_, ?_, ?_⟩
  · rw [h2]
    dsimp only
    have hidx : ∀ k, k < mapSize / 0x1000 → pageIndex base (oldPageEnd + k * 0x1000) = first + k :=
      fun k hk => by
        rw [pageIndex_add hb (by omega)]
        omega
    funext i
    rw [unmapPages_eq (mapSize / 0x1000) g.entries hidx htab]
    by_cases hin : first ≤ i ∧ i < first + mapSize / 0x1000
    · rw [if_pos hin, hzero i hin.1 hin.2]
    · have hout : ¬ (first ≤ i ∧ i < first + (frames bs).length) := by omega
      rw [if_neg hin, h.entries, if_neg hout]
  · rw [h1]
    dsimp only
    rw [if_neg (by omega), h.chunks, if_neg (by omega)]
  · exact h3.trans h.allocated
  · refine h4.trans ?_
    rw [h.freed]
    congr 1
    refine ext_getElem (by simp) fun j hj _ => ?_
    have hj : j < bs.length := by simpa using hj
    simp only [getElem_map, getElem_range]
    rw [h.chunks, if_pos (by omega), Nat.add_sub_cancel_left, getD_eq_getElem _ _ hj]

end loop

/-! ### Frames -/

/-- The blocks lie in the address space and do not overlap. -/
def GoodBlocks (blocks : List (Nat × Nat)) : Prop :=
  (∀ b ∈ blocks, b.1 + b.2 ≤ 2 ^ 64) ∧ blocks.Pairwise fun a b => a.1 + a.2 ≤ b.1 ∨ b.1 + b.2 ≤ a.1

section frames

variable {bs : List (Nat × Nat)}

lemma frame_inside {b : Nat × Nat} (hfit : b.1 + (b.2 + 0x1000) ≤ 2 ^ 64) (hwhole : b.2 % 0x1000 = 0)
    {f : Nat} (hf : f ∈ (List.range (b.2 / 0x1000)).map fun k => alignUpPage b.1 + k * 0x1000) :
    b.1 ≤ f ∧ f + 0x1000 ≤ b.1 + (b.2 + 0x1000) ∧ f % 0x1000 = 0 := by
  obtain ⟨k, hk, rfl⟩ := mem_map.mp hf
  have hk := mem_range.mp hk
  obtain ⟨h1, h2, h3⟩ := alignUpPage_spec (v := b.1) (by omega)
  rw [Nat.mul_comm k, ← Nat.add_assoc b.1]
  have hend : alignUpPage b.1 + 0x1000 * k ≤ b.1 + b.2 := by omega
  exact ⟨by omega, Nat.add_le_add_right hend _, by omega⟩

lemma GoodBlocks.fit (h : GoodBlocks (bs.map fun b => (b.1, b.2 + 0x1000))) :
    ∀ b ∈ bs, b.1 + (b.2 + 0x1000) ≤ 2 ^ 64 := fun b hb =>
  h.1 _ (mem_map.mpr ⟨b, hb, rfl⟩)

lemma frames_nodup (hwhole : ∀ b ∈ bs, b.2 % 0x1000 = 0)
    (hgood : GoodBlocks (bs.map fun b => (b.1, b.2 + 0x1000))) : (frames bs).Nodup := by
  have hfit := hgood.fit
  have hdisj := pairwise_map.mp hgood.2
  refine nodup_flatMap.mpr ⟨fun b _ => ?_, ?_⟩
  · refine List.Nodup.map (fun k l hkl => ?_) nodup_range
    omega
  · refine hdisj.imp_of_mem fun {a b} ha hb hab => ?_
    intro f hfa hfb
    obtain ⟨h1, h2, -⟩ := frame_inside (hfit a ha) (hwhole a ha) hfa
    obtain ⟨h3, h4, -⟩ := frame_inside (hfit b hb) (hwhole b hb) hfb
    omega

end frames

/-! ### All or nothing -/

/-- A process as it is between calls: loaded at `PROCESS_USER_BASE` if it has a heap, its break
between the image and the stack, and nothing mapped from the page behind the break up to the stack.
The logs of the allocator start empty. -/
structure Ready (s : SbrkState) (o : ProcSlot) : Prop where
  base_eq : (s.processes o).heapStart ≠ 0 → (s.processes o).userVirtualBase = PROCESS_USER_BASE
  break_ge : (s.processes o).heapStart ≠ 0 → PROCESS_USER_BASE ≤ (s.processes o).heapBreak
  break_le : (s.processes o).heapBreak ≤ PROCESS_USER_BASE + PROCESS_USER_IMAGE_SIZE
  zero : ∀ i, pageIndex PROCESS_USER_BASE (alignUpPage (s.processes o).heapBreak) ≤ i →
    i < PROCESS_USER_IMAGE_SIZE / 0x1000 → s.tables (s.processes o).userPageTables i = 0
  allocated : s.env.allocated = []
  freed : s.env.freed = []

/-- Entry `i` of the owner maps a zeroed page of a chunk that was recorded during the call. -/
structure Backed (s s' : SbrkState) (o : ProcSlot) (i frame : Nat) : Prop where
  entry : s'.tables (s.processes o).userPageTables i = frame ||| 7
  aligned : frame % 0x1000 = 0
  zero : ∀ k < 0x1000, s'.env.memory (frame + k) = 0
  chunk : ∃ c size, (s.processes o).heapChunkCount ≤ c ∧ c < (s'.processes o).heapChunkCount ∧
    ((s'.processes o).heapChunks c, size) ∈ s'.env.allocated ∧
    (s'.processes o).heapChunks c ≤ frame ∧ frame + 0x1000 ≤ (s'.processes o).heapChunks c + size

/-- The break has grown by `increment`, every page between the rounded breaks has a frame of its own,
and no other entry and no earlier chunk record has changed. -/
structure Grown (s s' : SbrkState) (o : ProcSlot) (increment : Nat) : Prop where
  break_eq : (s'.processes o).heapBreak = (s.processes o).heapBreak + increment
  break_le : (s'.processes o).heapBreak ≤ PROCESS_USER_BASE + PROCESS_USER_IMAGE_SIZE
  pages : ∃ frame : Nat → Nat, (∀ i, pageIndex PROCESS_USER_BASE (alignUpPage (s.processes o).heapBreak) ≤ i →
      i < pageIndex PROCESS_USER_BASE (alignUpPage (s'.processes o).heapBreak) →
      Backed s s' o i (frame i)) ∧
    ∀ i j, pageIndex PROCESS_USER_BASE (alignUpPage (s.processes o).heapBreak) ≤ i →
      i < pageIndex PROCESS_USER_BASE (alignUpPage (s'.processes o).heapBreak) →
      pageIndex PROCESS_USER_BASE (alignUpPage (s.processes o).heapBreak) ≤ j →
      j < pageIndex PROCESS_USER_BASE (alignUpPage (s'.processes o).heapBreak) →
      frame i = frame j → i = j
  others : ∀ t i, ¬ (t = (s.processes o).userPageTables ∧
    pageIndex PROCESS_USER_BASE (alignUpPage (s.processes o).heapBreak) ≤ i ∧
    i < pageIndex PROCESS_USER_BASE (alignUpPage (s'.processes o).heapBreak)) →
    s'.tables t i = s.tables t i
  chunks : ∀ c < (s.processes o).heapChunkCount, (s'.processes o).heapChunks c = (s.processes o).heapChunks c

/-- Page tables, heap bounds and recorded chunks are as before, and every block handed out during the
call has been freed, once. -/
structure Unchanged (s s' : SbrkState) : Prop where
  tables : s'.tables = s.tables
  bounds : ∀ q, (s'.processes q).heapStart = (s.processes q).heapStart ∧
    (s'.processes q).heapBreak = (s.processes q).heapBreak ∧
    (s'.processes q).heapChunkCount = (s.processes q).heapChunkCount
  chunks : ∀ q, ∀ c < (s.processes q).heapChunkCount, (s'.processes q).heapChunks c = (s.processes q).heapChunks c
  freed : s'.env.freed = s'.env.allocated.map Prod.fst

variable {increment newBreak : Nat}

section call

variable {s : SbrkState} {p o : ProcSlot}

lemma Unchanged.refl (h : Ready s o) : Unchanged s s where
  tables := rfl
  bounds _ := ⟨rfl, rfl, rfl⟩
  chunks _ _ _ := rfl
  freed := by rw [h.allocated, h.freed]; rfl

lemma Grown.of_same_page {s' : SbrkState} (htab : s'.tables = s.tables)
    (hbreak : (s'.processes o).heapBreak = (s.processes o).heapBreak + increment)
    (hle : (s'.processes o).heapBreak ≤ PROCESS_USER_BASE + PROCESS_USER_IMAGE_SIZE)
    (hchunks : (s'.processes o).heapChunks = (s.processes o).heapChunks)
    (hpage : alignUpPage (s'.processes o).heapBreak = alignUpPage (s.processes o).heapBreak) :
    Grown s s' o increment where
  break_eq := hbreak
  break_le := hle
  pages := by
    refine ⟨fun _ => 0, fun i h1 h2 => ?_, fun i j h1 h2 _ _ _ => ?_⟩
    all_goals
      rw [hpage] at h2
      exact absurd h2 (not_lt.mpr h1)
  others t i _ := by rw [htab]
  chunks c _ := by rw [hchunks]

lemma processes_copyBreak_self (s : SbrkState) (p o : ProcSlot) : (s.copyBreak p o).processes o = s.processes o := by
  rw [SbrkState.copyBreak]
  split_ifs with h
  · rfl
  · exact update_of_ne (Ne.symm h) ..

lemma copyBreak_rest (s : SbrkState) (p o : ProcSlot) :
    (s.copyBreak p o).tables = s.tables ∧ (s.copyBreak p o).env = s.env := by
  rw [SbrkState.copyBreak]
  split_ifs <;> exact ⟨rfl, rfl⟩

lemma processes_grown (s : SbrkState) (p o : ProcSlot) (g : Grow) (newBreak : Nat) :
    (((s.put o g).setBreak o newBreak).copyBreak p o).processes o = { s.processes o with
        heapChunks := g.chunks, heapChunkCount := g.chunkCount, heapBreak := newBreak } := by
  rw [processes_copyBreak_self, SbrkState.setBreak, SbrkState.put]
  simp only [update_self]

lemma grown_of_batches {g : Grow} {bs : List (Nat × Nat)} {first : Nat} (hready : Ready s o)
    (hfirst : first = pageIndex PROCESS_USER_BASE (alignUpPage (s.processes o).heapBreak))
    (hlast : first + (frames bs).length = pageIndex PROCESS_USER_BASE (alignUpPage newBreak))
    (hnew : newBreak = (s.processes o).heapBreak + increment)
    (hle : newBreak ≤ PROCESS_USER_BASE + PROCESS_USER_IMAGE_SIZE)
    (h : Batches ⟨(s.processes o).heapChunks, (s.processes o).heapChunkCount,
      s.tables (s.processes o).userPageTables, s.env⟩ first bs g) (hgood : GoodBlocks g.env.allocated) :
    Grown s (((s.put o g).setBreak o newBreak).copyBreak p o) o increment := by
  have hproc := processes_grown s p o g newBreak
  obtain ⟨htab, henv⟩ := copyBreak_rest ((s.put o g).setBreak o newBreak) p o
  have hentries : ∀ i, (((s.put o g).setBreak o newBreak).copyBreak p o).tables
      (s.processes o).userPageTables i = g.entries i := fun i => by
    rw [htab]
    exact congrFun (update_self ..) i
  have halloc : g.env.allocated = bs.map fun b => (b.1, b.2 + 0x1000) := by
    rw [h.allocated, hready.allocated, nil_append]
  rw [halloc] at hgood
  have hnodup := frames_nodup h.whole hgood
  refine ⟨by rw [hproc, hnew], by rw [hproc]; exact hle, ⟨fun i => (frames bs).getD (i - first) 0, ?_, ?_⟩,
    fun t i hti => ?_, fun c hc => ?_⟩
  · intro i h1 h2
    rw [hproc] at h2
    dsimp only at h2
    have hk : i - first < (frames bs).length := by omega
    have hmem : (frames bs).getD (i - first) 0 ∈ frames bs := by
      rw [getD_eq_getElem _ _ hk]
      exact getElem_mem hk
    obtain ⟨b, hb, hf⟩ := mem_flatMap.mp hmem
    obtain ⟨h3, h4, h5⟩ := frame_inside (hgood.fit b hb) (h.whole b hb) hf
    obtain ⟨j, hj, rfl⟩ := mem_iff_getElem.mp hb
    have hchunk : g.chunks ((s.processes o).heapChunkCount + j) = (bs[j]).1 := by
      rw [h.chunks]
      dsimp only
      rw [if_pos (by omega), Nat.add_sub_cancel_left, getD_eq_getElem _ _ hj]
    refine ⟨?_, h5, ?_, (s.processes o).heapChunkCount + j, (bs[j]).2 + 0x1000, by omega, ?_, ?_, ?_⟩
    · rw [hentries, h.entries, if_pos (by omega)]
    · rw [henv]
      exact h.zero _ hmem
    · rw [hproc]
      rw [h.count]
      dsimp only
      omega
    · rw [hproc, henv]
      dsimp only
      rw [hchunk]
      change _ ∈ g.env.allocated
      rw [halloc]
      exact mem_map.mpr ⟨bs[j], hb, rfl⟩
    · rw [hproc]
      dsimp only
      rw [hchunk]
      exact ⟨h3, h4⟩
  · intro i j hi1 hi2 hj1 hj2 hij
    rw [hproc] at hi2 hj2
    dsimp only at hi2 hj2 hij
    have hik : i - first < (frames bs).length := by omega
    have hjk : j - first < (frames bs).length := by omega
    rw [getD_eq_getElem _ _ hik, getD_eq_getElem _ _ hjk] at hij
    have := (List.Nodup.getElem_inj_iff hnodup).mp hij
    omega
  · rw [hproc] at hti
    rw [← hfirst, ← hlast] at hti
    by_cases ht : t = (s.processes o).userPageTables
    · rw [ht, hentries, h.entries, if_neg (fun hc => hti ⟨ht, hc⟩)]
    · rw [htab]
      exact congrFun (update_of_ne ht ..) i
  · rw [hproc]
    dsimp only
    rw [h.chunks]
    dsimp only
    rw [if_neg (by omega)]

lemma unchanged_of_undone {g : Grow} {bs : List (Nat × Nat)} (hready : Ready s o)
    (hentries : g.entries = s.tables (s.processes o).userPageTables)
    (hcount : g.chunkCount = (s.processes o).heapChunkCount)
    (hchunks : ∀ c < (s.processes o).heapChunkCount, g.chunks c = (s.processes o).heapChunks c)
    (halloc : g.env.allocated = s.env.allocated ++ bs.map fun b => (b.1, b.2 + 0x1000))
    (hfreed : g.env.freed = s.env.freed ++ bs.map Prod.fst) : Unchanged s (s.put o g) where
  tables := by
    rw [SbrkState.put, hentries]
    exact update_eq_self ..
  bounds q := by
    rw [SbrkState.put]
    by_cases hq : q = o
    · subst hq
      simp only [update_self]
      exact ⟨trivial, trivial, hcount⟩
    · simp only [update_of_ne hq]
      exact ⟨trivial, trivial, trivial⟩
  chunks q c hc := by
    rw [SbrkState.put]
    by_cases hq : q = o
    · subst hq
      simp only [update_self]
      exact hchunks c hc
    · simp only [update_of_ne hq]
  freed := by
    change g.env.freed = g.env.allocated.map Prod.fst
    rw [hfreed, halloc, hready.allocated, hready.freed, nil_append, nil_append, map_map]
    rfl

lemma pageIndex_of_le {base va : Nat} (hb : base ≤ va) (hlt : va < 2 ^ 64) :
    pageIndex base va = (va - base) / 0x1000 := by
  have := pageIndex_add hb (b := 0) (by omega)
  simpa using this

/-- Where the pages of a growth lie: behind the old break, from the page `first` on, and below the
stack. -/
lemma growth_range {oldBreak : Nat} (hge : PROCESS_USER_BASE ≤ oldBreak)
    (hle : oldBreak ≤ newBreak) (hlimit : newBreak ≤ PROCESS_USER_BASE + PROCESS_USER_IMAGE_SIZE) :
    let first := pageIndex PROCESS_USER_BASE (alignUpPage oldBreak)
    let mapSize := alignUpPage newBreak - alignUpPage oldBreak
    PROCESS_USER_BASE ≤ alignUpPage oldBreak ∧
      alignUpPage oldBreak - PROCESS_USER_BASE = 0x1000 * first ∧ mapSize % 0x1000 = 0 ∧
      first + mapSize / 0x1000 ≤ 65280 ∧ alignUpPage oldBreak + mapSize < 2 ^ 64 ∧
      first + mapSize / 0x1000 = pageIndex PROCESS_USER_BASE (alignUpPage newBreak) := by
  have hbase : PROCESS_USER_BASE = 536870912 := rfl
  have himage : PROCESS_USER_IMAGE_SIZE = 267386880 := rfl
  obtain ⟨h1, h2, h3⟩ := alignUpPage_spec (v := oldBreak) (by omega)
  obtain ⟨h4, h5, h6⟩ := alignUpPage_spec (v := newBreak) (by omega)
  intro first mapSize
  have hfirst : first = (alignUpPage oldBreak - PROCESS_USER_BASE) / 0x1000 :=
    pageIndex_of_le (by omega) (by omega)
  have hlast : pageIndex PROCESS_USER_BASE (alignUpPage newBreak) =
      (alignUpPage newBreak - PROCESS_USER_BASE) / 0x1000 := pageIndex_of_le (by omega) (by omega)
  refine ⟨by omega, by omega, by omega, by omega, by omega, by omega⟩

lemma growHeap_spec {results : Nat → Nat} (hready : Ready s o)
    (hstart : (s.processes o).heapStart ≠ 0) (hnew : newBreak = (s.processes o).heapBreak + increment)
    (hlimit : newBreak ≤ PROCESS_USER_BASE + PROCESS_USER_IMAGE_SIZE)
    (hgood : GoodBlocks (growHeap results s p o newBreak (alignUpPage (s.processes o).heapBreak)
      (alignUpPage newBreak)).2.env.allocated) :
    let r := growHeap results s p o newBreak (alignUpPage (s.processes o).heapBreak)
      (alignUpPage newBreak)
    (r.1 = (s.processes o).heapBreak ∧ Grown s r.2 o increment) ∨ (r.1 = minusOne ∧ Unchanged s r.2) := by
  obtain ⟨hb, hfirst, hsize, htab, hlt, hlast⟩ := growth_range (hready.break_ge hstart)
    (by omega : (s.processes o).heapBreak ≤ newBreak) hlimit
  intro r
  have hr : r = growHeap results s p o newBreak (alignUpPage (s.processes o).heapBreak) (alignUpPage newBreak) := rfl
  rw [← hr] at hgood
  rw [growHeap, hready.base_eq hstart] at hr
  obtain ⟨ok, bs, g, hloop, hbatch, hlen, hdone⟩ := growLoop_batches ⟨(s.processes o).heapChunks,
    (s.processes o).heapChunkCount, s.tables (s.processes o).userPageTables, s.env⟩ results hb hfirst hsize (by omega)
    hlt ((alignUpPage newBreak - alignUpPage (s.processes o).heapBreak) / 0x1000 + 1) [] _ 0 rfl (Nat.zero_le _) (by
    omega) (Batches.start _ _)
  rw [hloop] at hr
  cases ok with
  | true =>
    left
    rw [hr] at hgood ⊢
    have hframes := hdone rfl
    refine ⟨rfl, grown_of_batches hready rfl (by omega) hnew hlimit hbatch ?_⟩
    rwa [(copyBreak_rest _ p o).2] at hgood
  | false =>
    right
    obtain ⟨h1, h2, h3, h4, h5⟩ := undo_eq hb hfirst (by omega) hlt hbatch hlen
      fun i hi1 hi2 => hready.zero i hi1 (by
        have : PROCESS_USER_IMAGE_SIZE / 0x1000 = 65280 := rfl
        omega)
    rw [hr]
    exact ⟨rfl, unchanged_of_undone hready h1 h2 h3 h4 h5⟩

end call

/-- If `kmalloc` hands out blocks which do not overlap, the call returns the old break and has grown the heap by the
increment, each new page mapping its own zeroed frame inside a chunk recorded then; or it returns `-1`, everything
is as before and every block handed out was freed. -/
theorem sbrk_all_or_nothing (results : Nat → Nat) (s : SbrkState) (p : ProcSlot) (increment : UInt64)
    (hready : Ready s (processAddressSpaceOwner s p))
    (hgood : GoodBlocks (processSbrk results s p increment).2.env.allocated) :
    let o := processAddressSpaceOwner s p
    let r := processSbrk results s p increment
    (r.1 = (s.processes o).heapBreak ∨ r.1 = minusOne) ∧
    (r.1 = (s.processes o).heapBreak → Grown s r.2 o increment.toNat) ∧
    (r.1 = minusOne → Unchanged s r.2) := by
  intro o r
  have hbound : (s.processes o).heapBreak ≤ PROCESS_USER_BASE + PROCESS_USER_IMAGE_SIZE :=
    hready.break_le
  have hbase : PROCESS_USER_BASE = 536870912 := rfl
  have himage : PROCESS_USER_IMAGE_SIZE = 267386880 := rfl
  have hne : (s.processes o).heapBreak ≠ minusOne := by
    rw [minusOne]
    omega
  -- one of the two outcomes, with what it promises
  suffices h : (r.1 = (s.processes o).heapBreak ∧ Grown s r.2 o increment.toNat) ∨ (r.1 = minusOne ∧ Unchanged s r.2) by
    rcases h with ⟨h1, h2⟩ | ⟨h1, h2⟩
    · exact ⟨.inl h1, fun _ => h2, fun h => absurd (h1.symm.trans h) hne⟩
    · exact ⟨.inr h1, fun h => absurd (h.symm.trans h1) hne, fun _ => h2⟩
  have hfail : ∀ {r' : Nat × SbrkState}, r' = (minusOne, s) →
      (r'.1 = (s.processes o).heapBreak ∧ Grown s r'.2 o increment.toNat) ∨ (r'.1 = minusOne ∧ Unchanged s r'.2) := by
    rintro r' rfl
    exact .inr ⟨rfl, Unchanged.refl hready⟩
  have hr : r = processSbrk results s p increment := rfl
  rw [← hr] at hgood
  rw [processSbrk] at hr
  by_cases h1 : (s.processes o).userPageTables = 0 ∨ (s.processes o).heapStart = 0
  · rw [if_pos h1] at hr
    exact hfail hr
  rw [if_neg h1] at hr
  have hstart : (s.processes o).heapStart ≠ 0 := fun h => h1 (.inr h)
  by_cases h2 : increment = 0
  · left
    rw [hr, h2]
    exact ⟨rfl, Grown.of_same_page rfl rfl hbound rfl rfl⟩
  rw [if_neg h2] at hr
  by_cases h3 : increment.toNat ≥ 2 ^ 63
  · rw [if_pos h3] at hr
    exact hfail hr
  rw [if_neg h3] at hr
  by_cases h4 : increment.toNat > 2 ^ 64 - 1 - (s.processes o).heapBreak
  · rw [if_pos h4] at hr
    exact hfail hr
  have hsum : ((s.processes o).heapBreak + increment.toNat) % 2 ^ 64 =
      (s.processes o).heapBreak + increment.toNat := Nat.mod_eq_of_lt (by omega)
  rw [if_neg h4, hsum, hready.base_eq hstart] at hr
  by_cases h5 : (s.processes o).heapBreak + increment.toNat < (s.processes o).heapBreak ∨
      (s.processes o).heapBreak + increment.toNat > PROCESS_USER_BASE + PROCESS_USER_IMAGE_SIZE
  · rw [if_pos h5] at hr
    exact hfail hr
  rw [if_neg h5] at hr
  have hlimit := not_lt.mp fun h => h5 (.inr h)
  by_cases h6 : alignUpPage ((s.processes o).heapBreak + increment.toNat) = alignUpPage (s.processes o).heapBreak
  · rw [if_pos h6] at hr
    left
    have hproc : (s.setBreak o ((s.processes o).heapBreak + increment.toNat)).processes o =
        { s.processes o with heapBreak := (s.processes o).heapBreak + increment.toNat } :=
      update_self ..
    rw [hr]
    exact ⟨rfl, Grown.of_same_page rfl (by rw [hproc]) (by rw [hproc]; exact hlimit) (by rw [hproc])
      (by rw [hproc]; exact h6)⟩
  · rw [if_neg h6] at hr
    rw [hr] at hgood ⊢
    exact growHeap_spec hready hstart rfl hlimit hgood

/-- A process with one page of heap and nothing mapped above it. -/
def onePage : SbrkState where
  processes _ := ⟨true, false, 1, 1, PROCESS_USER_BASE, 536875008, 536879104, fun _ => 0, 0⟩
  tables _ _ := 0
  env := ⟨fun _ => 1, 0, [], []⟩

lemma ready_onePage (o : ProcSlot) : Ready onePage o where
  base_eq _ := rfl
  break_ge _ := (by decide : 536870912 ≤ 536879104)
  break_le := (by decide : 536879104 ≤ PROCESS_USER_BASE + PROCESS_USER_IMAGE_SIZE)
  zero _ _ _ := rfl
  allocated := rfl
  freed := rfl

/-- Two pages are asked for, and `kmalloc` has no block for both: the heap grows by two chunks. -/
theorem sbrk_two_chunks :
    let results := fun call => if call = 1 then 0x100800 else if call = 2 then 0x200000 else 0
    let r := processSbrk results onePage 0 8192
    r.1 = 536879104 ∧ r.2.env.allocated = [(0x100800, 8192), (0x200000, 8192)] ∧ Grown onePage r.2 0 8192 := by
  intro results r
  have hret : r.1 = 536879104 := by decide
  have halloc : r.2.env.allocated = [(0x100800, 8192), (0x200000, 8192)] := by decide
  have hgood : GoodBlocks r.2.env.allocated := by
    refine ⟨by decide, by decide⟩
  exact ⟨hret, halloc, (sbrk_all_or_nothing results onePage 0 8192 (ready_onePage _) hgood).2.1 hret⟩

end VibeOS.Sbrk
