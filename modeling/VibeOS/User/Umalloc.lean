import VibeOS.Lib.Words
import VibeOS.Lib.BlockList

/-!
# The user heap

The allocator of `umalloc.c`: a doubly linked list of all blocks in address order over the memory that
`SYS_SBRK` handed out. The functions work on the bytes of the process; loops run on fuel and return
`none` when it runs out. `Listed` connects the bytes with a list of blocks, and one lemma for each of
`split_block`, `coalesce_forward` and the growth of the heap says what becomes of the list and which
bytes stay. `32` is `sizeof(struct block)`, `16` is `UMALLOC_ALIGN`.

Other names are those of `user/umalloc.c`.
-/

namespace VibeOS

open Buf Blk List

/-- The header of a block.
Source: `struct block` -/
@[ext] structure UBlock where
  size : Nat
  prev : Nat
  next : Nat
  free : Bool

namespace UBlock

variable (mem : Buf)

def load (p : Nat) : UBlock :=
  ⟨mem.getU64 p, mem.getU64 (p + 8), mem.getU64 (p + 16), decide (mem.getU32 (p + 24) ≠ 0)⟩

/-- `b->size = v`. -/
def setSize (p v : Nat) : Buf := mem.putU64 p v

/-- `b->prev = v`. -/
def setPrev (p v : Nat) : Buf := mem.putU64 (p + 8) v

/-- `b->next = v`. -/
def setNext (p v : Nat) : Buf := mem.putU64 (p + 16) v

/-- `b->free = f`. -/
def setFree (p : Nat) (f : Bool) : Buf := mem.putU32 (p + 24) (if f then 1 else 0)

/-- `b->_pad = 0`. -/
def clearPad (p : Nat) : Buf := mem.putU32 (p + 28) 0

end UBlock

open UBlock (load setPrev clearPad)

/-- The memory of the process, the globals of the allocator and the end of the memory that `SYS_SBRK`
handed out.
Source: `g_head`, `g_tail`, `g_used`, `g_capacity` -/
structure UHeap where
  mem : Buf
  head : Nat
  tail : Nat
  used : Nat
  capacity : Nat
  brk : Nat

def alignUp (n : Nat) : Nat := (n + 15) % 2 ^ 64 / 16 * 16

def pageAlign (n : Nat) : Nat := (n + 0xfff) % 2 ^ 64 / 0x1000 * 0x1000

/-- `SYS_SBRK`: the region that starts at the break, or a failure; `avail` says for which break and
size the kernel has memory. -/
def sbrk (avail : Nat → Nat → Bool) (h : UHeap) (bytes : Nat) : Option (Nat × UHeap) :=
  if avail h.brk bytes ∧ h.brk + bytes < 2 ^ 64 then some (h.brk, { h with brk := h.brk + bytes })
  else none

def UHeap.fuel (h : UHeap) : Nat := h.brk + 1

def coalesceForward (h : UHeap) : (fuel b : Nat) → Option UHeap
  | 0, _ => none
  | fuel + 1, b =>
    let e := load h.mem b
    let n := load h.mem e.next
    if e.next ≠ 0 ∧ n.free then
      let mem := UBlock.setNext (UBlock.setSize h.mem b (e.size + (32 + n.size))) b n.next
      coalesceForward
        (if n.next ≠ 0 then { h with mem := setPrev mem n.next b }
        else { h with mem := mem, tail := b }) fuel b
    else some h

def splitBlock (h : UHeap) (b need : Nat) : UHeap :=
  let e := load h.mem b
  if e.size < (need + 32 + 16) % 2 ^ 64 then h
  else
    let rest := b + 32 + need
    let mem1 := UBlock.setSize h.mem rest (e.size + 2 * 2 ^ 64 - need - 32)
    let mem2 := clearPad (UBlock.setFree mem1 rest true) rest
    let mem3 := UBlock.setNext (setPrev mem2 rest b) rest e.next
    let h' := if e.next ≠ 0 then { h with mem := setPrev mem3 e.next rest }
      else { h with mem := mem3, tail := rest }
    { h' with mem := UBlock.setSize (UBlock.setNext h'.mem b rest) b need }

/-- The lines `split_block(b, need); b->free = 0; g_used += b->size;` of `umalloc_nolock` and of
`urealloc_nolock`. -/
def takeBlock (h : UHeap) (b need : Nat) : UHeap :=
  let h1 := splitBlock h b need
  let h2 := { h1 with mem := UBlock.setFree h1.mem b false }
  { h2 with used := (h2.used + (load h2.mem b).size) % 2 ^ 64 }

/-- The part of `grow_heap` that makes a new region the last block. -/
def linkBlock (h : UHeap) (b bytes : Nat) : UHeap :=
  let mem1 := setPrev (UBlock.setSize h.mem b (bytes + 2 ^ 64 - 32)) b h.tail
  let mem2 := clearPad (UBlock.setFree (UBlock.setNext mem1 b 0) b true) b
  let h' := if h.tail ≠ 0 then { h with mem := UBlock.setNext mem2 h.tail b }
    else { h with mem := mem2, head := b }
  { h' with tail := b, capacity := (h.capacity + (load h'.mem b).size) % 2 ^ 64 }

def growHeap (avail : Nat → Nat → Bool) (h : UHeap) (need : Nat) : Option (Bool × UHeap) :=
  let bytes := (need + 32) % 2 ^ 64
  let bytes := pageAlign (if bytes < 64 * 1024 then 64 * 1024 else bytes)
  match sbrk avail h bytes with
  | none => some (false, h)
  | some (b, h) =>
    let h := linkBlock h b bytes
    let prev := (load h.mem b).prev
    if prev ≠ 0 ∧ (load h.mem prev).free then
      (coalesceForward h h.fuel prev).map fun h =>
        (true, if (load h.mem prev).next = 0 then { h with tail := prev } else h)
    else some (true, h)

/-- The search of `umalloc_nolock`; `0` at the end of the list. -/
def findBlock (mem : Buf) (need : Nat) : (fuel b : Nat) → Option Nat
  | 0, _ => none
  | fuel + 1, b =>
    if b = 0 then some 0
    else if (load mem b).free ∧ (load mem b).size ≥ need then some b
    else findBlock mem need fuel (load mem b).next

/-- The outer loop of `umalloc_nolock`. -/
def umallocLoop (avail : Nat → Nat → Bool) (need : Nat) : (fuel : Nat) → UHeap → Option (Nat × UHeap)
  | 0, _ => none
  | fuel + 1, h =>
    (findBlock h.mem need h.fuel h.head).bind fun b =>
      if b ≠ 0 then some (b + 32, takeBlock h b need)
      else
        (growHeap avail h need).bind fun r =>
          if r.1 then umallocLoop avail need fuel r.2 else some (0, r.2)

/-- Source: `umalloc_nolock` -/
def umalloc (avail : Nat → Nat → Bool) (h : UHeap) (size : Nat) : Option (Nat × UHeap) :=
  -- a heap that has grown has room, so the outer loop turns at most twice
  if size = 0 then some (0, h) else umallocLoop avail (alignUp size) 2 h

/-- The header of the block behind a payload.
Source: `block_of` -/
def ublockOf (p : Nat) : Nat := (p + 2 ^ 64 - 32) % 2 ^ 64

/-- Source: `ufree_nolock` -/
def ufree (h : UHeap) (ptr : Nat) : Option UHeap :=
  if ptr = 0 then some h
  else
    let b := ublockOf ptr
    if (load h.mem b).free then some h
    else
      let h1 := { h with
        mem := UBlock.setFree h.mem b true
        used := (h.used + 2 ^ 64 - (load h.mem b).size) % 2 ^ 64 }
      (coalesceForward h1 h.fuel b).bind fun h2 =>
        let prev := (load h2.mem b).prev
        if prev ≠ 0 ∧ (load h2.mem prev).free then coalesceForward h2 h.fuel prev else some h2

/-- The copy loop of `urealloc_nolock`, byte by byte. -/
def ucopy (mem : Buf) (src dst : Nat) : (n : Nat) → Buf
  | 0 => mem
  | n + 1 => Function.update (ucopy mem src dst n) (dst + n) (ucopy mem src dst n (src + n))

/-- Source: `urealloc_nolock` -/
def urealloc (avail : Nat → Nat → Bool) (h : UHeap) (ptr size : Nat) : Option (Nat × UHeap) :=
  if ptr = 0 then umalloc avail h size
  else if size = 0 then (ufree h ptr).map fun h => (0, h)
  else
    let b := ublockOf ptr
    let need := alignUp size
    let e := load h.mem b
    if e.size ≥ need then some (ptr, h)
    else if e.next ≠ 0 ∧ (load h.mem e.next).free ∧ (e.size + 32 + (load h.mem e.next).size) % 2 ^ 64 ≥ need then
      (coalesceForward { h with used := (h.used + 2 ^ 64 - e.size) % 2 ^ 64 } h.fuel b).map fun h =>
        (b + 32, takeBlock h b need)
    else
      (umalloc avail h size).bind fun r =>
        if r.1 = 0 then some (0, r.2)
        else
          let mem := ucopy r.2.mem ptr r.1 (min (load r.2.mem b).size need)
          (ufree { r.2 with mem := mem } ptr).map fun h => (r.1, h)

/-! ### Headers -/

namespace UBlock

section headers

variable {mem mem' : Buf} {p r v i size prev next need : Nat} {f : Bool}

lemma load_congr (h : ∀ i, p ≤ i → i < p + 32 → mem i = mem' i) : load mem p = load mem' p := by
  have h0 : mem.getU64 p = mem'.getU64 p := getU64_congr fun k hk => h _ (by omega) (by omega)
  have h1 : mem.getU64 (p + 8) = mem'.getU64 (p + 8) :=
    getU64_congr fun k hk => h _ (by omega) (by omega)
  have h2 : mem.getU64 (p + 16) = mem'.getU64 (p + 16) :=
    getU64_congr fun k hk => h _ (by omega) (by omega)
  have h3 : mem.getU32 (p + 24) = mem'.getU32 (p + 24) :=
    getU32_congr fun k hk => h _ (by omega) (by omega)
  rw [load, load, h0, h1, h2, h3]

section

variable (h : ¬ (p ≤ i ∧ i < p + 32))

include h

lemma setSize_of_not_mem : setSize mem p v i = mem i :=
  putU64_of_not_mem (by omega)

lemma setPrev_of_not_mem : setPrev mem p v i = mem i :=
  putU64_of_not_mem (by omega)

lemma setNext_of_not_mem : setNext mem p v i = mem i :=
  putU64_of_not_mem (by omega)

lemma setFree_of_not_mem : setFree mem p f i = mem i :=
  blit_of_not_mem (by omega)

lemma clearPad_of_not_mem : clearPad mem p i = mem i :=
  blit_of_not_mem (by omega)

end

@[simp] lemma load_setSize : load (setSize mem p v) p = { load mem p with size := v % 2 ^ 64 } := by
  rw [load, setSize, getU64_putU64, getU64_putU64_apart (by omega), getU64_putU64_apart (by omega),
    getU32_putU64_apart (by omega), load]

@[simp] lemma load_setPrev : load (setPrev mem p v) p = { load mem p with prev := v % 2 ^ 64 } := by
  rw [load, setPrev, getU64_putU64, getU64_putU64_apart (by omega), getU64_putU64_apart (by omega),
    getU32_putU64_apart (by omega), load]

@[simp] lemma load_setNext : load (setNext mem p v) p = { load mem p with next := v % 2 ^ 64 } := by
  rw [load, setNext, getU64_putU64, getU64_putU64_apart (by omega), getU64_putU64_apart (by omega),
    getU32_putU64_apart (by omega), load]

@[simp] lemma load_setFree : load (setFree mem p f) p = { load mem p with free := f } := by
  rw [load, setFree, getU32_putU32, getU64_putU32_apart (by omega), getU64_putU32_apart (by omega),
    getU64_putU32_apart (by omega), load]
  cases f <;> rfl

@[simp] lemma load_clearPad : load (clearPad mem p) p = load mem p := by
  rw [load, clearPad, getU64_putU32_apart (by omega), getU64_putU32_apart (by omega),
    getU64_putU32_apart (by omega), getU32_putU32_of_ne (by omega), load]

lemma load_of_outside {lo hi : Nat} (h : ∀ i, ¬ (lo ≤ i ∧ i < hi) → mem' i = mem i)
    (hp : p + 32 ≤ lo ∨ hi ≤ p) : load mem' p = load mem p :=
  load_congr fun i h1 h2 => h i (by omega)

section

variable (h : r + 32 ≤ p ∨ p + 32 ≤ r)

include h

lemma load_setSize_of_ne : load (setSize mem p v) r = load mem r :=
  load_of_outside (fun _ hi => setSize_of_not_mem hi) h

lemma load_setPrev_of_ne : load (setPrev mem p v) r = load mem r :=
  load_of_outside (fun _ hi => setPrev_of_not_mem hi) h

lemma load_setNext_of_ne : load (setNext mem p v) r = load mem r :=
  load_of_outside (fun _ hi => setNext_of_not_mem hi) h

lemma load_setFree_of_ne : load (setFree mem p f) r = load mem r :=
  load_of_outside (fun _ hi => setFree_of_not_mem hi) h

end

lemma load_last (h : prev < 2 ^ 64) :
    load (clearPad (setFree (setNext (setPrev (setSize mem p size) p prev) p 0) p true) p) p =
      ⟨size % 2 ^ 64, prev, 0, true⟩ := by
  rw [load_clearPad, load_setFree, load_setNext, load_setPrev, load_setSize, Nat.mod_eq_of_lt h]
  rfl

def fresh (mem : Buf) (p size prev next : Nat) : Buf :=
  setNext (setPrev (clearPad (setFree (setSize mem p size) p true) p) p prev) p next

lemma load_fresh (h1 : prev < 2 ^ 64) (h2 : next < 2 ^ 64) :
    load (fresh mem p size prev next) p = ⟨size % 2 ^ 64, prev, next, true⟩ := by
  rw [fresh, load_setNext, load_setPrev, load_clearPad, load_setFree, load_setSize,
    Nat.mod_eq_of_lt h1, Nat.mod_eq_of_lt h2]

lemma fresh_of_not_mem (h : ¬ (p ≤ i ∧ i < p + 32)) : fresh mem p size prev next i = mem i := by
  rw [fresh, setNext_of_not_mem h, setPrev_of_not_mem h, clearPad_of_not_mem h, setFree_of_not_mem h,
    setSize_of_not_mem h]

lemma load_fresh_of_ne (h : r + 32 ≤ p ∨ p + 32 ≤ r) : load (fresh mem p size prev next) r = load mem r :=
  load_of_outside (fun _ hi => fresh_of_not_mem hi) h

end headers

end UBlock

/-! ### The list in memory -/

/-- The blocks `l` stand one after the other from `a`, each with its neighbours' addresses; `q` comes
before them and `z` after them. -/
def DLinks (mem : Buf) : (q a : Nat) → List Blk → (z : Nat) → Prop
  | _, _, [], _ => True
  | q, a, b :: l, z => load mem a = ⟨b.size, q, if l = [] then z else a + 32 + b.size, b.free⟩ ∧
      DLinks mem a (a + 32 + b.size) l z

/-- The address of the last block, or `q`. -/
def lastBlock : (q a : Nat) → List Blk → Nat
  | q, _, [] => q
  | _, a, b :: l => lastBlock a (a + 32 + b.size) l

section links

variable {mem mem' : Buf} {q a z size need : Nat} {b : Blk} {l l1 l2 k m : List Blk}

@[simp] lemma lastBlock_append : lastBlock q a (l1 ++ l2) = lastBlock (lastBlock q a l1) (a + extent 32 l1) l2 := by
  induction l1 generalizing q a with
  | nil => simp [lastBlock, extent]
  | cons b l1 ih =>
    rw [cons_append, lastBlock, ih, lastBlock, extent]
    congr 1
    omega

lemma dlinks_append : DLinks mem q a (l1 ++ l2) z ↔ DLinks mem q a l1 (if l2 = [] then z else a + extent 32 l1) ∧
      DLinks mem (lastBlock q a l1) (a + extent 32 l1) l2 z := by
  induction l1 generalizing q a with
  | nil => simp [DLinks, lastBlock, extent]
  | cons c l1 ih =>
    have hnext : a + extent 32 (c :: l1) = a + 32 + c.size + extent 32 l1 := by
      rw [extent]
      omega
    rw [cons_append, DLinks, ih, hnext, lastBlock, DLinks, and_assoc]
    refine and_congr ?_ Iff.rfl
    cases l1 <;> cases l2 <;> simp [extent]

lemma DLinks.of_agree (h : DLinks mem q a l z)
    (hag : ∀ x, a ≤ x → x + 32 ≤ a + extent 32 l → load mem' x = load mem x) : DLinks mem' q a l z := by
  induction l generalizing q a with
  | nil => trivial
  | cons b l ih =>
    rw [extent] at hag
    refine ⟨by rw [hag a (by omega) (by omega)]; exact h.1, ih h.2 fun x h1 h2 => ?_⟩
    exact hag x (by omega) (by omega)

lemma DLinks.of_headers (h : DLinks mem q a l z)
    (hag : ∀ x d, (x, d) ∈ spans 32 a l → load mem' x = load mem x) : DLinks mem' q a l z := by
  induction l generalizing q a with
  | nil => trivial
  | cons b l ih =>
    rw [spans] at hag
    refine ⟨by rw [hag a b (by simp)]; exact h.1, ih h.2 fun x d hx => ?_⟩
    exact hag x d (mem_cons_of_mem _ hx)

/-- The middle of the list is replaced, and the block after it learns its new neighbour. -/
lemma DLinks.middle (h : DLinks mem q a (l1 ++ k ++ l2) z) (mem' : Buf) (hk : k ≠ [])
    (hm0 : m ≠ []) (hsize : extent 32 m = extent 32 k) (hm : DLinks mem' (lastBlock q a l1) (a + extent 32 l1) m
      (if l2 = [] then z else a + extent 32 l1 + extent 32 k))
    (hnext : l2 ≠ [] → load mem' (a + extent 32 l1 + extent 32 k) = { load mem (a + extent 32 l1 + extent 32 k) with
        prev := lastBlock (lastBlock q a l1) (a + extent 32 l1) m })
    (hout : ∀ i, ¬ (a + extent 32 l1 ≤ i ∧ i < a + extent 32 l1 + extent 32 k + 32) → mem' i = mem i) :
    DLinks mem' q a (l1 ++ m ++ l2) z := by
  rw [append_assoc, dlinks_append, dlinks_append] at h ⊢
  rw [if_neg (by simp [hk])] at h
  rw [if_neg (by simp [hm0]), hsize]
  obtain ⟨hleft, -, hright⟩ := h
  refine ⟨hleft.of_agree fun x _ hx => UBlock.load_of_outside hout (.inl (by omega)), hm, ?_⟩
  cases l2 with
  | nil => trivial
  | cons d l2 =>
    have hhead := hright.1
    refine ⟨?_, hright.2.of_agree fun x hx _ => UBlock.load_of_outside hout (.inr (by omega))⟩
    rw [hnext (by simp), hhead]

end links

/-- The list `l` of blocks is what the heap `u` holds from `base` on. -/
structure Listed (base : Nat) (u : UHeap) (l : List Blk) : Prop where
  links : DLinks u.mem 0 base l 0
  head : u.head = if l = [] then 0 else base
  tail : u.tail = lastBlock 0 base l
  tiles : base + extent 32 l = u.brk
  pos : 0 < base
  lt : u.brk < 2 ^ 64

def OffHeaders (base : Nat) (l : List Blk) (i : Nat) : Prop :=
  ∀ x d, (x, d) ∈ spans 32 base l → ¬ (x ≤ i ∧ i < x + 32)

/-- What `split_block` makes of a block. -/
def divided (need : Nat) (b : Blk) : List Blk :=
  if b.size < need + 48 then [b] else [⟨need, b.free⟩, ⟨b.size - need - 32, true⟩]

/-- A block with the free block after it. -/
def absorb (b : Blk) : List Blk → List Blk
  | c :: l => if c.free then ⟨b.size + (32 + c.size), b.free⟩ :: l else b :: c :: l
  | [] => [b]

section primitives

variable {base size need : Nat} {u : UHeap} {b c : Blk} {l l1 l2 : List Blk}

lemma offHeaders_of_mem {x i : Nat} (hx : (x, b) ∈ spans 32 base l) (hi : x + 32 ≤ i)
    (hi' : i < x + 32 + b.size) : OffHeaders base l i := by
  intro y d hy hmem
  by_cases hxy : x = y
  · omega
  · have := disjoint_of_mem hx hy hxy
    omega

lemma OffHeaders.of_size {i : Nat} (h : OffHeaders base (l1 ++ b :: l2) i) (hsize : c.size = b.size) :
    OffHeaders base (l1 ++ c :: l2) i := by
  intro x d hx
  rw [spans_append, spans, hsize, mem_append, mem_cons] at hx
  rw [OffHeaders, spans_append, spans] at h
  rcases hx with hx | hx | hx
  · exact h x d (mem_append_left _ hx)
  · cases hx
    exact h _ b (by simp)
  · exact h x d (mem_append_right _ (mem_cons_of_mem _ hx))

lemma extent_divided (need : Nat) (b : Blk) : extent 32 (divided need b) = 32 + b.size := by
  rw [divided]
  split_ifs <;> simp only [extent] <;> omega

lemma Listed.header (h : Listed base u (l1 ++ b :: l2)) :
    load u.mem (base + extent 32 l1) = ⟨b.size, lastBlock 0 base l1,
      if l2 = [] then 0 else base + extent 32 l1 + 32 + b.size, b.free⟩ :=
  (dlinks_append.mp h.links).2.1

lemma Listed.bounds (h : Listed base u (l1 ++ b :: l2)) : base + extent 32 l1 + 32 + b.size + extent 32 l2 = u.brk := by
  rw [← h.tiles, extent_append, extent]
  omega

lemma Listed.middle {k m : List Blk} (h : Listed base u (l1 ++ k ++ l2)) (u' : UHeap) (hk : k ≠ [])
    (hm0 : m ≠ []) (hsize : extent 32 m = extent 32 k) (hm : DLinks u'.mem (lastBlock 0 base l1) (base + extent 32 l1) m
      (if l2 = [] then 0 else base + extent 32 l1 + extent 32 k))
    (hnext : l2 ≠ [] → load u'.mem (base + extent 32 l1 + extent 32 k) =
      { load u.mem (base + extent 32 l1 + extent 32 k) with
        prev := lastBlock (lastBlock 0 base l1) (base + extent 32 l1) m })
    (hout : ∀ i, ¬ (base + extent 32 l1 ≤ i ∧ i < base + extent 32 l1 + extent 32 k + 32) →
      u'.mem i = u.mem i) (hhead : u'.head = u.head) (hbrk : u'.brk = u.brk) (htail : u'.tail =
      if l2 = [] then lastBlock (lastBlock 0 base l1) (base + extent 32 l1) m else u.tail) :
    Listed base u' (l1 ++ m ++ l2) where
  links := h.links.middle u'.mem hk hm0 hsize hm hnext hout
  head := by
    rw [hhead, h.head]
    simp [hk, hm0]
  tail := by
    rw [htail, h.tail]
    cases l2 <;> simp [lastBlock, hsize]
  tiles := by
    rw [hbrk, ← h.tiles]
    simp [hsize]
  pos := h.pos
  lt := by
    rw [hbrk]
    exact h.lt

lemma Listed.next_header {k : List Blk} (h : Listed base u (l1 ++ k ++ c :: l2)) :
    load u.mem (base + extent 32 l1 + extent 32 k) = ⟨c.size, lastBlock (lastBlock 0 base l1) (base + extent 32 l1) k,
        if l2 = [] then 0 else base + extent 32 l1 + extent 32 k + 32 + c.size, c.free⟩ := by
  have hc := h.header
  rw [extent_append, ← add_assoc, lastBlock_append] at hc
  exact hc

lemma Listed.after_header (h : Listed base u (l1 ++ b :: c :: l2)) : load u.mem (base + extent 32 l1 + 32 + b.size) =
      ⟨c.size, lastBlock (lastBlock 0 base l1) (base + extent 32 l1) [b],
        if l2 = [] then 0 else base + extent 32 l1 + 32 + b.size + 32 + c.size, c.free⟩ := by
  have h' : Listed base u (l1 ++ [b] ++ c :: l2) := by
    rw [append_assoc]
    exact h
  have hnext := h'.next_header
  simp only [extent, add_zero] at hnext
  rw [← add_assoc] at hnext
  exact hnext

lemma Listed.setFree (h : Listed base u (l1 ++ b :: l2)) (f : Bool) :
    Listed base { u with mem := UBlock.setFree u.mem (base + extent 32 l1) f } (l1 ++ ⟨b.size, f⟩ :: l2) := by
  have hb := h.header
  rw [append_cons] at h ⊢
  refine h.middle _ (by simp) (by simp) rfl ⟨?_, trivial⟩ (fun hl2 => ?_) (fun i hi => ?_) rfl rfl ?_
  · rw [UBlock.load_setFree, hb, extent, extent]
    simp [add_assoc]
  · obtain ⟨d, l3, rfl⟩ := exists_cons_of_ne_nil hl2
    rw [UBlock.load_setFree_of_ne (by simp only [extent]; omega), h.next_header]
    simp [lastBlock]
  · exact UBlock.setFree_of_not_mem (by simp only [extent] at hi; omega)
  · split_ifs with hl2
    · rw [h.tail, hl2]
      simp [lastBlock]
    · rfl

lemma Listed.split_rest (h : Listed base u (l1 ++ b :: l2)) (size : Nat) {x y : Nat}
    (hx : base + extent 32 l1 = x) (hy : y = x + 32 + need) (hle : y + 32 ≤ x + 32 + b.size) :
    let e := load u.mem x
    let mem := UBlock.fresh u.mem y size x e.next
    let v := if e.next ≠ 0 then { u with mem := setPrev mem e.next y }
      else { u with mem := mem, tail := y }
    load v.mem x = e ∧ load v.mem y = ⟨size % 2 ^ 64, x, e.next, true⟩ ∧
    (l2 ≠ [] → load v.mem (x + 32 + b.size) = { load u.mem (x + 32 + b.size) with prev := y }) ∧
    (∀ i, ¬ (y ≤ i ∧ i < y + 32) → (l2 ≠ [] → ¬ (x + 32 + b.size ≤ i ∧ i < x + 32 + b.size + 32)) → v.mem i = u.mem i) ∧
    v.tail = (if l2 = [] then y else u.tail) ∧ v.head = u.head ∧ v.brk = u.brk ∧ v.used = u.used := by
  have hb := h.header
  have hbrk := h.bounds
  have hlt := h.lt
  rw [hx] at hb hbrk
  intro e mem v
  have hnext : e.next = if l2 = [] then 0 else x + 32 + b.size := congrArg UBlock.next hb
  have hmem : load mem y = ⟨size % 2 ^ 64, x, e.next, true⟩ :=
    UBlock.load_fresh (by omega) (by rw [hnext]; split_ifs <;> omega)
  have hmemx : load mem x = e := UBlock.load_fresh_of_ne (by omega)
  by_cases hl2 : l2 = []
  · rw [if_pos hl2] at hnext
    have hv : v = { u with mem := mem, tail := y } := if_neg (by rw [hnext]; simp)
    rw [hv, if_pos hl2]
    refine ⟨hmemx, hmem, fun h0 => absurd hl2 h0, fun i hi _ => UBlock.fresh_of_not_mem hi, rfl, rfl, rfl, rfl⟩
  · rw [if_neg hl2] at hnext
    have hv : v = { u with mem := setPrev mem (x + 32 + b.size) y } := by
      rw [← hnext]
      exact if_pos (by omega)
    rw [hv, if_neg hl2]
    refine ⟨?_, ?_, fun _ => ?_, fun i hi hi' => ?_, rfl, rfl, rfl, rfl⟩
    · rw [UBlock.load_setPrev_of_ne (by omega), hmemx]
    · rw [UBlock.load_setPrev_of_ne (by omega), hmem]
    · rw [UBlock.load_setPrev, UBlock.load_fresh_of_ne (by omega), Nat.mod_eq_of_lt (by omega)]
    · dsimp only
      rw [UBlock.setPrev_of_not_mem (hi' hl2)]
      exact UBlock.fresh_of_not_mem hi

/-- `split_block` divides a block and writes to headers of the new list only. -/
lemma Listed.split (h : Listed base u (l1 ++ b :: l2)) (hneed : need + 48 < 2 ^ 64) :
    Listed base (splitBlock u (base + extent 32 l1) need) (l1 ++ divided need b ++ l2) ∧
    (splitBlock u (base + extent 32 l1) need).used = u.used ∧ ∀ i, OffHeaders base (l1 ++ divided need b ++ l2) i →
      (splitBlock u (base + extent 32 l1) need).mem i = u.mem i := by
  have hb := h.header
  rw [splitBlock, divided]
  dsimp only
  by_cases hs : b.size < need + 48
  · rw [if_pos (by rw [hb]; dsimp only; omega), if_pos hs, ← append_cons]
    exact ⟨h, rfl, fun _ _ => rfl⟩
  · rw [if_neg (by rw [hb]; dsimp only; omega), if_neg hs]
    have hbrk := h.bounds
    have hlt := h.lt
    obtain ⟨hvx, hvy, hvn, hvout, hvtail, hvhead, hvbrk, hvused⟩ := h.split_rest
      ((load u.mem (base + extent 32 l1)).size + 2 * 2 ^ 64 - need - 32) rfl rfl
      (by omega : base + extent 32 l1 + 32 + need + 32 ≤ base + extent 32 l1 + 32 + b.size)
    simp only [UBlock.fresh] at hvx hvy hvn hvout hvtail hvhead hvbrk hvused
    generalize hv : (if (load u.mem (base + extent 32 l1)).next ≠ 0 then _ else _ : UHeap) = v
      at hvx hvy hvn hvout hvtail hvhead hvbrk hvused ⊢
    rw [hb] at hvx hvy
    obtain ⟨x, hx⟩ : ∃ x, x = base + extent 32 l1 := ⟨_, rfl⟩
    rw [← hx] at hvx hvy hvn hvout hbrk ⊢
    have hmem1 : (x, (⟨need, b.free⟩ : Blk)) ∈
        spans 32 base (l1 ++ [⟨need, b.free⟩, ⟨b.size - need - 32, true⟩] ++ l2) := by
      simp [spans, hx]
    have hmem2 : (x + 32 + need, (⟨b.size - need - 32, true⟩ : Blk)) ∈
        spans 32 base (l1 ++ [⟨need, b.free⟩, ⟨b.size - need - 32, true⟩] ++ l2) := by
      simp [spans, hx]
    have hk : extent 32 [b] = 32 + b.size := by simp [extent]
    have hoff : ∀ i, ¬ (x ≤ i ∧ i < x + 32) → ¬ (x + 32 + need ≤ i ∧ i < x + 32 + need + 32) →
        (l2 ≠ [] → ¬ (x + 32 + b.size ≤ i ∧ i < x + 32 + b.size + 32)) →
        UBlock.setSize (UBlock.setNext v.mem x (x + 32 + need)) x need i = u.mem i := by
      intro i h1 h2 h3
      rw [UBlock.setSize_of_not_mem h1, UBlock.setNext_of_not_mem h1, hvout i h2 h3]
    rw [append_cons] at h
    refine ⟨h.middle _ (by simp) (by simp) ?_ ?_ ?_ ?_ hvhead hvbrk ?_, hvused, fun i hi => ?_⟩
    · simp only [extent]
      omega
    · rw [← hx]
      refine ⟨?_, ?_, trivial⟩
      · rw [UBlock.load_setSize, UBlock.load_setNext, hvx, Nat.mod_eq_of_lt (a := need) (by omega), Nat.mod_eq_of_lt
          (a := x + 32 + need) (by omega)]
        rfl
      · rw [UBlock.load_setSize_of_ne (by omega), UBlock.load_setNext_of_ne (by omega), hvy, hk, hx]
        simp only [if_true]
        congr 1
        · omega
        · split_ifs <;> omega
    · intro hl2
      rw [← hx, hk]
      rw [show x + (32 + b.size) = x + 32 + b.size by omega, UBlock.load_setSize_of_ne (by omega),
        UBlock.load_setNext_of_ne (by omega), hvn hl2]
      simp [lastBlock]
    · intro i hi
      exact hoff i (by omega) (by omega) fun _ => by omega
    · exact hvtail
    · refine hoff i (hi _ _ hmem1) (hi _ _ hmem2) fun hl2 => ?_
      obtain ⟨d, l3, rfl⟩ := exists_cons_of_ne_nil hl2
      refine hi _ d ?_
      simp only [spans_append, spans, extent_append, extent, mem_append, mem_cons]
      refine .inr (.inl ?_)
      congr 1
      omega

/-- One turn of the loop of `coalesce_forward` takes in the free block that follows. -/
lemma Listed.merge_next (h : Listed base u (l1 ++ b :: c :: l2)) (hc : c.free) (fuel : Nat) :
    ∃ v, coalesceForward u (fuel + 1) (base + extent 32 l1) = coalesceForward v fuel (base + extent 32 l1) ∧
      Listed base v (l1 ++ ⟨b.size + (32 + c.size), b.free⟩ :: l2) ∧ v.used = u.used ∧
      v.brk = u.brk ∧ v.capacity = u.capacity ∧ ∀ i, OffHeaders base (l1 ++ b :: c :: l2) i → v.mem i = u.mem i := by
  have hb := h.header
  have hbrk := h.bounds
  have hlt := h.lt
  have hsplit : l1 ++ b :: c :: l2 = l1 ++ [b] ++ c :: l2 := by simp
  have hcn := (hsplit ▸ h).next_header
  obtain ⟨x, hx⟩ : ∃ x, x = base + extent 32 l1 := ⟨_, rfl⟩
  rw [if_neg (by simp)] at hb
  rw [← hx] at hb hbrk hcn ⊢
  rw [extent] at hbrk
  simp only [extent, add_zero, lastBlock] at hcn
  rw [← add_assoc] at hcn
  have hmem1 : (x, b) ∈ spans 32 base (l1 ++ b :: c :: l2) := by simp [spans, hx]
  have h' : Listed base u (l1 ++ [b, c] ++ l2) := by
    rw [append_assoc]
    exact h
  have hk : extent 32 [b, c] = 32 + b.size + (32 + c.size) := by simp [extent, add_assoc]
  rw [append_cons]
  by_cases hl2 : l2 = []
  · subst hl2
    rw [if_pos rfl] at hcn
    refine ⟨{ u with
        mem := UBlock.setNext (UBlock.setSize u.mem x (b.size + (32 + c.size))) x 0,
        tail := x }, ?_, h'.middle _ (by simp) (by simp) ?_ ⟨?_, trivial⟩ (fun h0 => absurd rfl h0) ?_
        rfl rfl ?_, rfl, rfl, rfl, fun i hi => ?_⟩
    · rw [coalesceForward, hb]
      dsimp only
      rw [hcn, if_pos ⟨by omega, hc⟩, if_neg (by simp)]
    · simp only [extent]
      omega
    · rw [← hx]
      rw [UBlock.load_setNext, UBlock.load_setSize, hb, Nat.mod_eq_of_lt (a := b.size + (32 + c.size)) (by omega)]
      rfl
    · intro i hi
      dsimp only
      rw [UBlock.setNext_of_not_mem (by omega), UBlock.setSize_of_not_mem (by omega)]
    · rw [if_pos rfl, ← hx]
      rfl
    · dsimp only
      rw [UBlock.setNext_of_not_mem (hi _ _ hmem1), UBlock.setSize_of_not_mem (hi _ _ hmem1)]
  · obtain ⟨d, l3, rfl⟩ := exists_cons_of_ne_nil hl2
    rw [if_neg hl2] at hcn
    have hmem2 : (x + 32 + b.size + 32 + c.size, d) ∈ spans 32 base (l1 ++ b :: c :: d :: l3) := by
      simp [spans, hx]
    refine ⟨{ u with
        mem := setPrev (UBlock.setNext (UBlock.setSize u.mem x (b.size + (32 + c.size))) x
          (x + 32 + b.size + 32 + c.size)) (x + 32 + b.size + 32 + c.size) x },
        ?_, h'.middle _ (by simp) (by simp) ?_ ⟨?_, trivial⟩ (fun _ => ?_) ?_
        rfl rfl ?_, rfl, rfl, rfl, fun i hi => ?_⟩
    · rw [coalesceForward, hb]
      dsimp only
      rw [hcn, if_pos ⟨by omega, hc⟩, if_pos (by dsimp only; omega)]
    · simp only [extent]
      omega
    · rw [← hx]
      rw [UBlock.load_setPrev_of_ne (by omega), UBlock.load_setNext, UBlock.load_setSize, hb,
        Nat.mod_eq_of_lt (a := b.size + (32 + c.size)) (by omega),
        Nat.mod_eq_of_lt (a := x + 32 + b.size + 32 + c.size) (by omega), hk, if_pos rfl, if_neg hl2]
      simp only [add_assoc]
    · rw [← hx, hk, show x + (32 + b.size + (32 + c.size)) = x + 32 + b.size + 32 + c.size by omega]
      rw [UBlock.load_setPrev, UBlock.load_setNext_of_ne (by omega),
        UBlock.load_setSize_of_ne (by omega), Nat.mod_eq_of_lt (a := x) (by omega)]
      rfl
    · intro i hi
      dsimp only
      rw [UBlock.setPrev_of_not_mem (by omega), UBlock.setNext_of_not_mem (by omega),
        UBlock.setSize_of_not_mem (by omega)]
    · rw [if_neg hl2]
    · dsimp only
      rw [UBlock.setPrev_of_not_mem (hi _ _ hmem2), UBlock.setNext_of_not_mem (hi _ _ hmem1),
        UBlock.setSize_of_not_mem (hi _ _ hmem1)]

lemma Listed.merge_stop (h : Listed base u (l1 ++ b :: l2)) (hl2 : ∀ c ∈ l2.head?, c.free = false)
    (fuel : Nat) : coalesceForward u (fuel + 1) (base + extent 32 l1) = some u := by
  have hb := h.header
  rw [coalesceForward, hb]
  cases l2 with
  | nil => exact if_neg (by simp)
  | cons c l2 =>
    rw [append_cons] at h
    have hcn := h.next_header
    simp only [extent, add_zero] at hcn
    rw [← add_assoc] at hcn
    rw [if_neg (c := c :: l2 = []) (by simp), hcn, if_neg]
    rw [hl2 c rfl]
    simp

lemma Listed.coalesce (h : Listed base u (l1 ++ b :: l2)) (hc : Compact l2) {fuel : Nat} (hfuel : 2 ≤ fuel) :
    ∃ v, coalesceForward u fuel (base + extent 32 l1) = some v ∧ Listed base v (l1 ++ absorb b l2) ∧
      v.used = u.used ∧ v.brk = u.brk ∧ v.capacity = u.capacity ∧
      ∀ i, OffHeaders base (l1 ++ b :: l2) i → v.mem i = u.mem i := by
  obtain ⟨fuel, rfl⟩ : ∃ k, fuel = k + 2 := ⟨fuel - 2, by omega⟩
  cases l2 with
  | nil => exact ⟨u, h.merge_stop (by simp) _, h, rfl, rfl, rfl, fun _ _ => rfl⟩
  | cons c l2 =>
    by_cases hf : c.free = true
    · obtain ⟨v, hrun, hv, hused, hbrk, hcap, hmem⟩ := h.merge_next hf (fuel + 1)
      rw [absorb, if_pos hf]
      refine ⟨v, ?_, hv, hused, hbrk, hcap, hmem⟩
      rw [hrun]
      refine hv.merge_stop (fun d hd => ?_) _
      cases l2 with
      | nil => cases hd
      | cons e l2 =>
        cases hd
        have hne := hc.1
        rw [hf] at hne
        simpa using hne
    · rw [absorb, if_neg hf]
      refine ⟨u, h.merge_stop (fun d hd => ?_) _, h, rfl, rfl, rfl, fun _ _ => rfl⟩
      cases hd
      simpa using hf

lemma Listed.linkBlock (h : Listed base u l) {bytes : Nat} (hbytes : 32 ≤ bytes) (hlt : u.brk + bytes < 2 ^ 64) :
    Listed base (linkBlock { u with brk := u.brk + bytes } u.brk bytes) (l ++ [⟨bytes - 32, true⟩]) ∧
    ∀ i < u.brk, OffHeaders base l i →
      (VibeOS.linkBlock { u with brk := u.brk + bytes } u.brk bytes).mem i = u.mem i := by
  have htiles := h.tiles
  have htail := h.tail
  have hpos := h.pos
  have hmod : (bytes + 2 ^ 64 - 32) % 2 ^ 64 = bytes - 32 := by omega
  rcases eq_nil_or_concat l with rfl | ⟨l0, b, rfl⟩
  · rw [extent] at htiles
    rw [lastBlock] at htail
    have heq : VibeOS.linkBlock { u with brk := u.brk + bytes } u.brk bytes = { u with
        mem := clearPad (UBlock.setFree (UBlock.setNext (setPrev (UBlock.setSize u.mem
          u.brk (bytes + 2 ^ 64 - 32)) u.brk 0) u.brk 0) u.brk true) u.brk,
        head := u.brk, tail := u.brk, capacity := (u.capacity + (bytes - 32)) % 2 ^ 64, brk := u.brk + bytes } := by
      rw [VibeOS.linkBlock]
      rw [htail, if_neg (by simp)]
      rw [UBlock.load_last (by omega), hmod]
    rw [heq]
    refine ⟨⟨⟨?_, trivial⟩, ?_, ?_, ?_, hpos, hlt⟩, fun i hi _ => ?_⟩
    · rw [show base = u.brk by omega]
      rw [UBlock.load_last (by omega), hmod]
      rfl
    · dsimp only
      rw [if_neg (by simp)]
      omega
    · simp only [nil_append, lastBlock]
      omega
    · simp only [nil_append, extent]
      omega
    · have hn : ¬ (u.brk ≤ i ∧ i < u.brk + 32) := by omega
      dsimp only
      rw [UBlock.clearPad_of_not_mem hn, UBlock.setFree_of_not_mem hn, UBlock.setNext_of_not_mem hn,
        UBlock.setPrev_of_not_mem hn, UBlock.setSize_of_not_mem hn]
  · rw [concat_eq_append] at h htiles htail ⊢
    have hb := h.header
    have hbrk := h.bounds
    obtain ⟨x, hx⟩ : ∃ x, x = base + extent 32 l0 := ⟨_, rfl⟩
    have htx : u.tail = x := by
      rw [htail, lastBlock_append, hx]
      rfl
    rw [← hx] at hb hbrk
    rw [extent] at hbrk
    obtain ⟨mem, hmem⟩ : ∃ m, m = clearPad (UBlock.setFree (UBlock.setNext (setPrev
      (UBlock.setSize u.mem u.brk (bytes + 2 ^ 64 - 32)) u.brk x) u.brk 0) u.brk true) u.brk := ⟨_, rfl⟩
    have hmemout : ∀ i, ¬ (u.brk ≤ i ∧ i < u.brk + 32) → mem i = u.mem i := by
      intro i hn
      rw [hmem, UBlock.clearPad_of_not_mem hn, UBlock.setFree_of_not_mem hn,
        UBlock.setNext_of_not_mem hn, UBlock.setPrev_of_not_mem hn, UBlock.setSize_of_not_mem hn]
    have hload : load mem u.brk = ⟨bytes - 32, x, 0, true⟩ := by
      rw [hmem, UBlock.load_last (by omega), hmod]
    have heq : VibeOS.linkBlock { u with brk := u.brk + bytes } u.brk bytes = { u with
        mem := UBlock.setNext mem x u.brk, tail := u.brk,
        capacity := (u.capacity + (bytes - 32)) % 2 ^ 64, brk := u.brk + bytes } := by
      rw [VibeOS.linkBlock]
      rw [htx, if_pos (by omega), ← hmem]
      rw [UBlock.load_setNext_of_ne (by omega), hload]
    rw [heq]
    have hout : ∀ i < u.brk, ¬ (x ≤ i ∧ i < x + 32) → UBlock.setNext mem x u.brk i = u.mem i :=
      fun i hi hn => by rw [UBlock.setNext_of_not_mem hn, hmemout i (by omega)]
    refine ⟨⟨?_, ?_, ?_, ?_, hpos, hlt⟩, fun i hi hoff => ?_⟩
    · have hleft := (dlinks_append.mp h.links).1
      rw [append_assoc, dlinks_append]
      refine ⟨?_, ?_, ?_, trivial⟩
      · refine hleft.of_agree fun y _ hy => UBlock.load_congr fun i _ hi => hout i (by omega) (by omega)
      · rw [← hx]
        rw [UBlock.load_setNext, UBlock.load_of_outside hmemout (.inl (by omega)), hb,
          Nat.mod_eq_of_lt (a := u.brk) (by omega), show u.brk = x + 32 + b.size by omega]
        simp
      · rw [← hx]
        rw [show x + 32 + b.size = u.brk by omega, UBlock.load_setNext_of_ne (by omega), hload]
        rfl
    · rw [h.head]
      simp
    · rw [lastBlock_append]
      simp only [lastBlock, extent_append, extent]
      omega
    · rw [extent_append, ← add_assoc, htiles, extent, extent]
      dsimp only
      omega
    · exact hout i hi (hoff x b (by simp [spans, hx]))

lemma Listed.takeBlock (h : Listed base u (l1 ++ b :: l2)) (hneed : need ≤ b.size) (hlt : need + 48 < 2 ^ 64) :
    ∃ s r, Listed base (takeBlock u (base + extent 32 l1) need) (l1 ++ ⟨s, false⟩ :: r ++ l2) ∧
      need ≤ s ∧ (16 ∣ b.size → 16 ∣ need → 16 ∣ s ∧ ∀ d ∈ r, 16 ∣ d.size) ∧
      (r = [] ∨ ∃ m, r = [⟨m, true⟩]) ∧ extent 32 (⟨s, false⟩ :: r) = 32 + b.size ∧
      (VibeOS.takeBlock u (base + extent 32 l1) need).used = (u.used + s) % 2 ^ 64 ∧
      ∀ i, OffHeaders base (l1 ++ ⟨s, false⟩ :: r ++ l2) i →
        (VibeOS.takeBlock u (base + extent 32 l1) need).mem i = u.mem i := by
  obtain ⟨hsplit, hused, hmem⟩ := h.split hlt
  have hext := extent_divided need b
  obtain ⟨s, f, r, hdiv, hs, h16, hr⟩ : ∃ s f r, divided need b = ⟨s, f⟩ :: r ∧ need ≤ s ∧
      (16 ∣ b.size → 16 ∣ need → 16 ∣ s ∧ ∀ d ∈ r, 16 ∣ d.size) ∧ (r = [] ∨ ∃ m, r = [⟨m, true⟩]) := by
    rw [divided]
    split_ifs with hb
    · exact ⟨b.size, b.free, [], rfl, hneed, fun h1 _ => ⟨h1, by simp⟩, .inl rfl⟩
    · refine ⟨need, b.free, _, rfl, le_rfl, fun h1 h2 => ⟨h2, ?_⟩, .inr ⟨_, rfl⟩⟩
      simp only [mem_singleton, forall_eq]
      omega
  rw [hdiv, append_assoc, cons_append] at hsplit hmem
  rw [hdiv] at hext
  have hfree := hsplit.setFree false
  have hhead := hfree.header
  refine ⟨s, r, ?_, hs, h16, hr, hext, ?_, fun i hi => ?_⟩
  · rw [append_assoc, cons_append]
    exact ⟨hfree.links, hfree.head, hfree.tail, hfree.tiles, hfree.pos, hfree.lt⟩
  · rw [VibeOS.takeBlock]
    rw [hhead, hused]
  · rw [append_assoc, cons_append] at hi
    -- the flag lies in the header of the block
    have hn := hi (base + extent 32 l1) ⟨s, false⟩ mem_spans_split
    change UBlock.setFree _ _ _ _ = _
    rw [UBlock.setFree_of_not_mem hn]
    exact hmem i (hi.of_size rfl)

end primitives

end VibeOS
