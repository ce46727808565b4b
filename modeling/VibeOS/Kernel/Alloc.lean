import VibeOS.Lib.Words
import VibeOS.Lib.BlockList
import VibeOS.Lib.Run

/-!
# The kernel heaps

The allocators of `alloc.c` over a byte memory: a first-fit search along the `next` pointers, a split,
and a coalescing pass over the whole list. `kmalloc` and `kfree` serve the main heap and count the
bytes in use; `kheap_alloc` and `kheap_free` serve the graphics and image heaps. Loops run on fuel and
return `none` when it runs out, which never happens on a heap that is `KheapOk`. `24` is
`sizeof(alloc_header_t)`.

Other names are those of `kernel/src/alloc.c`.
-/

namespace VibeOS

open Buf Blk List

/-- The header of a block.
Source: `struct alloc_header` -/
@[ext] structure AllocHeader where
  size : Nat
  next : Nat
  isFree : Bool

def headerAt (mem : Buf) (p : Nat) : AllocHeader :=
  ⟨mem.getU64 p, mem.getU64 (p + 8), decide (mem.getU32 (p + 16) ≠ 0)⟩

/-- `block->size = v`. -/
def setSize (mem : Buf) (p v : Nat) : Buf := mem.putU64 p v

/-- `block->next = v`. -/
def setNext (mem : Buf) (p v : Nat) : Buf := mem.putU64 (p + 8) v

/-- `block->is_free = f`. -/
def setFree (mem : Buf) (p : Nat) (f : Bool) : Buf := mem.putU32 (p + 16) (if f then 1 else 0)

/-- A heap instance in memory.
Source: `struct kheap`, and `g_heap_start`, `g_heap_base`, `g_heap_size` -/
structure Kheap where
  start : Nat
  base : Nat
  size : Nat
  mem : Buf

/-- The main heap with its counter.
Source: `g_used` -/
structure KmallocHeap where
  heap : Kheap
  used : Nat

/-- One free block that takes the whole heap. -/
def kheapInit (mem : Buf) (base size : Nat) : Kheap :=
  ⟨base, base, size, setFree (setNext (setSize mem base (size + 2 ^ 64 - 24)) base 0) base true⟩

def kmallocInit (mem : Buf) (base size : Nat) : KmallocHeap := ⟨kheapInit mem base size, 0⟩

def heapEndAddr (h : Kheap) : Nat := (h.base + h.size) % 2 ^ 64

/-- The block lies inside the heap.
Source: `block_in_heap`, `kheap_block_ok` -/
def blockInHeap (h : Kheap) (p : Nat) : Bool :=
  if p < h.base ∨ (p + 24) % 2 ^ 64 > heapEndAddr h then false
  else if (headerAt h.mem p).size > (heapEndAddr h + 2 * 2 ^ 64 - p - 24) % 2 ^ 64 then false
  else true

/-- The search for the first free block that is large enough; `onBad` says what becomes of a block
that does not lie in the heap.
Source: `kmalloc_locked`, `kheap_alloc` -/
def findFit (h : Kheap) (onBad : Nat → Nat) (size : Nat) : (fuel curr : Nat) → Option Nat
  | 0, _ => none
  | fuel + 1, curr =>
    if curr = 0 then some 0
    else if ¬ blockInHeap h curr then some (onBad curr)
    else if (headerAt h.mem curr).isFree ∧ (headerAt h.mem curr).size ≥ size then some curr
    else findFit h onBad size fuel (headerAt h.mem curr).next

/-- Split a block when it is larger than needed, and take it.
Source: `kmalloc_locked`, `kheap_alloc` -/
def carve (h : Kheap) (curr size : Nat) : Kheap :=
  let e := headerAt h.mem curr
  let mem :=
    if e.size > (size + 24 + 8) % 2 ^ 64 then
      let newBlock := (curr + 24 + size) % 2 ^ 64
      let mem1 := setSize h.mem newBlock (e.size + 2 * 2 ^ 64 - size - 24)
      let mem2 := setNext mem1 newBlock e.next
      let mem3 := setFree mem2 newBlock true
      setNext (setSize mem3 curr size) curr newBlock
    else h.mem
  { h with mem := setFree mem curr false }

/-- The coalescing pass.
Source: `kfree_locked`, `kheap_free` -/
def coalesce (h : Kheap) : (fuel curr : Nat) → Option Kheap
  | 0, _ => none
  | fuel + 1, curr =>
    let e := headerAt h.mem curr
    if curr = 0 ∨ e.next = 0 then some h
    else if ¬ blockInHeap h curr ∨ ¬ blockInHeap h e.next then some h
    else
      let n := headerAt h.mem e.next
      if e.isFree ∧ n.isFree ∧ (curr + 24 + e.size) % 2 ^ 64 = e.next then
        coalesce { h with mem := setNext (setSize h.mem curr (e.size + (24 + n.size))) curr n.next }
          fuel curr
      else coalesce h fuel e.next

/-- Enough fuel for any list of blocks of the heap. -/
def Kheap.fuel (h : Kheap) : Nat := h.size + 1

def kheapAlloc (h : Kheap) (n : Nat) : Option (Nat × Kheap) :=
  if h.start = 0 then some (0, h)
  else
    -- (size + 7) & ~7u keeps 32 bits
    let size := (n + 7) % 2 ^ 32 / 8 * 8
    (findFit h (fun _ => 0) size h.fuel h.start).map fun curr =>
      if curr = 0 then (0, h) else ((curr + 24) % 2 ^ 64, carve h curr size)

/-- Source: `kmalloc_locked` -/
def kmalloc (k : KmallocHeap) (n : Nat) : Option (Nat × KmallocHeap) :=
  -- (size + 7) & ~7
  let size := (n + 7) % 2 ^ 64 / 8 * 8
  (findFit k.heap (fun curr => curr) size k.heap.fuel k.heap.start).map fun curr =>
    if curr = 0 then (0, k)
    else
      let h := carve k.heap curr size
      ((curr + 24) % 2 ^ 64, ⟨h, (k.used + (headerAt h.mem curr).size) % 2 ^ 64⟩)

/-- The header of the block behind a pointer. -/
def blockOfPtr (p : Nat) : Nat := (p + 2 ^ 64 - 24) % 2 ^ 64

def kheapFree (h : Kheap) (p : Nat) : Option Kheap :=
  if p = 0 then some h
  else if ¬ blockInHeap h (blockOfPtr p) ∨ (headerAt h.mem (blockOfPtr p)).isFree then some h
  else coalesce { h with mem := setFree h.mem (blockOfPtr p) true } h.fuel h.start

/-- Source: `kfree_locked` -/
def kfree (k : KmallocHeap) (p : Nat) : Option KmallocHeap :=
  if p = 0 then some k
  else if ¬ blockInHeap k.heap (blockOfPtr p) then some k
  else if (headerAt k.heap.mem (blockOfPtr p)).isFree then some k
  else
    let size := (headerAt k.heap.mem (blockOfPtr p)).size
    (coalesce { k.heap with mem := setFree k.heap.mem (blockOfPtr p) true } k.heap.fuel
      k.heap.start).map fun h => ⟨h, if k.used ≥ size then k.used - size else 0⟩

/-! ### Headers -/

section headers

variable {mem mem' : Buf} {p q v i size : Nat} {f : Bool}

lemma headerAt_congr (h : ∀ i, p ≤ i → i < p + 24 → mem i = mem' i) : headerAt mem p = headerAt mem' p := by
  have h0 : mem.getU64 p = mem'.getU64 p := getU64_congr fun k hk => h _ (by omega) (by omega)
  have h1 : mem.getU64 (p + 8) = mem'.getU64 (p + 8) :=
    getU64_congr fun k hk => h _ (by omega) (by omega)
  have h2 : mem.getU32 (p + 16) = mem'.getU32 (p + 16) :=
    getU32_congr fun k hk => h _ (by omega) (by omega)
  rw [headerAt, headerAt, h0, h1, h2]

lemma setSize_of_not_mem (h : ¬ (p ≤ i ∧ i < p + 24)) : setSize mem p v i = mem i :=
  putU64_of_not_mem (by omega)

lemma setNext_of_not_mem (h : ¬ (p ≤ i ∧ i < p + 24)) : setNext mem p v i = mem i :=
  putU64_of_not_mem (by omega)

lemma setFree_of_not_mem (h : ¬ (p ≤ i ∧ i < p + 24)) : setFree mem p f i = mem i :=
  blit_of_not_mem (by omega)

lemma headerAt_setSize : headerAt (setSize mem p v) p = { headerAt mem p with size := v % 2 ^ 64 } := by
  rw [headerAt, setSize, getU64_putU64, getU64_putU64_apart (by omega), getU32_putU64_apart (by omega), headerAt]

lemma headerAt_setNext : headerAt (setNext mem p v) p = { headerAt mem p with next := v % 2 ^ 64 } := by
  rw [headerAt, setNext, getU64_putU64, getU64_putU64_apart (by omega), getU32_putU64_apart (by omega), headerAt]

lemma headerAt_setFree : headerAt (setFree mem p f) p = { headerAt mem p with isFree := f } := by
  rw [headerAt, setFree, getU32_putU32, getU64_putU32_apart (by omega), getU64_putU32_apart (by omega), headerAt]
  cases f <;> rfl

lemma headerAt_of_outside {lo hi : Nat} (h : ∀ i, ¬ (lo ≤ i ∧ i < hi) → mem' i = mem i)
    (hp : p + 24 ≤ lo ∨ hi ≤ p) : headerAt mem' p = headerAt mem p :=
  headerAt_congr fun i _ _ => h i (by omega)

end headers

/-! ### Linked blocks -/

/-- The blocks from address `a` on are linked, and the last one points to `z`. -/
def Links (mem : Buf) : Nat → List Blk → Nat → Prop
  | _, [], _ => True
  | a, b :: l, z => headerAt mem a = ⟨b.size, if l = [] then z else a + 24 + b.size, b.free⟩ ∧
      Links mem (a + 24 + b.size) l z

section links

variable {mem mem' : Buf} {a z i size : Nat} {b : Blk} {l l1 l2 : List Blk}

lemma links_append : Links mem a (l1 ++ b :: l2) z ↔
      Links mem a l1 (a + extent 24 l1) ∧ Links mem (a + extent 24 l1) (b :: l2) z := by
  induction l1 generalizing a with
  | nil => simp [Links, extent]
  | cons c l1 ih =>
    have hnext : a + extent 24 (c :: l1) = a + 24 + c.size + extent 24 l1 := by
      rw [extent]
      omega
    have hhead : (if l1 ++ b :: l2 = [] then z else a + 24 + c.size) =
        if l1 = [] then a + 24 + c.size + extent 24 l1 else a + 24 + c.size := by
      cases l1 <;> simp [extent]
    rw [cons_append, Links, ih, hnext, hhead]
    exact and_assoc.symm

lemma Links.of_headers (h : Links mem a l z) (hag : ∀ x d, (x, d) ∈ spans 24 a l → headerAt mem' x = headerAt mem x) :
    Links mem' a l z := by
  induction l generalizing a with
  | nil => trivial
  | cons b l ih =>
    rw [spans] at hag
    refine ⟨by rw [hag a b (by simp)]; exact h.1, ih h.2 fun x d hx => ?_⟩
    exact hag x d (mem_cons_of_mem _ hx)

lemma Links.of_agree (h : Links mem a l z)
    (hag : ∀ x, a ≤ x → x + 24 ≤ a + extent 24 l → headerAt mem' x = headerAt mem x) : Links mem' a l z :=
  h.of_headers fun x d hx => by
    have hb := bounds_of_mem hx
    exact hag x hb.1 (by omega)

lemma Links.replace (h : Links mem a (l1 ++ b :: l2) z) (mem' : Buf) {c : Blk} {m : List Blk}
    (hm : Links mem' (a + extent 24 l1) (c :: m) (if l2 = [] then z else a + extent 24 l1 + 24 + b.size))
    (hsize : extent 24 (c :: m) = 24 + b.size)
    (hout : ∀ i, ¬ (a + extent 24 l1 ≤ i ∧ i < a + extent 24 l1 + 24 + b.size) →
      mem' i = mem i) : Links mem' a (l1 ++ c :: m ++ l2) z := by
  obtain ⟨hl, hb⟩ := links_append.mp h
  have hleft : Links mem' a l1 (a + extent 24 l1) :=
    hl.of_agree fun x _ hx => headerAt_of_outside hout (.inl hx)
  have hright : Links mem' (a + extent 24 l1 + 24 + b.size) l2 z :=
    hb.2.of_agree fun x hx _ => headerAt_of_outside hout (.inr hx)
  cases l2 with
  | nil =>
    rw [if_pos rfl] at hm
    rw [append_nil]
    exact links_append.mpr ⟨hleft, hm⟩
  | cons d l2 =>
    rw [if_neg (by simp)] at hm
    have hend : a + extent 24 l1 + extent 24 (c :: m) = a + extent 24 l1 + 24 + b.size := by omega
    refine links_append.mpr ?_
    rw [extent_append, ← add_assoc, hend]
    refine ⟨links_append.mpr ⟨hleft, hm⟩, hright⟩

end links

/-! ### The loops -/

/-- The heap lies in the address space, past its first eight bytes. -/
structure Kheap.Valid (h : Kheap) : Prop where
  lo : 8 ≤ h.base
  hi : h.base + h.size < 2 ^ 64

section loops

variable {h : Kheap} {a i size : Nat} {b : Blk} {l l1 l2 : List Blk}

lemma blockInHeap_of (hv : h.Valid) {x : Nat} (hlo : h.base ≤ x)
    (hhi : x + 24 + (headerAt h.mem x).size ≤ h.base + h.size) : blockInHeap h x = true := by
  have hend : heapEndAddr h = h.base + h.size := Nat.mod_eq_of_lt hv.hi
  have hv' := hv.hi
  rw [blockInHeap, hend, if_neg (by omega), if_neg (by omega)]

lemma findFit_spec (hv : h.Valid) (onBad : Nat → Nat) (size : Nat) {fuel : Nat}
    (hfuel : l.length < fuel) (hlinks : Links h.mem a l 0) (hlo : h.base ≤ a)
    (hhi : a + extent 24 l = h.base + h.size) : (findFit h onBad size fuel (if l = [] then 0 else a) = some 0 ∧
      ∀ b ∈ l, ¬ (b.free ∧ size ≤ b.size)) ∨ ∃ l1 b l2, l = l1 ++ b :: l2 ∧ b.free ∧ size ≤ b.size ∧
      findFit h onBad size fuel (if l = [] then 0 else a) = some (a + extent 24 l1) := by
  induction l generalizing a fuel with
  | nil =>
    obtain ⟨fuel, rfl⟩ : ∃ f, fuel = f + 1 := ⟨fuel - 1, by simp at hfuel; omega⟩
    exact .inl ⟨by rw [if_pos rfl, findFit, if_pos rfl], by simp⟩
  | cons b l ih =>
    obtain ⟨fuel, rfl⟩ : ∃ f, fuel = f + 1 := ⟨fuel - 1, by simp at hfuel; omega⟩
    rw [extent] at hhi
    have hok : blockInHeap h a = true := blockInHeap_of hv hlo (by rw [hlinks.1]; dsimp only; omega)
    have hlo8 := hv.lo
    rw [if_neg (by simp), findFit, if_neg (by omega), if_neg (by simp [hok]), hlinks.1]
    dsimp only
    by_cases hfit : b.free = true ∧ b.size ≥ size
    · rw [if_pos hfit]
      exact .inr ⟨[], b, l, rfl, hfit.1, hfit.2, rfl⟩
    · rw [if_neg hfit]
      have hfuel' : l.length < fuel := by
        simp only [length_cons] at hfuel
        omega
      rcases ih hfuel' hlinks.2 (by omega) (by omega) with ⟨hnone, hall⟩ | ⟨l1, c, l2, rfl, hc, hsize, hsome⟩
      · exact .inl ⟨hnone, fun d hd => by
          rcases mem_cons.mp hd with rfl | hd
          · exact hfit
          · exact hall d hd⟩
      · refine .inr ⟨b :: l1, c, l2, rfl, hc, hsize, ?_⟩
        rw [hsome, extent]
        congr 1
        omega

/-- What taking `size` bytes leaves of a block. -/
def carved (size : Nat) (b : Blk) : List Blk :=
  if b.size > size + 32 then [⟨size, false⟩, ⟨b.size - size - 24, true⟩] else [⟨b.size, false⟩]

lemma extent_carved (size : Nat) (b : Blk) : extent 24 (carved size b) = 24 + b.size := by
  rw [carved]
  split_ifs <;> simp only [extent] <;> omega

lemma links_carve (hv : h.Valid) (hlinks : Links h.mem h.base (l1 ++ b :: l2) 0)
    (hext : extent 24 (l1 ++ b :: l2) = h.size) (hsize : size ≤ b.size) :
    Links (carve h (h.base + extent 24 l1) size).mem h.base (l1 ++ carved size b ++ l2) 0 := by
  rw [extent_append, extent] at hext
  have hlo := hv.lo
  have hhi := hv.hi
  have hb := (links_append.mp hlinks).2.1
  obtain ⟨curr, hcurr⟩ : ∃ curr, curr = h.base + extent 24 l1 := ⟨_, rfl⟩
  have hout := hlinks.replace (carve h curr size).mem (c := (carved size b).headD b) (m := (carved size b).tail)
  rw [← hcurr] at hb hout ⊢
  have hcons : (carved size b).headD b :: (carved size b).tail = carved size b := by
    rw [carved]
    split_ifs <;> rfl
  rw [hcons, extent_carved] at hout
  obtain ⟨z, hz⟩ : ∃ z, z = if l2 = [] then 0 else curr + 24 + b.size := ⟨_, rfl⟩
  rw [← hz] at hb hout
  have hz64 : z < 2 ^ 64 := by
    rw [hz]
    split_ifs <;> omega
  refine hout ?_ rfl ?_
  · rw [carve, hb, carved]
    dsimp only
    rw [Nat.mod_eq_of_lt (by omega : size + 24 + 8 < 2 ^ 64)]
    by_cases hsplit : b.size > size + 32
    · -- the new block, then the shortened one in front of it
      rw [if_pos hsplit, if_pos (by omega), Nat.mod_eq_of_lt (by omega : curr + 24 + size < 2 ^ 64)]
      refine ⟨?_, ?_, trivial⟩
      · rw [headerAt_setFree, headerAt_setNext, headerAt_setSize]
        simp only [cons_ne_self, if_false]
        rw [Nat.mod_eq_of_lt (by omega), Nat.mod_eq_of_lt (by omega)]
      · have hframe : ∀ x, headerAt (setFree (setNext (setSize x curr size) curr (curr + 24 + size))
            curr false) (curr + 24 + size) = headerAt x (curr + 24 + size) := fun x =>
          headerAt_congr fun i h1 _ => by
            rw [setFree_of_not_mem (by omega), setNext_of_not_mem (by omega), setSize_of_not_mem (by omega)]
        rw [hframe, headerAt_setFree, headerAt_setNext, headerAt_setSize]
        simp only [if_true]
        rw [Nat.mod_eq_of_lt hz64, show b.size + 2 * 2 ^ 64 - size - 24 =
          b.size - size - 24 + 2 * 2 ^ 64 by omega, Nat.add_mul_mod_self_right, Nat.mod_eq_of_lt (by omega)]
    · rw [if_neg hsplit, if_neg (by omega)]
      refine ⟨?_, trivial⟩
      rw [headerAt_setFree, hb]
      simp
  · intro i hi
    rw [carve, hb]
    dsimp only
    rw [setFree_of_not_mem (by omega), Nat.mod_eq_of_lt (by omega : size + 24 + 8 < 2 ^ 64)]
    split_ifs with hsplit
    · rw [Nat.mod_eq_of_lt (by omega : curr + 24 + size < 2 ^ 64)]
      rw [setNext_of_not_mem (by omega), setSize_of_not_mem (by omega), setFree_of_not_mem (by omega),
        setNext_of_not_mem (by omega), setSize_of_not_mem (by omega)]
    · rfl

/-- The coalescing pass merges the blocks from `a` on, and leaves the memory below alone. -/
lemma coalesce_spec (hv : h.Valid) {fuel : Nat} (hfuel : l.length < fuel)
    (hlinks : Links h.mem a (b :: l) 0) (hlo : h.base ≤ a) (hhi : a + extent 24 (b :: l) = h.base + h.size) :
    ∃ mem', coalesce h fuel a = some { h with mem := mem' } ∧
      Links mem' a (mergeAll 24 (b :: l)) 0 ∧ ∀ i < a, mem' i = h.mem i := by
  induction fuel generalizing h a b l with
  | zero => omega
  | succ fuel ih =>
    have hlo8 := hv.lo
    have hhi64 := hv.hi
    obtain ⟨hb, hrest⟩ := hlinks
    cases l with
    | nil =>
      refine ⟨h.mem, ?_, by rw [mergeAll_single]; exact ⟨hb, hrest⟩, fun _ _ => rfl⟩
      rw [coalesce, hb]
      exact if_pos (Or.inr rfl)
    | cons c l =>
      simp only [extent] at hhi
      simp only [length_cons] at hfuel
      have hc := hrest.1
      rw [if_neg (by simp)] at hb
      have hoka : blockInHeap h a = true := blockInHeap_of hv hlo (by rw [hb]; dsimp only; omega)
      have hokc : blockInHeap h (a + 24 + b.size) = true :=
        blockInHeap_of hv (by omega) (by rw [hc]; dsimp only; omega)
      rw [coalesce, hb]
      dsimp only
      rw [if_neg (by omega), if_neg (by simp [hoka, hokc]), hc, mergeAll_cons_cons]
      dsimp only
      rw [Nat.mod_eq_of_lt (by omega : a + 24 + b.size < 2 ^ 64)]
      by_cases hf : b.free = true ∧ c.free = true
      · rw [if_pos ⟨hf.1, hf.2, rfl⟩, if_pos hf]
        obtain ⟨z, hz⟩ : ∃ z, z = if l = [] then 0 else a + 24 + b.size + 24 + c.size := ⟨_, rfl⟩
        rw [← hz] at hc ⊢
        have hz64 : z < 2 ^ 64 := by
          rw [hz]
          split_ifs <;> omega
        obtain ⟨mem1, hmem1⟩ : ∃ m, m = setNext (setSize h.mem a (b.size + (24 + c.size))) a z :=
          ⟨_, rfl⟩
        rw [← hmem1]
        have hout : ∀ i, ¬ (a ≤ i ∧ i < a + 24) → mem1 i = h.mem i := fun i hi => by
          rw [hmem1, setNext_of_not_mem hi, setSize_of_not_mem hi]
        have hhead : headerAt mem1 a = ⟨b.size + 24 + c.size, z, true⟩ := by
          rw [hmem1, headerAt_setNext, headerAt_setSize, hb, hf.1, Nat.mod_eq_of_lt hz64,
            Nat.mod_eq_of_lt (by omega), ← add_assoc]
        have hlinks1 : Links mem1 a (⟨b.size + 24 + c.size, true⟩ :: l) 0 := by
          have haddr : a + 24 + (b.size + 24 + c.size) = a + 24 + b.size + 24 + c.size := by omega
          refine ⟨by rw [hhead, hz, haddr], ?_⟩
          rw [haddr]
          exact hrest.2.of_agree fun x hx _ => headerAt_of_outside hout (.inr (by omega))
        obtain ⟨mem2, hrun, hlinks2, hbelow⟩ :=
          ih (h := { h with mem := mem1 }) ⟨hv.lo, hv.hi⟩ (by omega) hlinks1 hlo
            (by simp only [extent]; omega)
        exact ⟨mem2, hrun, hlinks2, fun i hi => by rw [hbelow i hi]; exact hout i (by omega)⟩
      · rw [if_neg (by tauto), if_neg hf]
        obtain ⟨mem2, hrun, hlinks2, hbelow⟩ := ih hv (by omega) hrest (by omega)
          (by simp only [extent]; omega)
        refine ⟨mem2, hrun, ?_, fun i hi => hbelow i (by omega)⟩
        obtain ⟨d, l', hd, -⟩ := mergeAll_head 24 c l
        rw [hd] at hlinks2 ⊢
        refine ⟨?_, hlinks2⟩
        rw [if_neg (by simp), headerAt_congr fun i _ hi => hbelow i (by omega), hb]

end loops

/-! ### The invariant -/

/-- The blocks `l` are linked from `start` and tile the heap, no two neighbours are free, and blocks
start at multiples of eight. -/
structure KheapOk (h : Kheap) (l : List Blk) : Prop where
  valid : h.Valid
  start : h.start = h.base
  links : Links h.mem h.base l 0
  tiles : extent 24 l = h.size
  nonempty : l ≠ []
  compact : Compact l
  aligned : ∀ x ∈ (spans 24 h.base l).map Prod.fst, 8 ∣ x - h.base

section ops

variable {h : Kheap} {l : List Blk} {live : Nat → Option Nat} {i size : Nat}

lemma length_le_extent (l : List Blk) : l.length ≤ extent 24 l := by
  induction l with
  | nil => simp
  | cons b l ih =>
    rw [length_cons, extent]
    omega

lemma KheapOk.fuel (hok : KheapOk h l) : l.length < h.fuel := by
  have := length_le_extent l
  rw [hok.tiles] at this
  rw [Kheap.fuel]
  omega

lemma kheapOk_init (mem : Buf) {base : Nat} (hv : (kheapInit mem base size).Valid)
    (hsize : 24 ≤ size) : KheapOk (kheapInit mem base size) [⟨size - 24, true⟩] := by
  have h64 := hv.hi
  change base + size < 2 ^ 64 at h64
  refine ⟨hv, rfl, ⟨?_, trivial⟩, ?_, by simp, trivial, ?_⟩
  · change headerAt (setFree (setNext (setSize mem base _) base 0) base true) base = _
    rw [headerAt_setFree, headerAt_setNext, headerAt_setSize,
      show size + 2 ^ 64 - 24 = size - 24 + 2 ^ 64 by omega, Nat.add_mod_right, Nat.mod_eq_of_lt (by omega)]
    rfl
  · change 24 + (size - 24) + 0 = size
    omega
  · intro x hx
    obtain rfl : x = base := by simpa [spans, kheapInit] using hx
    change 8 ∣ x - x
    simp

lemma KheapOk.carve {l1 l2 : List Blk} {b : Blk} (hok : KheapOk h (l1 ++ b :: l2))
    (hb : b.free) (hsize : size ≤ b.size) (hdvd : 8 ∣ size) :
    KheapOk (carve h (h.base + extent 24 l1) size) (l1 ++ carved size b ++ l2) := by
  have hext : extent 24 (carved size b) = 24 + b.size := extent_carved size b
  refine ⟨⟨hok.valid.lo, hok.valid.hi⟩, hok.start, links_carve hok.valid hok.links hok.tiles hsize, ?_, ?_, ?_, ?_⟩
  · have := hok.tiles
    simp only [extent_append, extent, hext] at this ⊢
    change _ = h.size
    omega
  · rw [carved]
    split_ifs <;> simp
  · rw [append_assoc, carved]
    split_ifs
    · exact hok.compact.take hb size (.inr ⟨_, rfl⟩)
    · exact hok.compact.take hb b.size (.inl rfl)
  · intro x hx
    change x ∈ (spans 24 h.base _).map Prod.fst at hx
    have hal := hok.aligned
    simp only [spans_append, map_append, mem_append, extent_append, hext, spans, map_cons, mem_cons] at hx hal
    rcases hx with (hx | hx) | hx
    · exact hal x (.inl hx)
    · have hcurr := hal _ (.inr (.inl rfl))
      change 8 ∣ x - h.base
      rw [carved] at hx
      split_ifs at hx
      · simp only [spans, map_cons, map_nil, mem_cons, not_mem_nil, or_false] at hx
        rcases hx with rfl | rfl
        · exact hcurr
        · omega
      · simp only [spans, map_cons, map_nil, mem_cons, not_mem_nil, or_false] at hx
        rw [hx]
        exact hcurr
    · refine hal x (.inr (.inr ?_))
      rwa [show h.base + (extent 24 l1 + (24 + b.size)) = h.base + extent 24 l1 + 24 + b.size by
        omega] at hx

/-- Marking a block and coalescing keeps the invariant and the live blocks. -/
lemma KheapOk.free {l1 l2 : List Blk} {b : Blk} (hok : KheapOk h (l1 ++ b :: l2))
    (ht : Tracks 24 h.base (l1 ++ b :: l2) live) :
    ∃ h' l', coalesce { h with mem := setFree h.mem (h.base + extent 24 l1) true } h.fuel h.start =
        some h' ∧ h'.base = h.base ∧ h'.size = h.size ∧ KheapOk h' l' ∧
      Tracks 24 h.base l' (Function.update live (h.base + extent 24 l1 + 24) none) ∧
      liveSum l' = liveSum (l1 ++ ⟨b.size, true⟩ :: l2) := by
  have hfuel := hok.fuel
  have hb := (links_append.mp hok.links).2.1
  obtain ⟨mem1, hmem1⟩ : ∃ m, m = setFree h.mem (h.base + extent 24 l1) true := ⟨_, rfl⟩
  have hlinks1 : Links mem1 h.base (l1 ++ ⟨b.size, true⟩ :: l2) 0 := by
    have hrep := hok.links.replace mem1 (c := ⟨b.size, true⟩) (m := [])
    rw [append_assoc] at hrep
    refine hrep ⟨?_, trivial⟩ rfl fun i hi => ?_
    · rw [hmem1, headerAt_setFree, hb]
      simp
    · rw [hmem1]
      exact setFree_of_not_mem (by omega)
  obtain ⟨c, l0, hcl⟩ : ∃ c l0, l1 ++ (⟨b.size, true⟩ : Blk) :: l2 = c :: l0 := by
    cases l1 with
    | nil => exact ⟨_, _, rfl⟩
    | cons c l1 => exact ⟨c, _, rfl⟩
  have hlen : (l1 ++ b :: l2).length = (c :: l0).length := by
    rw [← hcl]
    simp
  have hext : extent 24 (c :: l0) = h.size := by
    rw [← hcl, ← hok.tiles]
    simp [extent]
  have haddr : ∀ x ∈ (spans 24 h.base (c :: l0)).map Prod.fst, 8 ∣ x - h.base := by
    rw [← hcl]
    have hal := hok.aligned
    simp only [spans_append, spans, map_append, map_cons] at hal ⊢
    exact hal
  rw [hcl] at hlinks1
  have hfuel0 : l0.length < h.fuel := by
    rw [hlen, length_cons] at hfuel
    omega
  obtain ⟨mem2, hrun, hlinks2, -⟩ := coalesce_spec (h := { h with mem := mem1 }) (a := h.base)
    ⟨hok.valid.lo, hok.valid.hi⟩ hfuel0 hlinks1 le_rfl (by rw [hext])
  refine ⟨{ h with mem := mem2 }, mergeAll 24 (c :: l0), ?_, rfl, rfl, ?_, ?_, ?_⟩
  · have hstart : h.start = h.base := hok.start
    rw [hstart] at hrun
    rw [← hmem1, hstart]
    exact hrun
  · refine ⟨⟨hok.valid.lo, hok.valid.hi⟩, hok.start, hlinks2, by rw [extent_mergeAll, hext], ?_,
      compact_mergeAll c l0, fun x hx => haddr x (addr_mergeAll c l0 hx)⟩
    obtain ⟨d, l', hd, -⟩ := mergeAll_head 24 c l0
    rw [hd]
    simp
  · have hrel := ht.release (by omega)
    rw [hcl] at hrel
    exact hrel.mergeAll
  · rw [liveSum_mergeAll, hcl]

lemma KheapOk.fit (hok : KheapOk h l) (ht : Tracks 24 h.base l live)
    (onBad : Nat → Nat) {n : Nat} (hdvd : 8 ∣ size) (hn : n ≤ size) : findFit h onBad size h.fuel h.start = some 0 ∨
    ∃ curr l', findFit h onBad size h.fuel h.start = some curr ∧ curr ≠ 0 ∧
      (curr + 24) % 2 ^ 64 = curr + 24 ∧ KheapOk (VibeOS.carve h curr size) l' ∧
      Tracks 24 h.base l' (Function.update live (curr + 24) (some n)) ∧
      liveSum l' = liveSum l + (headerAt (VibeOS.carve h curr size).mem curr).size := by
  have hlo := hok.valid.lo
  have hhi := hok.valid.hi
  have hfind := findFit_spec hok.valid onBad size hok.fuel hok.links le_rfl (by rw [hok.tiles])
  rw [if_neg hok.nonempty] at hfind
  rw [hok.start]
  rcases hfind with ⟨hnone, -⟩ | ⟨l1, b, l2, rfl, hb, hsize, hsome⟩
  · exact .inl hnone
  · have htiles := hok.tiles
    rw [extent_append, extent] at htiles
    have hok' := hok.carve hb hsize hdvd
    -- the first block of what is carved out is the allocation
    obtain ⟨s, r, hcarved, hs, hr⟩ : ∃ s r, carved size b = ⟨s, false⟩ :: r ∧ size ≤ s ∧ ∀ d ∈ r, d.free = true := by
      rw [carved]
      split_ifs
      · exact ⟨size, _, rfl, le_rfl, by simp⟩
      · exact ⟨b.size, [], rfl, hsize, by simp⟩
    have hext := extent_carved size b
    rw [hcarved] at hok' hext
    refine .inr ⟨_, _, hsome, by omega, Nat.mod_eq_of_lt (by omega), hok', ht.take hb hr hext (by omega), ?_⟩
    have hhead := hok'.links
    rw [append_assoc, cons_append] at hhead
    have hhead := (links_append.mp hhead).2.1
    change headerAt _ (h.base + extent 24 l1) = _ at hhead
    rw [hhead]
    simp only [liveSum_append, liveSum, hb, liveSum_of_free hr, if_true, Bool.false_eq_true, if_false]
    omega

lemma KheapOk.block (hok : KheapOk h l) (ht : Tracks 24 h.base l live)
    {p n : Nat} (hp : live p = some n) :
    ∃ l1 b l2, l = l1 ++ b :: l2 ∧ b.free = false ∧ p = h.base + extent 24 l1 + 24 ∧
      blockOfPtr p = h.base + extent 24 l1 ∧ blockInHeap h (blockOfPtr p) ∧ headerAt h.mem (blockOfPtr p) =
        ⟨b.size, if l2 = [] then 0 else h.base + extent 24 l1 + 24 + b.size, false⟩ := by
  obtain ⟨x, b, hx, hb, rfl, -⟩ := ht.block p n hp
  obtain ⟨l1, l2, rfl, rfl⟩ := split_of_mem hx
  have hhi := hok.valid.hi
  have htiles := hok.tiles
  rw [extent_append, extent] at htiles
  have hptr : blockOfPtr (h.base + extent 24 l1 + 24) = h.base + extent 24 l1 := by
    rw [blockOfPtr, show h.base + extent 24 l1 + 24 + 2 ^ 64 - 24 = h.base + extent 24 l1 + 2 ^ 64 by
      omega, Nat.add_mod_right, Nat.mod_eq_of_lt (by omega)]
  have hhead := (links_append.mp hok.links).2.1
  rw [hb] at hhead
  refine ⟨l1, b, l2, rfl, hb, rfl, hptr, ?_, by rw [hptr]; exact hhead⟩
  rw [hptr]
  exact blockInHeap_of hok.valid (by omega) (by rw [hhead]; dsimp only; omega)

end ops

end VibeOS
