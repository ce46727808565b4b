import VibeOS.Lib.Bytes

/-!
# Computations that log what they read

A memory is a buffer of which the first `size` bytes are mapped. A tracked computation returns a value, or
faults, together with the ranges it read. `Reads n m a` says that `m` returns `a` and that every byte it
read lies below `n`; `Ensures n m Q` leaves the value open and states `Q` about it. The rules
`Reads.bind` and `Ensures.bind` follow the `do` notation, and `Memory.reads_load` is the rule for a read.
-/

namespace VibeOS

/-- A buffer of which the first `size` bytes are mapped. -/
structure Memory where
  bytes : Buf
  size : Nat

/-- A value, or `none` after a fault, with the ranges `(offset, length)` read on the way. -/
structure Tracked (α : Type) where
  reads : List (Nat × Nat)
  result : Option α

namespace Tracked

def ret {α : Type} (a : α) : Tracked α := ⟨[], some a⟩

def andThen {α β : Type} (m : Tracked α) (f : α → Tracked β) : Tracked β :=
  match m.result with
  | none => ⟨m.reads, none⟩
  | some a => ⟨m.reads ++ (f a).reads, (f a).result⟩

instance instMonadTracked : Monad Tracked where
  pure := ret
  bind := andThen

/-- A computation that does not return. -/
def fault {α : Type} : Tracked α := ⟨[], none⟩

/-- Every byte read lies below `n`. -/
def Within {α : Type} (n : Nat) (m : Tracked α) : Prop := ∀ r ∈ m.reads, ∀ k < r.2, r.1 + k < n

/-- The computation returns `a`, and every byte it read lies below `n`. -/
def Reads {α : Type} (n : Nat) (m : Tracked α) (a : α) : Prop := m.result = some a ∧ m.Within n

/-- The computation returns a value with `Q`, and every byte it read lies below `n`. -/
def Ensures {α : Type} (n : Nat) (m : Tracked α) (Q : α → Prop) : Prop := ∃ a, Reads n m a ∧ Q a

section rules

variable {α β : Type} {n : Nat}

lemma Reads.pure (a : α) : Reads n (Pure.pure a : Tracked α) a :=
  ⟨rfl, fun _ h => absurd h List.not_mem_nil⟩

lemma Reads.bind {m : Tracked α} {f : α → Tracked β} {a : α} {b : β} (hm : Reads n m a)
    (hf : Reads n (f a) b) : Reads n (m >>= f) b := by
  have hbind : m >>= f = ⟨m.reads ++ (f a).reads, (f a).result⟩ := by
    change andThen m f = _
    rw [andThen, hm.1]
  rw [hbind]
  refine ⟨hf.1, ?_⟩
  intro r hr
  rcases List.mem_append.mp hr with h | h
  · exact hm.2 r h
  · exact hf.2 r h

lemma Ensures.pure {Q : α → Prop} {a : α} (h : Q a) : Ensures n (Pure.pure a : Tracked α) Q :=
  ⟨a, .pure a, h⟩

lemma Ensures.bind {m : Tracked α} {f : α → Tracked β} {a : α} {Q : β → Prop} (hm : Reads n m a)
    (hf : Ensures n (f a) Q) : Ensures n (m >>= f) Q := by
  obtain ⟨b, hb, hQ⟩ := hf
  exact ⟨b, hm.bind hb, hQ⟩

/-- A computation that returns has returned from its first part. -/
lemma result_bind {m : Tracked α} {f : α → Tracked β} {b : β} (h : (m >>= f).result = some b) :
    ∃ a, m.result = some a ∧ (f a).result = some b := by
  change (andThen m f).result = some b at h
  rw [andThen] at h
  cases hm : m.result with
  | none =>
    rw [hm] at h
    cases h
  | some a =>
    rw [hm] at h
    exact ⟨a, rfl, h⟩

/-- The rule for `Reads` read backwards. -/
lemma Reads.of_bind {m : Tracked α} {f : α → Tracked β} {b : β} (h : Reads n (m >>= f) b) :
    ∃ a, Reads n m a ∧ Reads n (f a) b := by
  obtain ⟨a, hm, hf⟩ := result_bind h.1
  have hreads : (m >>= f).reads = m.reads ++ (f a).reads := by
    change (andThen m f).reads = _
    rw [andThen, hm]
  have hw := h.2
  rw [Within, hreads] at hw
  exact ⟨a, ⟨hm, fun r hr => hw r (List.mem_append_left _ hr)⟩, ⟨hf, fun r hr => hw r (List.mem_append_right _ hr)⟩⟩

lemma Reads.pure_iff {a b : α} : Reads n (Pure.pure a : Tracked α) b ↔ a = b := by
  refine ⟨fun h => Option.some.inj h.1, fun h => ?_⟩
  rw [h]
  exact .pure b

end rules

end Tracked

namespace Memory

open Tracked

/-- Read a range, from which `value` is computed. -/
def load {α : Type} (mem : Memory) (off len : Nat) (value : α) : Tracked α :=
  ⟨[(off, len)], if off + len ≤ mem.size then some value else none⟩

/-- The rule for a read: the range lies below `n`, and these bytes are mapped. -/
lemma reads_load {α : Type} {mem : Memory} {n off len : Nat} (hn : n ≤ mem.size)
    (h : off + len ≤ n) (value : α) : Reads n (mem.load off len value) value := by
  constructor
  · exact if_pos (by omega)
  · intro r hr k hk
    obtain rfl := List.mem_singleton.mp hr
    dsimp only at hk ⊢
    omega

lemma load_result {α : Type} {mem : Memory} {off len : Nat} {value a : α}
    (h : (mem.load off len value).result = some a) : value = a := by
  rw [load] at h
  dsimp only at h
  split_ifs at h
  exact Option.some.inj h

section

variable {α β : Type} {mem : Memory} {n off len : Nat} {value : α} {f : α → Tracked β}

/-- A read that is followed by a computation stays below `n` exactly if its range does and the rest does. -/
lemma reads_load_bind_iff (hn : n ≤ mem.size) (hlen : 0 < len) {b : β} :
    Reads n (mem.load off len value >>= f) b ↔ off + len ≤ n ∧ Reads n (f value) b := by
  refine ⟨fun h => ?_, fun h => (reads_load hn h.1 value).bind h.2⟩
  obtain ⟨a, ha, hf⟩ := h.of_bind
  obtain rfl := load_result ha.1
  have hlast := ha.2 (off, len) (List.mem_singleton.mpr rfl) (len - 1) (by dsimp only; omega)
  dsimp only at hlast
  exact ⟨by omega, hf⟩

lemma ensures_load_bind_iff (hn : n ≤ mem.size) (hlen : 0 < len) {Q : β → Prop} :
    Ensures n (mem.load off len value >>= f) Q ↔ off + len ≤ n ∧ Ensures n (f value) Q := by
  simp only [Ensures, reads_load_bind_iff hn hlen]
  exact ⟨fun ⟨b, hb, hQ⟩ => ⟨hb.1, b, hb.2, hQ⟩, fun ⟨h, b, hb, hQ⟩ => ⟨b, ⟨h, hb⟩, hQ⟩⟩

end

def copy (mem : Memory) (off len : Nat) : Tracked (List UInt8) := mem.load off len (mem.bytes.slice off len)

end Memory

end VibeOS
