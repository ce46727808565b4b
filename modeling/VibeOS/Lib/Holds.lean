import VibeOS.Lib.Bytes

/-!
# Bytes at a position of a buffer

`Holds b p l` says that the bytes `l` stand in `b` from position `p` on. The rules follow the list: a parser
that walks over a text built from parts is followed with `holds_append`, part by part.
-/

namespace VibeOS.Buf

variable {b : Buf} {p : Nat} {l l1 l2 : List UInt8} {a : UInt8}

/-- The bytes `l` stand in `b` from position `p` on. -/
def Holds (b : Buf) (p : Nat) (l : List UInt8) : Prop := b.slice p l.length = l

instance instDecidableHolds (b : Buf) (p : Nat) (l : List UInt8) : Decidable (Holds b p l) :=
  inferInstanceAs (Decidable (b.slice p l.length = l))

lemma holds_append : Holds b p (l1 ++ l2) ↔ Holds b p l1 ∧ Holds b (p + l1.length) l2 := by
  rw [Holds, List.length_append, slice_append, Holds, Holds]
  constructor
  · intro h
    exact List.append_inj h (length_slice b p _)
  · rintro ⟨h1, h2⟩
    rw [h1, h2]

lemma holds_cons : Holds b p (a :: l) ↔ b p = a ∧ Holds b (p + 1) l := by
  rw [← List.singleton_append, holds_append]
  have hone : Holds b p [a] ↔ b p = a := by
    rw [Holds, slice_eq_iff]
    constructor
    · rintro ⟨-, h⟩
      exact h 0 Nat.zero_lt_one
    · intro h
      refine ⟨rfl, fun k hk => ?_⟩
      obtain rfl : k = 0 := Nat.lt_one_iff.mp hk
      exact h
  rw [hone]
  rfl

lemma Holds.left (h : Holds b p (l1 ++ l2)) : Holds b p l1 := (holds_append.mp h).1

lemma Holds.right (h : Holds b p (l1 ++ l2)) : Holds b (p + l1.length) l2 := (holds_append.mp h).2

end VibeOS.Buf
