import VibeOS.Lib.Bytes

/-!
# Text in a buffer of fixed size

A text is written piece by piece into a buffer of `cap` bytes, of which the last is kept for a terminator: a byte is
stored only while there is room for one more. `TextOut.Holds` says that the buffer has as much of a text as fits and
that nothing behind it was touched; appending bytes keeps it for the longer text (`TextOut.Holds.append`), wherever the
text is cut.
-/

namespace VibeOS

open List

def ascii (s : String) : List UInt8 := s.toList.map Char.toUInt8

/-- A text in a buffer, as far as it is written. -/
structure TextOut where
  buf : Buf
  pos : Nat

namespace TextOut

def append (cap : Nat) (o : TextOut) : List UInt8 → TextOut
  | [] => o
  | c :: cs => if o.pos + 1 < cap then append cap ⟨o.buf.putU8 o.pos c, o.pos + 1⟩ cs else o

/-- The buffer was `b0` and now has the beginning of `text`. -/
structure Holds (cap : Nat) (b0 : Buf) (o : TextOut) (text : List UInt8) : Prop where
  pos : o.pos = min text.length (cap - 1)
  text : o.buf.slice 0 o.pos = text.take (cap - 1)
  frame : ∀ j, cap - 1 ≤ j → o.buf j = b0 j

variable {cap : Nat} {b0 : Buf} {o : TextOut} {text : List UInt8}

lemma holds_start (cap : Nat) (b0 : Buf) : Holds cap b0 ⟨b0, 0⟩ [] := ⟨by simp, by simp, fun _ _ => rfl⟩

lemma Holds.full (h : Holds cap b0 o text) (hfull : cap ≤ o.pos + 1) (l : List UInt8) : Holds cap b0 o (text ++ l) := by
  have hpos := h.pos
  have hlen : cap - 1 ≤ text.length := by omega
  refine ⟨?_, ?_, h.frame⟩
  · rw [length_append]
    omega
  · rw [h.text, take_append_of_le_length hlen]

lemma Holds.push (h : Holds cap b0 o text) (hroom : o.pos + 1 < cap) (c : UInt8) :
    Holds cap b0 ⟨o.buf.putU8 o.pos c, o.pos + 1⟩ (text ++ [c]) := by
  have hpos := h.pos
  have htext := h.text
  have hlen : o.pos = text.length := by omega
  refine ⟨?_, ?_, fun j hj => ?_⟩
  · dsimp only
    rw [length_append, length_singleton]
    omega
  · rw [take_of_length_le (by omega)] at htext
    rw [take_of_length_le (by rw [length_append, length_singleton]; omega)]
    dsimp only
    rw [Buf.slice_append]
    congr 1
    · rw [← htext]
      exact Buf.slice_congr fun k hk => Buf.blit_of_not_mem (by omega)
    · simp [Buf.slice, Buf.putU8, Buf.blit]
  · dsimp only
    rw [Buf.putU8, Buf.blit_of_not_mem (by omega)]
    exact h.frame j hj

lemma Holds.append (h : Holds cap b0 o text) (l : List UInt8) : Holds cap b0 (o.append cap l) (text ++ l) := by
  induction l generalizing o text with
  | nil =>
    rw [append_nil]
    exact h
  | cons c cs ih =>
    rw [TextOut.append]
    by_cases hroom : o.pos + 1 < cap
    · rw [if_pos hroom, append_cons]
      exact ih (h.push hroom c)
    · rw [if_neg hroom]
      exact h.full (by omega) _

lemma Holds.pos_lt (h : Holds cap b0 o text) (hcap : 1 ≤ cap) : o.pos < cap := by
  have := h.pos
  omega

end TextOut

end VibeOS
