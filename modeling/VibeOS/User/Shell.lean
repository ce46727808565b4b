import Mathlib

/-!
# The words of a command line

`parse_input` and `spawn_with_arguments` of the shell. A line is the list of its bytes; a store behind the 512 bytes of
`full_args` is `none`.

Names are those of `user/sh.c`.
-/

namespace VibeOS.Shell

open List

def isBlank (c : UInt8) : Bool := c = 32 ∨ c = 9

/-- The words from the slot `32 - n` on. -/
def parseInput : Nat → List UInt8 → List (List UInt8)
  | 0, _ => []
  | n + 1, line =>
    let p := line.dropWhile isBlank
    if p = [] then []
    else
      let word := (p.takeWhile (!isBlank ·)).take 127
      word :: parseInput n (p.drop word.length)

def strcat (dest src : List UInt8) : Option (List UInt8) :=
  if dest.length + src.length < 512 then some (dest ++ src) else none

/-- Source: `spawn_with_arguments` -/
def appendArg (dest : List UInt8) (arg : List UInt8 × Nat) : Option (List UInt8) := do
  let dest ← if arg.2 > 1 then strcat dest [32] else some dest
  strcat dest arg.1

/-- Source: `spawn_with_arguments` -/
def fullArgs (args : List (List UInt8)) : Option (List UInt8) := (args.tail.zipIdx 1).foldlM appendArg []

/-- The words that blanks separate. -/
def words (line : List UInt8) : List (List UInt8) := (line.splitOnP isBlank).filter (· ≠ [])

variable {line : List UInt8}

lemma words_blank {c : UInt8} (h : isBlank c) : words (c :: line) = words line := by
  simp [words, splitOnP_cons_eq_if_modifyHead, h]

lemma words_word {w : List UInt8} (hw : w ≠ []) (hp : ∀ c ∈ w, isBlank c = false) (h : ∀ c ∈ line.head?, isBlank c) :
    words (w ++ line) = w :: words line := by
  cases line with
  | nil => simp [words, splitOnP_eq_singleton hp, hw]
  | cons c line =>
    have hc := h c rfl
    rw [words_blank hc, words, splitOnP_append_cons_of_forall_mem hp _ hc]
    simp [words, hw]

lemma words_dropWhile (line : List UInt8) : words (line.dropWhile isBlank) = words line := by
  induction line with
  | nil => rfl
  | cons c line ih =>
    rw [dropWhile_cons]
    split_ifs with hc
    · rw [ih, words_blank hc]
    · rfl

lemma words_length (line : List UInt8) : ((words line).map (·.length + 1)).sum ≤ line.length + 1 := by
  have hall : ((line.splitOnP isBlank).map (·.length + 1)).sum = line.length + 1 := by
    induction line with
    | nil => rfl
    | cons c line ih =>
      rw [splitOnP_cons_eq_if_modifyHead]
      split_ifs
      · simp [ih, add_comm]
      · rcases hs : splitOnP isBlank line with _ | ⟨w, ws⟩
        · rw [hs] at ih
          simp at ih
        · rw [hs] at ih
          simp at ih ⊢
          omega
  exact (filter_sublist.map _).sum_le_sum (fun _ _ => Nat.zero_le _) |>.trans hall.le

lemma head?_dropWhile_false (f : UInt8 → Bool) {c : UInt8} (h : c ∈ (line.dropWhile f).head?) : f c = false := by
  have := head?_dropWhile_not f line
  rwa [Option.mem_def.mp h] at this

lemma parseInput_words {n : Nat} (hn : (words line).length ≤ n) (hs : ∀ w ∈ words line, w.length ≤ 127) :
    parseInput n line = words line := by
  induction n generalizing line with
  | zero => exact (length_eq_zero_iff.mp (Nat.le_zero.mp hn)).symm
  | succ n ih =>
    rw [← words_dropWhile] at hn hs ⊢
    unfold parseInput
    dsimp only
    have hc : ∀ c ∈ (line.dropWhile isBlank).head?, isBlank c = false := fun c => head?_dropWhile_false isBlank
    cases hp : line.dropWhile isBlank with
    | nil => rfl
    | cons c p =>
      rw [hp] at hn hs hc
      have hne : (c :: p).takeWhile (!isBlank ·) ≠ [] := by simp [hc c rfl]
      have hw : ∀ d ∈ (c :: p).takeWhile (!isBlank ·), isBlank d = false := fun d hd => by
        simpa using mem_takeWhile_imp hd
      have hr : ∀ d ∈ ((c :: p).dropWhile (!isBlank ·)).head?, isBlank d := fun d hd => by
        simpa using head?_dropWhile_false _ hd
      rw [if_neg (cons_ne_nil _ _)]
      rw [← takeWhile_append_dropWhile (p := (!isBlank ·)) (l := c :: p), words_word hne hw hr] at hn hs
      conv_rhs => rw [← takeWhile_append_dropWhile (p := (!isBlank ·)) (l := c :: p), words_word hne hw hr]
      rw [take_of_length_le (hs _ mem_cons_self),
        ← ih (Nat.le_of_succ_le_succ hn) fun w h => hs w (mem_cons_of_mem _ h)]
      congr 2
      exact (congrArg (drop _) takeWhile_append_dropWhile.symm).trans drop_left

/-- A stored word fits its slot. -/
lemma length_of_mem_parseInput {n : Nat} {w : List UInt8} (hw : w ∈ parseInput n line) : w.length ≤ 127 := by
  induction n generalizing line with
  | zero => cases hw
  | succ n ih =>
    unfold parseInput at hw
    dsimp only at hw
    split_ifs at hw
    · cases hw
    · rcases mem_cons.mp hw with rfl | hw
      · exact length_take_le _ _
      · exact ih hw

/-- What the second and later words add to `full_args`. -/
lemma foldlM_appendArg (ws : List (List UInt8)) {i : Nat} {dest : List UInt8} (hi : 1 < i)
    (h : dest.length + (ws.map (·.length + 1)).sum < 512) :
    (ws.zipIdx i).foldlM appendArg dest = some (dest ++ ws.flatMap (32 :: ·)) := by
  induction ws generalizing i dest with
  | nil => simp
  | cons w ws ih =>
    simp only [map_cons, sum_cons] at h
    have hstep : appendArg dest (w, i) = some (dest ++ 32 :: w) := by
      have h1 : dest.length + 1 < 512 := by omega
      have h2 : dest.length + 1 + w.length < 512 := by omega
      simp [appendArg, strcat, hi, h1, h2]
    rw [zipIdx_cons, foldlM_cons, hstep]
    simp only [Option.bind_eq_bind, Option.bind_some]
    rw [ih (by omega) (by rw [length_append, length_cons]; omega)]
    simp

lemma intercalate_blank (w : List UInt8) (ws : List (List UInt8)) :
    [32].intercalate (w :: ws) = w ++ ws.flatMap (32 :: ·) := by
  induction ws generalizing w with
  | nil => simp
  | cons v ws ih => simp [intercalate_cons_cons, ih]

/-- A line reaches the command as its words exactly when they are short: a longer one is stored in pieces. -/
theorem words_received (hl : line.length ≤ 511) (hn : (words line).length ≤ 32) :
    (parseInput 32 line = words line ∧
      fullArgs (parseInput 32 line) = some ([32].intercalate (words line).tail)) ↔
      ∀ w ∈ words line, w.length ≤ 127 := by
  refine ⟨fun h w hw => length_of_mem_parseInput (h.1 ▸ hw), fun hs => ?_⟩
  have hp := parseInput_words hn hs
  refine ⟨hp, ?_⟩
  have hlen := words_length line
  rw [hp, fullArgs]
  generalize words line = args at hlen
  rcases args with _ | ⟨cmd, _ | ⟨w, ws⟩⟩
  · rfl
  · rfl
  · simp only [map_cons, sum_cons] at hlen
    have hstep : appendArg [] (w, 1) = some w := by
      have h1 : w.length < 512 := by omega
      simp [appendArg, strcat, h1]
    rw [tail_cons, zipIdx_cons, foldlM_cons, hstep, intercalate_blank]
    exact foldlM_appendArg ws (by decide) (by omega)

theorem words_received_ls : fullArgs (parseInput 32 [108, 115, 32, 32, 97, 9, 98]) = some [97, 32, 98] :=
  ((@words_received [108, 115, 32, 32, 97, 9, 98] (by decide) (by decide)).mpr (by decide)).2

/-- A word of 128 bytes reaches the command as two. -/
theorem long_word_cut : words (replicate 128 97) = [replicate 128 97] ∧
    parseInput 32 (replicate 128 97) = [replicate 127 97, [97]] := by
  decide +kernel

end VibeOS.Shell
