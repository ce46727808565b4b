import VibeOS.Lib.Holds
import VibeOS.Net.FrameBounds

/-!
# Names in DNS messages

A name on the wire is a list of labels, each after its length, that ends in a zero byte or in a pointer to
another name. `WireName` carries the bounds of its labels. `dns_encode_name` writes a host name in this form;
it is a scan of the host string, and `scanLabels_eq` says that it emits the labels between the dots one by
one. What it returns, what it writes and that the name can be read back then are facts about the list of
labels. The loop of the response parser that skips the name of a question passes every `WireName`
(`WireName.questionName`).
-/

namespace VibeOS

open Buf Tracked List

/-! ### Names on the wire -/

def labelBytes (l : List UInt8) : List UInt8 := UInt8.ofNat l.length :: l

def LabelOk (l : List UInt8) : Prop := 0 < l.length ∧ l.length ≤ 63

instance instDecidableLabelOk (l : List UInt8) : Decidable (LabelOk l) :=
  inferInstanceAs (Decidable (_ ∧ _))

/-- A name as it stands in a message: labels, and at the end a zero byte or the two bytes of a pointer. -/
structure WireName where
  labels : List (List UInt8)
  pointer : Option (UInt8 × UInt8)
  labels_ok : ∀ l ∈ labels, LabelOk l
  pointer_ok : ∀ q ∈ pointer, isPointer q.1 = true

def nameEnd : Option (UInt8 × UInt8) → List UInt8
  | none => [0]
  | some q => [q.1, q.2]

def WireName.bytes (w : WireName) : List UInt8 := w.labels.flatMap labelBytes ++ nameEnd w.pointer

lemma length_labelBytes (l : List UInt8) : (labelBytes l).length = l.length + 1 := rfl

/-- The length of a label is neither the end of a name nor the start of a pointer. -/
lemma LabelOk.byte {l : List UInt8} (h : LabelOk l) :
    (UInt8.ofNat l.length).toNat = l.length ∧ UInt8.ofNat l.length ≠ 0 ∧ isPointer (UInt8.ofNat l.length) = false := by
  obtain ⟨h1, h2⟩ := h
  have key : ∀ k : Fin 64, 0 < k.val → (UInt8.ofNat k.val).toNat = k.val ∧ UInt8.ofNat k.val ≠ 0 ∧
      isPointer (UInt8.ofNat k.val) = false := by decide
  exact key ⟨l.length, by omega⟩ h1

lemma isPointer_ne_zero {b : UInt8} (h : isPointer b) : b ≠ 0 := by
  rintro rfl
  exact absurd h (by decide)

lemma questionName_labels {b : Buf} {n e : Nat} {ls : List (List UInt8)} (hls : ∀ l ∈ ls, LabelOk l)
    {p : Nat} (hb : Holds b p (ls.flatMap labelBytes)) (hn : p + (ls.flatMap labelBytes).length ≤ n)
    (hend : QuestionName b n (p + (ls.flatMap labelBytes).length) e) : QuestionName b n p e := by
  induction ls generalizing p with
  | nil => exact hend
  | cons l ls ih =>
    obtain ⟨hval, hne, hptr⟩ := (hls l (mem_cons_self ..)).byte
    rw [flatMap_cons] at hb hn hend
    rw [length_append, length_labelBytes] at hn hend
    have hbyte : b p = UInt8.ofNat l.length := (holds_cons.mp hb.left).1
    have hrest := ih (p := p + (l.length + 1)) (fun l' h => hls l' (mem_cons_of_mem _ h)) hb.right
      (by omega) (by rwa [← add_assoc] at hend)
    refine .label p e (by omega) (by rwa [hbyte]) (by rwa [hbyte]) ?_
    rw [hbyte, hval]
    exact hrest

lemma WireName.questionName (w : WireName) {b : Buf} {n p : Nat} (hb : Holds b p w.bytes)
    (hn : p + w.bytes.length ≤ n) : QuestionName b n p (p + w.bytes.length) := by
  rw [WireName.bytes, length_append] at hn ⊢
  refine questionName_labels w.labels_ok hb.left (by omega) ?_
  have hend := hb.right
  cases hp : w.pointer with
  | none =>
    rw [hp] at hend hn
    exact .root _ (by simp only [nameEnd, length_singleton] at hn; omega) (holds_cons.mp hend).1
  | some q =>
    rw [hp] at hend hn
    have hq := w.pointer_ok q hp
    have hbyte : b (p + (w.labels.flatMap labelBytes).length) = q.1 := (holds_cons.mp hend).1
    refine .pointer _ ?_ ?_ ?_
    · simp only [nameEnd, length_cons] at hn
      omega
    · rw [hbyte]
      exact isPointer_ne_zero hq
    · rwa [hbyte]

/-! ### The encoder -/

/-- One label is written behind `dst`, unless it is empty, too long or does not fit. -/
def emitLabel (cap : Nat) (dst l : List UInt8) : Option (List UInt8) :=
  if l.length ≤ 0 ∨ l.length > 63 ∨ dst.length + l.length + 1 ≥ cap then none
  else some (dst ++ labelBytes l)

/-- The root label. The result is the returned length and the bytes written to the destination. -/
def emitRoot (cap : Nat) (dst : List UInt8) : Nat × List UInt8 :=
  if dst.length + 1 ≥ cap then (0, dst) else (dst.length + 1, dst ++ [0])

/-- The loop of `dns_encode_name`: `rest` is the text from `p` on and `seg` that from `seg` to `p`. The bytes
go to the destination in order, so `dst` lists those written so far. -/
def scanLabels (cap : Nat) : (rest seg dst : List UInt8) → Nat × List UInt8
  | [], seg, dst =>
    match emitLabel cap dst seg with
    | none => (0, dst)
    | some dst => emitRoot cap dst
  | c :: rest, seg, dst =>
    if c = 46 then
      match emitLabel cap dst seg with
      | none => (0, dst)
      | some dst => scanLabels cap rest [] dst
    else scanLabels cap rest (seg ++ [c]) dst

/-- `host` are the bytes before the terminating zero. The length of a label is an `int` in the source; one of
`2 ^ 31` bytes or more would be negative there and is refused as well, and a string of `2 ^ 32` bytes does not
fit in the memory the kernel maps.
Source: `kernel/src/net.c` -/
def dnsEncodeName (host : List UInt8) (dstCap : Nat) : Nat × List UInt8 := scanLabels dstCap host [] []

def decodeLabels : (fuel : Nat) → List UInt8 → List (List UInt8)
  | 0, _ => []
  | _ + 1, [] => []
  | fuel + 1, n :: rest => if n = 0 then [] else rest.take n.toNat :: decodeLabels fuel (rest.drop n.toNat)

/-- The labels of a host name, in the order of the text. -/
def hostLabels (host : List UInt8) : List (List UInt8) := host.splitOn 46

/-- The size of the encoding of a list of labels. -/
def encodedSize (ls : List (List UInt8)) : Nat := (ls.map fun l => l.length + 1).sum + 1

/-- A host name that has an encoding of at most 255 bytes. -/
def Encodable (host : List UInt8) : Prop :=
  (∀ l ∈ hostLabels host, LabelOk l) ∧ encodedSize (hostLabels host) ≤ 255

/-- The labels are written one after the other. -/
def emitLabels (cap : Nat) : (ls : List (List UInt8)) → (dst : List UInt8) → Nat × List UInt8
  | [], dst => emitRoot cap dst
  | l :: ls, dst =>
    match emitLabel cap dst l with
    | none => (0, dst)
    | some dst => emitLabels cap ls dst

lemma scanLabels_eq (cap : Nat) (rest seg dst : List UInt8) :
    scanLabels cap rest seg dst = emitLabels cap ((rest.splitOn 46).modifyHead (seg ++ ·)) dst := by
  induction rest generalizing seg dst with
  | nil =>
    rw [splitOn_nil, modifyHead_cons, append_nil]
    rfl
  | cons c rest ih =>
    rw [List.splitOn, splitOnP_cons_eq_if_modifyHead, scanLabels]
    by_cases hc : c = 46
    · rw [if_pos hc, if_pos (beq_iff_eq.mpr hc), modifyHead_cons, append_nil, emitLabels]
      cases emitLabel cap dst seg with
      | none => rfl
      | some dst' =>
        dsimp only
        rw [ih, List.splitOn]
        congr 1
        cases List.splitOnP (· == 46) rest <;> rfl
    · rw [if_neg hc, if_neg (by rwa [beq_iff_eq]), ih, List.splitOn, modifyHead_modifyHead]
      congr 2
      funext l
      simp

lemma dnsEncodeName_eq (host : List UInt8) (cap : Nat) :
    dnsEncodeName host cap = emitLabels cap (hostLabels host) [] := by
  rw [dnsEncodeName, scanLabels_eq, hostLabels]
  congr 1
  cases List.splitOn 46 host <;> rfl

lemma length_flatMap_labelBytes (ls : List (List UInt8)) :
    (ls.flatMap labelBytes).length = (ls.map fun l => l.length + 1).sum := by
  rw [length_flatMap]
  rfl

lemma emitLabels_spec (cap : Nat) (ls : List (List UInt8)) (dst : List UInt8) (hdst : dst.length < cap) :
    ((∀ l ∈ ls, LabelOk l) ∧ dst.length + encodedSize ls < cap ∧
        emitLabels cap ls dst = (dst.length + encodedSize ls, dst ++ ls.flatMap labelBytes ++ [0])) ∨
      (¬ ((∀ l ∈ ls, LabelOk l) ∧ dst.length + encodedSize ls < cap) ∧ (emitLabels cap ls dst).1 = 0 ∧
        (emitLabels cap ls dst).2.length ≤ cap) := by
  induction ls generalizing dst with
  | nil =>
    have hsize : encodedSize ([] : List (List UInt8)) = 1 := rfl
    rw [emitLabels, emitRoot, hsize]
    split_ifs with h
    · exact .inr ⟨fun hok => by omega, rfl, hdst.le⟩
    · exact .inl ⟨fun l hl => absurd hl not_mem_nil, by omega, by simp⟩
  | cons l ls ih =>
    have hsize : encodedSize (l :: ls) = l.length + 1 + encodedSize ls := by
      simp only [encodedSize, map_cons, sum_cons]
      omega
    rw [emitLabels, emitLabel, hsize]
    by_cases h : l.length ≤ 0 ∨ l.length > 63 ∨ dst.length + l.length + 1 ≥ cap
    · rw [if_pos h]
      refine .inr ⟨fun hok => ?_, rfl, hdst.le⟩
      have hl := hok.1 l (mem_cons_self ..)
      rw [LabelOk] at hl
      omega
    · rw [if_neg h]
      dsimp only
      have hlen : (dst ++ labelBytes l).length = dst.length + (l.length + 1) := by
        rw [length_append, length_labelBytes]
      have hl : LabelOk l := ⟨by omega, by omega⟩
      rcases ih (dst ++ labelBytes l) (by omega) with ⟨hok, hfit, heq⟩ | ⟨hno, hzero, hle⟩
      · refine .inl ⟨?_, by omega, ?_⟩
        · intro l' hl'
          rcases mem_cons.mp hl' with rfl | hl'
          · exact hl
          · exact hok l' hl'
        · rw [heq, hlen, flatMap_cons, append_assoc dst]
          congr 1
          omega
      · refine .inr ⟨fun hall => hno ⟨fun l' hl' => hall.1 l' (mem_cons_of_mem _ hl'), by omega⟩, hzero, hle⟩

lemma decodeLabels_flatMap {ls : List (List UInt8)} (hls : ∀ l ∈ ls, LabelOk l) {fuel : Nat}
    (hfuel : ls.length < fuel) : decodeLabels fuel (ls.flatMap labelBytes ++ [0]) = ls := by
  induction ls generalizing fuel with
  | nil =>
    obtain ⟨fuel, rfl⟩ : ∃ f, fuel = f + 1 := ⟨fuel - 1, by omega⟩
    rfl
  | cons l ls ih =>
    obtain ⟨fuel, rfl⟩ : ∃ f, fuel = f + 1 := ⟨fuel - 1, by omega⟩
    obtain ⟨hval, hne, -⟩ := (hls l (mem_cons_self ..)).byte
    rw [flatMap_cons, append_assoc, labelBytes, cons_append, decodeLabels, if_neg hne, hval,
      take_left, drop_left, ih (fun l' h => hls l' (mem_cons_of_mem _ h))
        (by rw [length_cons] at hfuel; omega)]

lemma length_le_flatMap (ls : List (List UInt8)) : ls.length ≤ (ls.flatMap labelBytes).length := by
  induction ls with
  | nil => exact le_rfl
  | cons l ls ih =>
    rw [flatMap_cons, length_append, length_labelBytes, length_cons]
    omega

/-- For every host string: a positive length is returned exactly for the encodable names; the bytes written
always lie in the destination; and the name that was written is read back as the host string and is passed
by the question loop of the response parser, wherever it stands. -/
theorem dns_encode_round_trip (host : List UInt8) :
    (0 < (dnsEncodeName host 256).1 ↔ Encodable host) ∧ (dnsEncodeName host 256).2.length ≤ 256 ∧
    (0 < (dnsEncodeName host 256).1 → (dnsEncodeName host 256).1 = (dnsEncodeName host 256).2.length ∧
      (dnsEncodeName host 256).1 = encodedSize (hostLabels host) ∧
      [46].intercalate (decodeLabels (dnsEncodeName host 256).1 (dnsEncodeName host 256).2) = host ∧
      ∀ (mem : Memory) (p : Nat), Holds mem.bytes p (dnsEncodeName host 256).2 →
        p + (dnsEncodeName host 256).1 ≤ mem.size → Reads (p + (dnsEncodeName host 256).1) (skipQuestions mem 1 p)
          (p + ((dnsEncodeName host 256).1 + 4))) := by
  rw [dnsEncodeName_eq]
  have hspec := emitLabels_spec 256 (hostLabels host) [] (by decide)
  rw [length_nil, zero_add, nil_append] at hspec
  rcases hspec with ⟨hok, hfit, heq⟩ | ⟨hno, hzero, hle⟩
  · have hsize : (hostLabels host |>.flatMap labelBytes).length + 1 = encodedSize (hostLabels host) := by
      rw [length_flatMap_labelBytes, encodedSize]
    rw [heq]
    rw [length_append, length_singleton, hsize]
    refine ⟨⟨fun _ => ⟨hok, by omega⟩, fun _ => by omega⟩, by omega, fun _ => ⟨rfl, rfl, ?_, ?_⟩⟩
    · rw [decodeLabels_flatMap hok (by have := length_le_flatMap (hostLabels host); omega), hostLabels]
      exact intercalate_splitOn 46
    · intro mem p hb hmem
      let w : WireName := ⟨hostLabels host, none, hok, fun q hq => absurd hq (by simp)⟩
      have hlen : w.bytes.length = encodedSize (hostLabels host) := by
        rw [← hsize]
        exact length_append
      have hname := w.questionName (n := p + encodedSize (hostLabels host)) hb (by rw [hlen])
      rw [hlen] at hname
      exact (skipQuestions_iff hmem).mpr (.one 0 p _ _ hname (.none _))
  · rw [hzero]
    refine ⟨⟨fun h => absurd h (lt_irrefl 0), fun h => absurd ⟨h.1, ?_⟩ hno⟩, hle, fun h => absurd h (lt_irrefl 0)⟩
    have := h.2
    omega

theorem dns_encode_round_trip_short : dnsEncodeName [97, 98, 46, 99] 256 = (6, [2, 97, 98, 1, 99, 0]) ∧
    Reads (20 + 6) (skipQuestions ⟨Buf.ofList (List.replicate 20 7 ++ [2, 97, 98, 1, 99, 0, 0, 1, 0, 1]), 64⟩ 1 20)
      (20 + (6 + 4)) := by
  have heq : dnsEncodeName [97, 98, 46, 99] 256 = (6, [2, 97, 98, 1, 99, 0]) := by decide
  have h := (dns_encode_round_trip [97, 98, 46, 99]).2.2
  exact ⟨heq, (h (by decide)).2.2.2 _ 20 (by decide) (by decide)⟩

end VibeOS
