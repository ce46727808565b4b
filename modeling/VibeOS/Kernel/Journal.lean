import VibeOS.Lib.BoundedText
import VibeOS.Lib.Digits
import VibeOS.Lib.Run

/-!
# The kernel journal

The ring of records of `journal.c` and the text that `journal_format_all` makes of it. The mirror on the serial line is
left out.

The formatter is a sequence of calls of `put_str`, `put_dec` and `put_hex`; a `Piece` is one such call, and its `text`
is what it is to append. `putPiece_holds` is the invariant of one call: the buffer has as much of the text as fits. It
fails for a number in hexadecimal that starts at the last place but one, where `put_hex` leaves out the `0x` and still
writes a digit; `journal_log_hex` does the same at the end of a message (`journal_fails`).

Other names are those of `kernel/src/journal.c`.
-/

namespace VibeOS.Journal

open List Function

def JOURNAL_MSG_MAX : Nat := 96

def JOURNAL_CAPACITY : Nat := 256

/-- The message is the text before its terminator.
Source: `kernel/include/journal.h` `struct journal_entry` -/
structure Entry where
  seq : UInt64
  tick : UInt64
  bootId : UInt64
  hz : UInt32
  level : UInt32
  pid : UInt32
  msg : List UInt8
deriving DecidableEq

/-- Source: `g_ring`, `g_next_seq`, `g_boot_id`, `g_persist_pending` -/
structure State where
  ring : Nat → Entry
  nextSeq : UInt64
  bootId : UInt64
  persistPending : Bool

/-- The ring is not cleared; the boot id is mixed from the stack and the clock. -/
def journalInit (ring : Nat → Entry) (bootId : UInt64) : State := ⟨ring, 0, bootId, false⟩

def cstring (s : List UInt8) : List UInt8 := s.takeWhile (· ≠ 0)

def copyMsg (src : List UInt8) : List UInt8 := (cstring src).take (JOURNAL_MSG_MAX - 1)

def journalLog (j : State) (tick : UInt64) (hz level pid : UInt32) (msg : List UInt8) : State :=
  { j with
    ring := update j.ring (j.nextSeq.toNat % JOURNAL_CAPACITY)
      ⟨j.nextSeq, tick, j.bootId, hz, level, pid, copyMsg msg⟩
    nextSeq := j.nextSeq + 1
    persistPending := j.persistPending || (1 ≤ level && level ≤ 4) }

/-- The digits of a number in base 16, or of one in base 10, as the local buffer `tmp` has them, read from its end. -/
def tmpDigits (base room v : Nat) : List UInt8 :=
  if v = 0 then [48] else ((digitLoop base room v).map (digitChar false)).reverse

/-- The message of `journal_log_hex`.
Source: `journal_log_hex` -/
def hexMsg (msg : List UInt8) (value : UInt64) : List UInt8 :=
  let buf := (cstring msg).take (JOURNAL_MSG_MAX - 1)
  let buf := if buf.length + 3 < JOURNAL_MSG_MAX then buf ++ ascii "0x" else buf
  buf ++ (tmpDigits 16 16 value.toNat).take (JOURNAL_MSG_MAX - 1 - buf.length)

def journalLogHex (j : State) (tick : UInt64) (hz level pid : UInt32) (msg : List UInt8) (value : UInt64) : State :=
  journalLog j tick hz level pid (hexMsg msg value)

def journalGet (j : State) (seq : UInt64) : Option Entry :=
  if seq.toNat ≥ j.nextSeq.toNat then none
  else if j.nextSeq.toNat > JOURNAL_CAPACITY ∧ seq.toNat < j.nextSeq.toNat - JOURNAL_CAPACITY then none
  else some (j.ring (seq.toNat % JOURNAL_CAPACITY))

/-! ### The formatter -/

def putDec (cap : Nat) (o : TextOut) (v : Nat) : TextOut := o.append cap (tmpDigits 10 24 v)

def putStr (cap : Nat) (o : TextOut) (s : List UInt8) : TextOut := o.append cap s

/-- The `0x` needs room for both, the digits do not wait for it. -/
def putHex (cap : Nat) (o : TextOut) (v : Nat) : TextOut :=
  let o := if o.pos + 2 < cap then o.append cap (ascii "0x") else o
  o.append cap (tmpDigits 16 16 v)

/-- What the text of the journal is put together from. -/
inductive Piece where
  | str (s : List UInt8)
  | dec (v : Nat)
  | hex (v : Nat)

def putPiece (cap : Nat) (o : TextOut) : Piece → TextOut
  | .str s => putStr cap o s
  | .dec v => putDec cap o v
  | .hex v => putHex cap o v

def tags : List String := ["INFO ", "WARN ", "ERROR", "FAULT", "APP  "]

/-- The calls for the first line.
Source: `journal_format_all` -/
def headerPieces (j : State) (timerHz : UInt32) : List Piece :=
  [.str (ascii "# VibeOS journal boot="), .hex j.bootId.toNat, .str (ascii " hz="), .dec timerHz.toNat,
    .str (ascii " total="), .dec j.nextSeq.toNat, .str [10]]

/-- The calls for a record.
Source: `journal_format_all` -/
def entryPieces (timerHz : UInt32) (e : Entry) : List Piece :=
  let hz := if e.hz.toNat ≠ 0 then e.hz.toNat else timerHz.toNat
  let ms := if hz ≠ 0 then e.tick.toNat % hz * 1000 / hz else 0
  [.str (ascii "[boot="), .hex e.bootId.toNat, .str (ascii " seq="), .dec e.seq.toNat, .str (ascii " tick="),
    .dec e.tick.toNat, .str (ascii " t="), .dec (if hz ≠ 0 then e.tick.toNat / hz else e.tick.toNat),
    .str (ascii "."), .str (if ms < 100 then ascii "0" else []), .str (if ms < 10 then ascii "0" else []), .dec ms,
    .str (ascii "s] "), .str (ascii (tags.getD e.level.toNat "?????")), .str (ascii " pid="), .dec e.pid.toNat,
    .str (ascii "  "), .str e.msg, .str [10]]

/-- The loop over the records, which stops when the buffer is full.
Source: `journal_format_all` -/
def formatLoop (cap : Nat) (timerHz : UInt32) (ring : Nat → Entry) : Nat → Nat → TextOut → TextOut
  | _, 0, o => o
  | s, n + 1, o =>
    if o.pos + 1 < cap then
      formatLoop cap timerHz ring (s + 1) n
        ((entryPieces timerHz (ring (s % JOURNAL_CAPACITY))).foldl (putPiece cap) o)
    else o

def journalFormatAll (j : State) (timerHz : UInt32) (buf : Buf) (cap : Nat) : Buf × Nat :=
  let start := if j.nextSeq.toNat > JOURNAL_CAPACITY then j.nextSeq.toNat - JOURNAL_CAPACITY else 0
  let o := (headerPieces j timerHz).foldl (putPiece cap) ⟨buf, 0⟩
  let o := formatLoop cap timerHz j.ring start (j.nextSeq.toNat - start) o
  (o.buf.putU8 (if o.pos < cap then o.pos else cap - 1) 0, o.pos)

/-! ### What is to be in the journal -/

/-- A call that appends an entry, with the time and the process at which it is made. -/
inductive LogCall where
  | log (tick : UInt64) (hz level pid : UInt32) (msg : List UInt8)
  | logHex (tick : UInt64) (hz level pid : UInt32) (msg : List UInt8) (value : UInt64)
deriving DecidableEq

def State.step (j : State) : LogCall → State
  | .log tick hz level pid msg => journalLog j tick hz level pid msg
  | .logHex tick hz level pid msg value => journalLogHex j tick hz level pid msg value

/-- The message that was logged, cut where the record ends. -/
def LogCall.message : LogCall → List UInt8
  | .log _ _ _ _ msg => (cstring msg).take (JOURNAL_MSG_MAX - 1)
  | .logHex _ _ _ _ msg value =>
    (cstring msg ++ ascii "0x" ++ numeral 16 false value.toNat).take (JOURNAL_MSG_MAX - 1)

def LogCall.entry (bootId : UInt64) (seq : Nat) (c : LogCall) : Entry :=
  match c with
  | .log tick hz level pid _ => ⟨UInt64.ofNat seq, tick, bootId, hz, level, pid, c.message⟩
  | .logHex tick hz level pid _ _ => ⟨UInt64.ofNat seq, tick, bootId, hz, level, pid, c.message⟩

/-- The message ends early enough for the `0x` behind it, or so late that nothing of the number is left. -/
def LogCall.Fits : LogCall → Prop
  | .log _ _ _ _ _ => True
  | .logHex _ _ _ _ msg value => ¬ ((cstring msg).length = 93 ∨ (cstring msg).length = 94 ∧ value ≠ 0)

instance LogCall.instDecidableFits : ∀ c : LogCall, Decidable c.Fits
  | .log _ _ _ _ _ => .isTrue trivial
  | .logHex _ _ _ _ _ _ => inferInstanceAs (Decidable (¬ _))

/-- The records that are kept, oldest first. -/
def kept (bootId : UInt64) (cs : List LogCall) : List Entry :=
  (cs.mapIdx (LogCall.entry bootId)).drop (cs.length - JOURNAL_CAPACITY)

def Piece.text : Piece → List UInt8
  | .str s => s
  | .dec v => numeral 10 false v
  | .hex v => ascii "0x" ++ numeral 16 false v

def textOf (ps : List Piece) : List UInt8 := ps.flatMap Piece.text

/-- No number in hexadecimal, other than 0, starts two places before the end of the buffer; `off` is where the pieces
start. -/
def NoCut (cap : Nat) : Nat → List Piece → Prop
  | _, [] => True
  | off, .hex v :: ps => ¬ (v ≠ 0 ∧ off + 2 = cap) ∧ NoCut cap (off + (Piece.hex v).text.length) ps
  | off, p :: ps => NoCut cap (off + p.text.length) ps

instance NoCut.instDecidable (cap : Nat) : ∀ (off : Nat) (ps : List Piece), Decidable (NoCut cap off ps)
  | _, [] => .isTrue trivial
  | off, .str s :: ps => instDecidable cap (off + (Piece.str s).text.length) ps
  | off, .dec v :: ps => instDecidable cap (off + (Piece.dec v).text.length) ps
  | off, .hex v :: ps =>
    have := instDecidable cap (off + (Piece.hex v).text.length) ps
    inferInstanceAs (Decidable (_ ∧ _))

def allPieces (j : State) (timerHz : UInt32) (es : List Entry) : List Piece :=
  headerPieces j timerHz ++ es.flatMap (entryPieces timerHz)

/-! ### The ring -/

lemma tmpDigits_eq {base room v : Nat} (hbase : 1 < base) (h : v < base ^ room) :
    tmpDigits base room v = numeral base false v := by
  unfold tmpDigits numeral
  rw [digitLoop_eq hbase h, map_reverse]

lemma hexMsg_message {msg : List UInt8} {value : UInt64}
    (h : ¬ ((cstring msg).length = 93 ∨ (cstring msg).length = 94 ∧ value ≠ 0)) :
    hexMsg msg value = (cstring msg ++ ascii "0x" ++ numeral 16 false value.toNat).take (JOURNAL_MSG_MAX - 1) := by
  have hmax : JOURNAL_MSG_MAX = 96 := rfl
  have hx : (ascii "0x").length = 2 := rfl
  unfold hexMsg
  dsimp only
  rw [tmpDigits_eq (by decide) (show value.toNat < 16 ^ 16 from value.toNat_lt)]
  generalize cstring msg = m at *
  by_cases hlong : 95 ≤ m.length
  · have hlen : (m.take (JOURNAL_MSG_MAX - 1)).length = 95 := by
      rw [length_take]
      omega
    rw [if_neg (by omega), hlen, hmax, take_zero, append_nil, append_assoc, take_append_of_le_length (by omega)]
  have htake : m.take (JOURNAL_MSG_MAX - 1) = m := take_of_length_le (by omega)
  rw [htake]
  by_cases hshort : m.length ≤ 92
  · -- the number goes behind the whole message
    have hboth : (m ++ ascii "0x").length ≤ JOURNAL_MSG_MAX - 1 := by
      rw [length_append, hx]
      omega
    rw [if_pos (by omega), take_append, take_of_length_le hboth]
  · -- only a zero is the same with and without its 0x
    obtain ⟨hm, rfl⟩ : m.length = 94 ∧ value = 0 := by
      by_contra hne
      apply h
      by_cases h93 : m.length = 93
      · exact .inl h93
      · exact .inr ⟨by omega, fun h0 => hne ⟨by omega, h0⟩⟩
    rw [if_neg (by omega), append_assoc, take_append, htake, hmax, hm]
    rfl

lemma copyMsg_of_text {s : List UInt8} (h : 0 ∉ s) (hlen : s.length ≤ JOURNAL_MSG_MAX - 1) : copyMsg s = s := by
  have hall : cstring s = s := by
    unfold cstring
    rw [takeWhile_eq_self_iff]
    intro c hc
    have : c ≠ 0 := fun h0 => h (h0 ▸ hc)
    simpa using this
  rw [copyMsg, hall, take_of_length_le hlen]

lemma zero_not_mem_cstring (s : List UInt8) : 0 ∉ cstring s := by
  intro h
  have := mem_takeWhile_imp h
  simp at this

lemma zero_not_mem_numeral (base : Nat) (v : Nat) (hbase : 1 < base) (h16 : base ≤ 16) : 0 ∉ numeral base false v := by
  have hdigit : ∀ d < 16, digitChar false d ≠ 0 := by decide
  unfold numeral
  split
  · decide
  · intro h
    obtain ⟨d, hd, h0⟩ := mem_map.mp h
    have hlt := Nat.digits_lt_base hbase (mem_reverse.mp hd)
    exact hdigit d (by omega) h0

lemma step_entry (j : State) (c : LogCall) (hc : c.Fits) : ∃ pending,
    j.step c = ⟨update j.ring (j.nextSeq.toNat % JOURNAL_CAPACITY) (c.entry j.bootId j.nextSeq.toNat),
      j.nextSeq + 1, j.bootId, pending⟩ := by
  cases c with
  | log tick hz level pid msg =>
    refine ⟨j.persistPending || (1 ≤ level && level ≤ 4), ?_⟩
    rw [State.step, journalLog, LogCall.entry, UInt64.ofNat_toNat]
    rfl
  | logHex tick hz level pid msg value =>
    have hmsg := hexMsg_message hc
    have hcopy : copyMsg (hexMsg msg value) = hexMsg msg value := by
      rw [hmsg]
      refine copyMsg_of_text (fun h => ?_) (length_take_le _ _)
      have hall := mem_of_mem_take h
      simp only [mem_append] at hall
      rcases hall with (h | h) | h
      · exact zero_not_mem_cstring msg h
      · revert h
        decide
      · exact zero_not_mem_numeral 16 _ (by decide) (by decide) h
    refine ⟨j.persistPending || (1 ≤ level && level ≤ 4), ?_⟩
    rw [State.step, journalLogHex, journalLog, hcopy, hmsg, LogCall.entry, UInt64.ofNat_toNat]
    rfl

/-- The ring holds the newest of the calls `cs`, each at its number modulo the capacity. -/
structure Records (ring : Nat → Entry) (bootId : UInt64) (cs : List LogCall) (j : State) : Prop where
  next : j.nextSeq.toNat = cs.length
  boot : j.bootId = bootId
  stored : ∀ s c, cs[s]? = some c → cs.length ≤ s + JOURNAL_CAPACITY → j.ring (s % JOURNAL_CAPACITY) = c.entry bootId s

lemma run_records (ring : Nat → Entry) (bootId : UInt64) (cs : List LogCall) (hlen : cs.length < 2 ^ 64)
    (hfits : ∀ c ∈ cs, c.Fits) : Records ring bootId cs (run State.step (journalInit ring bootId) cs) := by
  induction cs using List.reverseRecOn with
  | nil => exact ⟨rfl, rfl, fun s c h => by simp at h⟩
  | append_singleton cs c ih =>
    rw [length_append, length_singleton] at hlen
    have hcs := ih (by omega) fun c' hc' => hfits c' (mem_append_left _ hc')
    obtain ⟨pending, hstep⟩ := step_entry (run State.step (journalInit ring bootId) cs) c
      (hfits c (mem_append_right _ mem_cons_self))
    have hrun : run State.step (journalInit ring bootId) (cs ++ [c]) =
        (run State.step (journalInit ring bootId) cs).step c := by
      unfold run
      rw [foldl_append]
      rfl
    rw [hrun, hstep]
    refine ⟨?_, hcs.boot, fun s c' hs hkept => ?_⟩
    · rw [UInt64.toNat_add, hcs.next, length_append, length_singleton]
      exact Nat.mod_eq_of_lt hlen
    · rw [length_append, length_singleton] at hkept
      dsimp only
      rw [hcs.next, hcs.boot]
      by_cases hlast : s = cs.length
      · subst hlast
        rw [getElem?_append_right le_rfl, Nat.sub_self] at hs
        cases hs
        rw [update_self]
      · have hlt : s < cs.length := by
          have := List.getElem?_eq_some_iff.mp hs
          obtain ⟨hs', -⟩ := this
          rw [length_append, length_singleton] at hs'
          omega
        rw [getElem?_append_left hlt] at hs
        have hne : s % JOURNAL_CAPACITY ≠ cs.length % JOURNAL_CAPACITY := by
          unfold JOURNAL_CAPACITY at *
          omega
        rw [update_of_ne hne]
        exact hcs.stored s c' hs (by omega)

/-! ### The text -/

/-- A number that fits a 64-bit word. -/
def Piece.Small : Piece → Prop
  | .str _ => True
  | .dec v => v < 2 ^ 64
  | .hex v => v < 2 ^ 64

variable {text : List UInt8} {ps : List Piece}

lemma putPiece_holds {cap : Nat} {b0 : Buf} {o : TextOut} (h : o.Holds cap b0 text) {p : Piece}
    (hp : p.Small) (hcut : NoCut cap text.length (p :: ps)) : (putPiece cap o p).Holds cap b0 (text ++ p.text) := by
  cases p with
  | str s => exact h.append s
  | dec v =>
    have hv : v < 10 ^ 24 := lt_of_lt_of_le hp (by decide)
    rw [putPiece, putDec, tmpDigits_eq (by decide) hv]
    exact h.append _
  | hex v =>
    have hv : v < 16 ^ 16 := hp
    have hno : ¬ (v ≠ 0 ∧ text.length + 2 = cap) := hcut.1
    have hpos := h.pos
    rw [putPiece, putHex, tmpDigits_eq (by decide) hv, Piece.text]
    by_cases hroom : o.pos + 2 < cap
    · rw [if_pos hroom, ← append_assoc]
      exact (h.append _).append _
    · rw [if_neg hroom]
      by_cases hfull : cap ≤ o.pos + 1
      · have hsame : o.append cap (numeral 16 false v) = o := by
          rcases numeral 16 false v with _ | ⟨d, ds⟩
          · rfl
          · rw [TextOut.append, if_neg (by omega)]
        rw [hsame]
        exact h.full hfull _
      · -- the buffer ends behind the next byte, and the number is 0
        have hzero : v = 0 := by
          by_contra hne
          exact hno ⟨hne, by omega⟩
        subst hzero
        have hone := h.append [48]
        have hlast : cap ≤ (o.append cap [48]).pos + 1 := by
          have := hone.pos
          rw [length_append, length_singleton] at this
          omega
        have := hone.full hlast (ascii "x0")
        rw [append_assoc] at this
        exact this

lemma noCut_cons {cap off : Nat} {p : Piece} (h : NoCut cap off (p :: ps)) : NoCut cap (off + p.text.length) ps := by
  cases p with
  | str s => exact h
  | dec v => exact h
  | hex v => exact h.2

lemma noCut_append {cap off : Nat} {qs : List Piece} (h : NoCut cap off (ps ++ qs)) :
    NoCut cap off ps ∧ NoCut cap (off + (textOf ps).length) qs := by
  induction ps generalizing off with
  | nil => exact ⟨trivial, h⟩
  | cons p ps ih =>
    obtain ⟨hps, hqs⟩ := ih (noCut_cons h)
    have hlen : off + (textOf (p :: ps)).length = off + p.text.length + (textOf ps).length := by
      simp [textOf, add_assoc]
    rw [hlen]
    refine ⟨?_, hqs⟩
    cases p with
    | str s => exact hps
    | dec v => exact hps
    | hex v => exact ⟨h.1, hps⟩

lemma foldl_putPiece_holds {cap : Nat} {b0 : Buf} {o : TextOut} (h : o.Holds cap b0 text) (hps : ∀ p ∈ ps, p.Small)
    (hcut : NoCut cap text.length ps) :
    (ps.foldl (putPiece cap) o).Holds cap b0 (text ++ textOf ps) := by
  induction ps generalizing o text with
  | nil =>
    rw [textOf, flatMap_nil, append_nil]
    exact h
  | cons p ps ih =>
    have hp := putPiece_holds h (hps p mem_cons_self) hcut
    have hrest := noCut_cons hcut
    rw [← length_append] at hrest
    have := ih hp (fun q hq => hps q (mem_cons_of_mem _ hq)) hrest
    rwa [append_assoc] at this

lemma headerPieces_small (j : State) (timerHz : UInt32) : ∀ p ∈ headerPieces j timerHz, p.Small := by
  have h1 := j.bootId.toNat_lt
  have h2 := timerHz.toNat_lt
  have h3 := j.nextSeq.toNat_lt
  intro p hp
  simp only [headerPieces, mem_cons, not_mem_nil, or_false] at hp
  rcases hp with rfl | rfl | rfl | rfl | rfl | rfl | rfl <;> simp only [Piece.Small] <;> omega

lemma entryPieces_small (timerHz : UInt32) (e : Entry) : ∀ p ∈ entryPieces timerHz e, p.Small := by
  have hboot := e.bootId.toNat_lt
  have hseq := e.seq.toNat_lt
  have htick := e.tick.toNat_lt
  have hpid := e.pid.toNat_lt
  unfold entryPieces
  generalize (if e.hz.toNat ≠ 0 then e.hz.toNat else timerHz.toNat) = hz
  have hsec : (if hz ≠ 0 then e.tick.toNat / hz else e.tick.toNat) < 2 ^ 64 := by
    split
    · exact lt_of_le_of_lt (Nat.div_le_self _ _) htick
    · exact htick
  have hms : (if hz ≠ 0 then e.tick.toNat % hz * 1000 / hz else 0) < 2 ^ 64 := by
    split
    · next hz0 =>
      have hmod := Nat.mod_lt e.tick.toNat (Nat.pos_of_ne_zero hz0)
      have : e.tick.toNat % hz * 1000 / hz < 1000 := Nat.div_lt_of_lt_mul (by omega)
      omega
    · decide
  intro p hp
  simp only [mem_cons, not_mem_nil, or_false] at hp
  rcases hp with rfl | rfl | rfl | rfl | rfl | rfl | rfl | rfl | rfl | rfl | rfl | rfl | rfl | rfl | rfl | rfl | rfl |
    rfl | rfl
  all_goals first | trivial | exact hboot | exact hseq | exact htick | exact hsec | exact hms | skip
  exact lt_trans hpid (by decide)

lemma formatLoop_holds {cap : Nat} {b0 : Buf} (timerHz : UInt32) {ring : Nat → Entry} {s n : Nat} {o : TextOut}
    (h : o.Holds cap b0 text) {es : List Entry} (hes : es.length = n)
    (hring : ∀ k e, es[k]? = some e → ring ((s + k) % JOURNAL_CAPACITY) = e)
    (hcut : NoCut cap text.length (es.flatMap (entryPieces timerHz))) :
    (formatLoop cap timerHz ring s n o).Holds cap b0 (text ++ textOf (es.flatMap (entryPieces timerHz))) := by
  induction n generalizing s o text es with
  | zero =>
    rw [length_eq_zero_iff.mp hes, flatMap_nil, textOf, flatMap_nil, append_nil]
    exact h
  | succ n ih =>
    obtain ⟨e, es, rfl⟩ := exists_cons_of_length_eq_add_one hes
    rw [formatLoop]
    by_cases hroom : o.pos + 1 < cap
    · rw [if_pos hroom]
      obtain ⟨hcut1, hcut2⟩ := noCut_append hcut
      have he : ring (s % JOURNAL_CAPACITY) = e := by
        have := hring 0 e rfl
        rwa [add_zero] at this
      rw [he]
      have hline := foldl_putPiece_holds h (entryPieces_small timerHz e) hcut1
      rw [← length_append] at hcut2
      have hring' : ∀ k e', es[k]? = some e' → ring ((s + 1 + k) % JOURNAL_CAPACITY) = e' := by
        intro k e' hk
        have := hring (k + 1) e' (by simpa using hk)
        rwa [Nat.add_comm k 1, ← add_assoc] at this
      have := ih hline (by simpa using hes) hring' hcut2
      rw [append_assoc] at this
      rw [flatMap_cons, textOf, flatMap_append]
      exact this
    · rw [if_neg hroom]
      exact h.full (by omega) _

lemma getElem?_kept {bootId : UInt64} {cs : List LogCall} {k : Nat} {e : Entry}
    (h : (kept bootId cs)[k]? = some e) : ∃ c, cs[cs.length - JOURNAL_CAPACITY + k]? = some c ∧
      c.entry bootId (cs.length - JOURNAL_CAPACITY + k) = e := by
  unfold kept at h
  rw [getElem?_drop, getElem?_mapIdx, Option.map_eq_some_iff] at h
  exact h

/-- The journal holds the newest entries by their number, and its text is theirs, cut at the capacity of the buffer.
Source: `journal_log`, `journal_log_hex`, `journal_get`, `journal_format_all` -/
theorem journal_keeps_newest (ring : Nat → Entry) (bootId : UInt64) (cs : List LogCall) (hlen : cs.length < 2 ^ 64)
    (hfits : ∀ c ∈ cs, c.Fits) :
    let j := run State.step (journalInit ring bootId) cs
    (∀ seq : UInt64, journalGet j seq = if seq.toNat < cs.length ∧ cs.length ≤ seq.toNat + JOURNAL_CAPACITY then
        cs[seq.toNat]?.map (LogCall.entry bootId seq.toNat)
      else none) ∧
    ∀ (timerHz : UInt32) (buf : Buf) (cap : Nat), 1 ≤ cap → NoCut cap 0 (allPieces j timerHz (kept bootId cs)) →
      (journalFormatAll j timerHz buf cap).2 < cap ∧
      (journalFormatAll j timerHz buf cap).1 (journalFormatAll j timerHz buf cap).2 = 0 ∧
      (∀ i, cap ≤ i → (journalFormatAll j timerHz buf cap).1 i = buf i) ∧
      (journalFormatAll j timerHz buf cap).1.slice 0 (journalFormatAll j timerHz buf cap).2 =
        (textOf (allPieces j timerHz (kept bootId cs))).take (cap - 1) := by
  intro j
  have hj : Records ring bootId cs j := run_records ring bootId cs hlen hfits
  clear_value j
  refine ⟨fun seq => ?_, fun timerHz buf cap hcap hcut => ?_⟩
  · unfold journalGet
    rw [hj.next]
    by_cases hw : seq.toNat < cs.length ∧ cs.length ≤ seq.toNat + JOURNAL_CAPACITY
    · rw [if_pos hw, if_neg (by omega), if_neg (by omega), getElem?_eq_getElem hw.1, Option.map_some,
        hj.stored seq.toNat cs[seq.toNat] (getElem?_eq_getElem hw.1) hw.2]
    · rw [if_neg hw]
      by_cases hlate : seq.toNat ≥ cs.length
      · rw [if_pos hlate]
      · rw [if_neg hlate, if_pos (by omega)]
  · have hstart : (if j.nextSeq.toNat > JOURNAL_CAPACITY then j.nextSeq.toNat - JOURNAL_CAPACITY else 0) =
        cs.length - JOURNAL_CAPACITY := by
      rw [hj.next]
      split_ifs <;> omega
    have hcount : (kept bootId cs).length = j.nextSeq.toNat - (cs.length - JOURNAL_CAPACITY) := by
      rw [kept, length_drop, length_mapIdx, hj.next]
    have hring : ∀ k e, (kept bootId cs)[k]? = some e →
        j.ring ((cs.length - JOURNAL_CAPACITY + k) % JOURNAL_CAPACITY) = e := by
      intro k e hk
      obtain ⟨c, hc, he⟩ := getElem?_kept hk
      rw [hj.stored _ c hc (by omega), he]
    -- from here on only what these two say about the records that are kept
    generalize kept bootId cs = es at hcut hcount hring ⊢
    unfold allPieces at hcut ⊢
    obtain ⟨hcut1, hcut2⟩ := noCut_append hcut
    have hheader := foldl_putPiece_holds (TextOut.holds_start cap buf) (headerPieces_small j timerHz) hcut1
    rw [zero_add] at hcut2
    have hlines := formatLoop_holds timerHz hheader hcount hring hcut2
    have hpos := hlines.pos_lt hcap
    unfold journalFormatAll
    dsimp only
    rw [hstart, if_pos hpos]
    refine ⟨hpos, ?_, fun i hi => ?_, ?_⟩
    · exact Buf.blit_of_mem le_rfl (Nat.lt_succ_self _)
    · rw [Buf.putU8, Buf.blit_of_not_mem (by omega)]
      exact hlines.frame i (by omega)
    · rw [textOf, flatMap_append]
      refine Eq.trans (Buf.slice_congr fun k hk => ?_) hlines.text
      exact Buf.blit_of_not_mem (by omega)

def noEntry : Entry := ⟨0, 0, 0, 0, 0, 0, []⟩

def twoCalls : List LogCall := [.log 5 1000 0 1 (ascii "up"), .logHex 7 1000 3 2 (ascii "rip=") 255]

/-- The second of two records, and a buffer that ends inside the first line. -/
theorem journal_keeps_newest_two : journalGet (run State.step (journalInit (fun _ => noEntry) 1) twoCalls) 1 =
      some ⟨1, 7, 1, 1000, 3, 2, ascii "rip=0xff"⟩ ∧
    (journalFormatAll (run State.step (journalInit (fun _ => noEntry) 1) twoCalls) 1000 Buf.zero 40).1.slice 0
        (journalFormatAll (run State.step (journalInit (fun _ => noEntry) 1) twoCalls) 1000 Buf.zero 40).2 =
      ascii "# VibeOS journal boot=0x1 hz=1000 total" :=
  have h := journal_keeps_newest (fun _ => noEntry) 1 twoCalls (by decide) (by decide)
  ⟨(h.1 1).trans (by decide), (h.2 1000 Buf.zero 40 (by decide) (by decide)).2.2.2.trans (by decide)⟩

/-- With room for one byte behind `boot=` the text goes on with the first digit, and a message of 94 bytes with the
first digit of its number. -/
theorem journal_fails : (journalFormatAll (journalInit (fun _ => noEntry) 0x5649) 1000 Buf.zero 24).1.slice 0
        (journalFormatAll (journalInit (fun _ => noEntry) 0x5649) 1000 Buf.zero 24).2 =
      ascii "# VibeOS journal boot=5" ∧
    (textOf (allPieces (journalInit (fun _ => noEntry) 0x5649) 1000 [])).take 24 = ascii "# VibeOS journal boot=0x" ∧
    (journalGet (run State.step (journalInit (fun _ => noEntry) 1) [.logHex 0 0 0 0 (List.replicate 94 97) 5]) 0).map
        Entry.msg = some (List.replicate 94 97 ++ [53]) ∧
    (LogCall.logHex 0 0 0 0 (List.replicate 94 97) 5).message = List.replicate 94 97 ++ [48] := by
  decide

end VibeOS.Journal
