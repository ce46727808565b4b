import VibeOS.Lib.Bytes
import VibeOS.Lib.Growable
import VibeOS.Lib.Run

/-!
# Buffered streams

`stdio.c` puts one buffer between a `FILE` and its descriptor. The buffer holds read-ahead or pending
writes, never both, and `bufmode` says which. The descriptor is a byte array with a position
(`Descriptor`); it reads what is there, stores everything and seeks.

`Direct` performs every call on the array itself. The relation between the two (`Rel`) has one clause for each mode,
and each call keeps it and returns the same (`step_sim`), except that a seek with an unknown `whence` sets the error
flag, after which `fread` returns nothing until the stream is rewound.

Other names are those of `user/libc/stdio.c`.
-/

namespace VibeOS

namespace Stdio

open Buf Growable List

/-! ### The descriptor -/

/-- An open file with its contents and its position. -/
structure Descriptor where
  bytes : List UInt8
  pos : Nat
deriving DecidableEq

def Descriptor.read (fd : Descriptor) (count : Nat) : List UInt8 × Descriptor :=
  (window fd.bytes fd.pos count, { fd with pos := fd.pos + (window fd.bytes fd.pos count).length })

/-- A write of nothing does not extend the array. -/
def Descriptor.write (fd : Descriptor) (data : List UInt8) : Descriptor :=
  if data = [] then fd else ⟨overwrite fd.bytes fd.pos data, fd.pos + data.length⟩

/-- A negative position becomes 0; a seek with an unknown `whence` fails.
Source: `kernel/src/process.c` `SYS_SEEK` -/
def Descriptor.lseek (fd : Descriptor) (offset whence : Int) : Int × Descriptor :=
  if whence = 0 ∨ whence = 1 ∨ whence = 2 then
    let target := (if whence = 0 then 0 else if whence = 1 then (fd.pos : Int) else fd.bytes.length) + offset
    (target.toNat, { fd with pos := target.toNat })
  else (-1, fd)

/-! ### The stream -/

/-- Source: `_B_IDLE`, `_B_READ`, `_B_WRITE` -/
inductive BufMode where
  | idle
  | read
  | write
deriving DecidableEq

/-- A stream opened in `r+` or `w+`; `bufcap` is `0` when there is no buffer. The fields `eof` and `err`
are the flags `_F_EOF` and `_F_ERR`.
Source: `user/libc/include/stdio.h` -/
structure FILE where
  fd : Descriptor
  bufmode : BufMode
  buf : Buf
  bufcap : Nat
  bufpos : Nat
  buflen : Nat
  eof : Bool
  err : Bool

def fopen (bytes : List UInt8) (buf : Buf) (bufcap : Nat) : FILE :=
  ⟨⟨bytes, 0⟩, .idle, buf, bufcap, 0, 0, false, false⟩

def flushWrite (f : FILE) : FILE :=
  if f.bufmode ≠ .write ∨ f.bufpos = 0 then f
  else { f with fd := f.fd.write (slice f.buf 0 f.bufpos), bufpos := 0 }

def discardRead (f : FILE) : FILE :=
  { f with
    fd := if f.bufmode = .read ∧ f.buflen > f.bufpos then
        (f.fd.lseek (-((f.buflen - f.bufpos : Nat) : Int)) 1).2
      else f.fd
    bufpos := 0
    buflen := 0 }

/-- The loop of `fread`. A round copies at least one byte or is a refill before such a round.
Source: `fread` -/
def freadLoop (want : Nat) : Nat → FILE → List UInt8 → List UInt8 × FILE
  | 0, f, out => (out, f)
  | fuel + 1, f, out =>
    if out.length < want then
      if f.bufpos < f.buflen then
        let n := min (want - out.length) (f.buflen - f.bufpos)
        freadLoop want fuel { f with bufpos := f.bufpos + n } (out ++ slice f.buf f.bufpos n)
      else if f.bufcap ≠ 0 then
        let r := f.fd.read f.bufcap
        if r.1 = [] then (out, { f with fd := r.2, eof := true })
        else freadLoop want fuel
          { f with fd := r.2, buf := f.buf.putList 0 r.1, buflen := r.1.length, bufpos := 0 } out
      else
        let r := f.fd.read (want - out.length)
        if r.1 = [] then (out, { f with fd := r.2, eof := true })
        else freadLoop want fuel { f with fd := r.2 } (out ++ r.1)
    else (out, f)

/-- The number of items, the bytes stored, and the stream. -/
def fread (f : FILE) (size nmemb : Nat) : (Nat × List UInt8) × FILE :=
  if f.err then ((0, []), f)
  else if size * nmemb = 0 then ((0, []), f)
  else
    let f := if f.bufmode = .write then flushWrite f else f
    let r := freadLoop (size * nmemb) (2 * (size * nmemb) + 1) { f with bufmode := .read } []
    ((r.1.length / size, r.1), r.2)

/-- The loop of `fwrite`; the second result is what is left to write.
Source: `fwrite` -/
def fwriteLoop : Nat → FILE → List UInt8 → FILE × List UInt8
  | 0, f, rest => (f, rest)
  | fuel + 1, f, rest =>
    if rest ≠ [] then
      let g := if f.bufcap - f.bufpos = 0 then flushWrite f else f
      let space := if f.bufcap - f.bufpos = 0 then f.bufcap else f.bufcap - f.bufpos
      let n := min rest.length space
      fwriteLoop fuel { g with buf := g.buf.putList g.bufpos (rest.take n), bufpos := g.bufpos + n }
        (rest.drop n)
    else (f, rest)

def fwrite (f : FILE) (ptr : Buf) (size nmemb : Nat) : Nat × FILE :=
  if size * nmemb = 0 then (0, f)
  else
    let f := if f.bufmode = .read then discardRead f else f
    let f := { f with bufmode := .write }
    if f.bufcap = 0 then (nmemb, { f with fd := f.fd.write (slice ptr 0 (size * nmemb)) })
    else
      let r := fwriteLoop (size * nmemb) f (slice ptr 0 (size * nmemb))
      ((size * nmemb - r.2.length) / size, r.1)

def fseek (f : FILE) (offset whence : Int) : Int × FILE :=
  let f := { discardRead (flushWrite f) with bufmode := .idle }
  let r := f.fd.lseek offset whence
  if r.1 < 0 then (-1, { f with fd := r.2, err := true }) else (0, { f with fd := r.2, eof := false })

def ftell (f : FILE) : Int :=
  match f.bufmode with
  | .read => (f.fd.pos : Int) - ((f.buflen - f.bufpos : Nat) : Int)
  | .write => (f.fd.pos : Int) + (f.bufpos : Int)
  | .idle => f.fd.pos

def rewind (f : FILE) : FILE := { (fseek f 0 0).2 with err := false }

def fgetc (f : FILE) : Int × FILE :=
  let r := fread f 1 1
  if r.1.1 ≠ 1 then (-1, r.2) else ((r.1.2.headD 0).toNat, r.2)

/-- The loop of `fgets` over a way to get a character; the first argument counts down from `n - 1`.
Source: `fgets` -/
def fgetsLoop {σ : Type} (getc : σ → Int × σ) : Nat → σ → List UInt8 → Option (List UInt8) × σ
  | 0, s, buf => (some buf, s)
  | k + 1, s, buf =>
    let r := getc s
    if r.1 = -1 then (if buf = [] then none else some buf, r.2)
    else if r.1 = 10 then (some (buf ++ [UInt8.ofNat r.1.toNat]), r.2)
    else fgetsLoop getc k r.2 (buf ++ [UInt8.ofNat r.1.toNat])

def sinkFd (s : Descriptor × List UInt8) (c : UInt8) : Descriptor × List UInt8 :=
  if (s.2 ++ [c]).length = 256 then (s.1.write (s.2 ++ [c]), []) else (s.1, s.2 ++ [c])

/-- The characters that `format` emits go to the descriptor in pieces of 256. -/
def vdprintf (fd : Descriptor) (text : List UInt8) : Descriptor :=
  let s := text.foldl sinkFd (fd, [])
  s.1.write s.2

def vfprintf (f : FILE) (text : List UInt8) : FILE :=
  let f := if f.bufmode = .write then flushWrite f else if f.bufmode = .read then discardRead f else f
  { f with bufmode := .idle, fd := vdprintf f.fd text }

def fclose (f : FILE) : List UInt8 := (flushWrite f).fd.bytes

/-! ### The calls -/

/-- A call on a stream. `fputs` gets the bytes before the zero, `fprintf` the characters its format gives. -/
inductive Call where
  | fread (size nmemb : Nat)
  | fwrite (ptr : Buf) (size nmemb : Nat)
  | fgetc
  | fputc (c : Int)
  | fgets (n : Nat)
  | fputs (s : List UInt8)
  | fprintf (text : List UInt8)
  | fseek (offset whence : Int)
  | ftell
  | rewind
  | fflush

/-- What a call returns, and the bytes it stores for its caller. -/
structure Reply where
  ret : Int
  bytes : List UInt8
deriving DecidableEq

/-- `(unsigned char)c` -/
def uchar (c : Int) : UInt8 := UInt8.ofNat (c % 256).toNat

/-- `fgets` returns its buffer or no pointer. -/
def lineReply : Option (List UInt8) → Reply
  | none => ⟨0, []⟩
  | some line => ⟨1, line⟩

/-- A call on the buffered stream.
Source: `user/libc/stdio.c` -/
def FILE.call (f : FILE) : Call → Reply × FILE
  | .fread size nmemb => (⟨(fread f size nmemb).1.1, (fread f size nmemb).1.2⟩, (fread f size nmemb).2)
  | .fwrite ptr size nmemb => (⟨(fwrite f ptr size nmemb).1, []⟩, (fwrite f ptr size nmemb).2)
  | .fgetc => (⟨(fgetc f).1, []⟩, (fgetc f).2)
  | .fputc c =>
    let r := fwrite f (ofList [uchar c]) 1 1
    (⟨if r.1 = 1 then c else -1, []⟩, r.2)
  | .fgets n =>
    if n ≤ 1 then (lineReply none, f)
    else (lineReply (fgetsLoop Stdio.fgetc (n - 1) f []).1, (fgetsLoop Stdio.fgetc (n - 1) f []).2)
  | .fputs s =>
    let r := fwrite f (ofList s) 1 s.length
    (⟨if r.1 = s.length then 0 else -1, []⟩, r.2)
  | .fprintf text => (⟨text.length, []⟩, vfprintf f text)
  | .fseek offset whence => (⟨(fseek f offset whence).1, []⟩, (fseek f offset whence).2)
  | .ftell => (⟨ftell f, []⟩, f)
  | .rewind => (⟨0, []⟩, rewind f)
  | .fflush => (⟨0, []⟩, flushWrite f)

/-- The array with its position and the end-of-file flag, without a buffer. -/
structure Direct where
  fd : Descriptor
  eof : Bool

/-- Read up to `want` bytes. -/
def Direct.get (d : Direct) (want : Nat) : List UInt8 × Direct :=
  ((d.fd.read want).1, ⟨(d.fd.read want).2, d.eof || decide ((d.fd.read want).1.length < want)⟩)

def Direct.put (d : Direct) (data : List UInt8) : Direct := { d with fd := d.fd.write data }

def Direct.getc (d : Direct) : Int × Direct :=
  match (d.get 1).1 with
  | [] => (-1, (d.get 1).2)
  | c :: _ => (c.toNat, (d.get 1).2)

def Direct.seek (d : Direct) (offset whence : Int) : Int × Direct :=
  if (d.fd.lseek offset whence).1 < 0 then (-1, d) else (0, ⟨(d.fd.lseek offset whence).2, false⟩)

def Direct.call (d : Direct) : Call → Reply × Direct
  | .fread size nmemb =>
    let r := d.get (size * nmemb)
    (⟨(r.1.length / size : Nat), r.1⟩, r.2)
  | .fwrite ptr size nmemb =>
    (⟨if size * nmemb = 0 then 0 else nmemb, []⟩, d.put (slice ptr 0 (size * nmemb)))
  | .fgetc => (⟨d.getc.1, []⟩, d.getc.2)
  | .fputc c => (⟨c, []⟩, d.put [uchar c])
  | .fgets n =>
    if n ≤ 1 then (lineReply none, d)
    else (lineReply (fgetsLoop Direct.getc (n - 1) d []).1, (fgetsLoop Direct.getc (n - 1) d []).2)
  | .fputs s => (⟨0, []⟩, d.put s)
  | .fprintf text => (⟨text.length, []⟩, d.put text)
  | .fseek offset whence => (⟨(d.seek offset whence).1, []⟩, (d.seek offset whence).2)
  | .ftell => (⟨d.fd.pos, []⟩, d)
  | .rewind => (⟨0, []⟩, (d.seek 0 0).2)
  | .fflush => (⟨0, []⟩, d)

/-! ### The buffer and the array -/

/-- Bytes `f` has read ahead are the ones before the position of its descriptor. -/
structure Unread (f : FILE) (d : Direct) : Prop where
  le : f.bufpos ≤ f.buflen
  bytes : f.fd.bytes = d.fd.bytes
  pos : f.fd.pos = d.fd.pos + (f.buflen - f.bufpos)
  ahead : slice f.buf f.bufpos (f.buflen - f.bufpos) = window d.fd.bytes d.fd.pos (f.buflen - f.bufpos)

/-- Bytes `f` has not written yet are missing from the array. -/
structure Pending (f : FILE) (d : Direct) : Prop where
  len : f.buflen = 0
  le : f.bufpos ≤ f.bufcap
  fd : f.fd.write (slice f.buf 0 f.bufpos) = d.fd

/-- Nothing is in the buffer. -/
structure Settled (f : FILE) (d : Direct) : Prop where
  pos : f.bufpos = 0
  len : f.buflen = 0
  fd : f.fd = d.fd

/-- The stream `f` stands for the array `d`. -/
structure Rel (f : FILE) (d : Direct) : Prop where
  eof : f.eof = d.eof
  idle : f.bufmode = .idle → Settled f d
  read : f.bufmode = .read → Unread f d
  write : f.bufmode = .write → Pending f d

section descriptor

variable (fd : Descriptor)

@[simp] lemma write_nil : fd.write [] = fd := if_pos rfl

lemma write_append (a b : List UInt8) : (fd.write a).write b = fd.write (a ++ b) := by
  by_cases ha : a = []
  · rw [ha, write_nil, nil_append]
  by_cases hb : b = []
  · rw [hb, write_nil, append_nil]
  have hab : a ++ b ≠ [] := fun h => ha (append_eq_nil_iff.mp h).1
  rw [Descriptor.write, if_neg hb, Descriptor.write, if_neg ha, Descriptor.write, if_neg hab,
    Descriptor.mk.injEq, length_append]
  refine ⟨ext_getD ?_ fun i _ => ?_, by dsimp only; omega⟩
  · simp only [length_overwrite, length_append]
    omega
  · simp only [getD_overwrite, length_append]
    by_cases h1 : fd.pos + a.length ≤ i ∧ i < fd.pos + a.length + b.length
    · rw [if_pos h1, if_pos (by omega), getD_append_right _ _ _ _ (by omega)]
      congr 1
      omega
    · rw [if_neg h1]
      by_cases h2 : fd.pos ≤ i ∧ i < fd.pos + a.length
      · rw [if_pos h2, if_pos (by omega), getD_append _ _ _ _ (by omega)]
      · rw [if_neg h2, if_neg (by omega)]

lemma vdprintf_eq (text : List UInt8) : vdprintf fd text = fd.write text := by
  have hfold : ∀ (text : List UInt8) (s : Descriptor × List UInt8),
      (text.foldl sinkFd s).1.write (text.foldl sinkFd s).2 = s.1.write (s.2 ++ text) := by
    intro text
    induction text with
    | nil => exact fun s => by rw [foldl_nil, append_nil]
    | cons c text ih =>
      intro s
      rw [foldl_cons, ih, sinkFd]
      split_ifs
      · rw [nil_append, write_append, append_assoc, singleton_append]
      · rw [append_assoc, singleton_append]
  exact hfold text (fd, [])

lemma lseek_of_neg {offset whence : Int} (h : (fd.lseek offset whence).1 < 0) : (fd.lseek offset whence).2 = fd := by
  rw [Descriptor.lseek] at h ⊢
  by_cases hw : whence = 0 ∨ whence = 1 ∨ whence = 2
  · rw [if_pos hw] at h
    exact absurd h (not_lt.mpr (Int.natCast_nonneg _))
  · rw [if_neg hw]

end descriptor

section window

variable {l : List UInt8} {p a b : Nat}

lemma window_add (l : List UInt8) (p a b : Nat) : window l p (a + b) = window l p a ++ window l (p + a) b := by
  rw [window, window, window, take_add, drop_drop]

lemma window_length_self (l : List UInt8) (p a : Nat) : window l p (window l p a).length = window l p a := by
  rw [length_window, window, window, take_eq_take_iff, length_drop]
  omega

end window

section stream

variable {f : FILE} {d : Direct}

lemma get_add (d : Direct) {a : Nat} (b : Nat) (h : (window d.fd.bytes d.fd.pos a).length = a) :
    d.get (a + b) = ((d.get a).1 ++ ((d.get a).2.get b).1, ((d.get a).2.get b).2) := by
  simp only [Direct.get, Descriptor.read, window_add, length_append, h, lt_irrefl, decide_false,
    Bool.or_false, Nat.add_lt_add_iff_left, add_assoc]

lemma get_zero (d : Direct) : d.get 0 = ([], d) := by
  simp [Direct.get, Descriptor.read, window]

lemma get_of_end (d : Direct) {n want : Nat} (hn : 0 < n) (hw : 0 < want) (h : (d.fd.read n).1 = []) :
    d.get want = ([], ⟨d.fd, true⟩) ∧ (d.fd.read n).2 = d.fd := by
  have hnil : window d.fd.bytes d.fd.pos n = [] := h
  have hlen := congrArg List.length hnil
  rw [length_window, length_nil] at hlen
  have hrest : window d.fd.bytes d.fd.pos want = [] := by
    rw [← length_eq_zero_iff, length_window]
    omega
  constructor
  · simp [Direct.get, Descriptor.read, hrest, hw]
  · rw [Descriptor.read, hnil]
    rfl

lemma settled_flush (h : Pending f d) (hm : f.bufmode = .write) : Settled (flushWrite f) d := by
  rw [flushWrite]
  by_cases h0 : f.bufpos = 0
  · rw [if_pos (Or.inr h0)]
    have hfd := h.fd
    rw [h0, slice_zero, write_nil] at hfd
    exact ⟨h0, h.len, hfd⟩
  · rw [if_neg (by simp [hm, h0])]
    exact ⟨rfl, h.len, h.fd⟩

lemma Unread.fd_eq (h : Unread f d) (hk : f.buflen - f.bufpos = 0) : f.fd = d.fd := by
  rw [show f.fd = ⟨f.fd.bytes, f.fd.pos⟩ from rfl, h.bytes, h.pos, hk, add_zero]

lemma settled_discard (h : Unread f d) (hm : f.bufmode = .read) : Settled (discardRead f) d := by
  refine ⟨rfl, rfl, ?_⟩
  have hpos := h.pos
  rw [discardRead]
  split_ifs with hlt
  · have htarget : (f.fd.pos : Int) + -((f.buflen - f.bufpos : Nat) : Int) = d.fd.pos := by omega
    have hbase : (if (1 : Int) = 0 then 0 else if (1 : Int) = 1 then (f.fd.pos : Int)
        else f.fd.bytes.length) = f.fd.pos := by rw [if_neg (by decide), if_pos rfl]
    rw [Descriptor.lseek, if_pos (Or.inr (.inl rfl))]
    rw [hbase, htarget, h.bytes]
    dsimp only
    rw [Int.toNat_natCast]
  · have h0 : f.buflen - f.bufpos = 0 := by
      by_contra hc
      exact hlt ⟨hm, by omega⟩
    exact h.fd_eq h0

lemma settled_both (h : Rel f d) : Settled (discardRead (flushWrite f)) d := by
  rcases hm : f.bufmode with _ | _ | _
  · have hflush : flushWrite f = f := by rw [flushWrite, if_pos (Or.inl (by simp [hm]))]
    have hs := h.idle hm
    refine ⟨rfl, rfl, ?_⟩
    rw [hflush, discardRead]
    rw [if_neg (by simp [hm]), hs.fd]
  · have hflush : flushWrite f = f := by rw [flushWrite, if_pos (Or.inl (by simp [hm]))]
    rw [hflush]
    exact settled_discard (h.read hm) hm
  · have hs := settled_flush (h.write hm) hm
    refine ⟨rfl, rfl, ?_⟩
    rw [discardRead]
    rw [if_neg (fun hc => by rw [hs.len, hs.pos] at hc; exact lt_irrefl 0 hc.2), hs.fd]

lemma eof_flush (f : FILE) : (flushWrite f).eof = f.eof := by
  rw [flushWrite]
  split_ifs <;> rfl

lemma bufcap_flush (f : FILE) : (flushWrite f).bufcap = f.bufcap := by
  rw [flushWrite]
  split_ifs <;> rfl

lemma Settled.unread (h : Settled f d) : Unread f d where
  le := by rw [h.pos]; exact Nat.zero_le _
  bytes := by rw [h.fd]
  pos := by rw [h.fd, h.len, h.pos]; rfl
  ahead := by rw [h.len, h.pos]; rfl

lemma Settled.pending (h : Settled f d) : Pending f d where
  len := h.len
  le := by rw [h.pos]; exact Nat.zero_le _
  fd := by rw [h.pos, slice_zero, write_nil, h.fd]

lemma Rel.of_read (hm : f.bufmode = .read) (heof : f.eof = d.eof) (h : Unread f d) : Rel f d :=
  ⟨heof, fun hc => (by rw [hm] at hc; cases hc), fun _ => h, fun hc => (by rw [hm] at hc; cases hc)⟩

lemma Rel.of_write (hm : f.bufmode = .write) (heof : f.eof = d.eof) (h : Pending f d) : Rel f d :=
  ⟨heof, fun hc => (by rw [hm] at hc; cases hc), fun hc => (by rw [hm] at hc; cases hc), fun _ => h⟩

lemma Rel.of_idle (hm : f.bufmode = .idle) (heof : f.eof = d.eof) (h : Settled f d) : Rel f d :=
  ⟨heof, fun _ => h, fun hc => (by rw [hm] at hc; cases hc), fun hc => (by rw [hm] at hc; cases hc)⟩

lemma Unread.take (h : Unread f d) {n : Nat} (hn : n ≤ f.buflen - f.bufpos) :
    slice f.buf f.bufpos n = (d.get n).1 ∧ (window d.fd.bytes d.fd.pos n).length = n ∧
      Unread { f with bufpos := f.bufpos + n } (d.get n).2 := by
  obtain ⟨m, hm⟩ := Nat.exists_eq_add_of_le hn
  have hle := h.le
  have hpos := h.pos
  have hahead := h.ahead
  rw [hm, slice_append, window_add] at hahead
  have hfull : (window d.fd.bytes d.fd.pos n).length = n := by
    have hlen := congrArg List.length h.ahead
    rw [length_slice, length_window] at hlen
    rw [length_window]
    omega
  obtain ⟨h1, h2⟩ := append_inj hahead (by rw [length_slice, hfull])
  have hrest : f.buflen - (f.bufpos + n) = m := by omega
  refine ⟨h1, hfull, ⟨by dsimp only; omega, h.bytes, ?_, ?_⟩⟩
  · dsimp only [Direct.get, Descriptor.read]
    omega
  · dsimp only [Direct.get, Descriptor.read]
    rw [hfull, hrest]
    exact h2

lemma freadLoop_spec (want fuel : Nat) : ∀ (f : FILE) (d : Direct) (out : List UInt8),
    f.bufmode = .read → f.eof = d.eof → Unread f d → out.length ≤ want →
    2 * (want - out.length) ≤ fuel + (if f.bufpos < f.buflen then 1 else 0) →
    (freadLoop want fuel f out).1 = out ++ (d.get (want - out.length)).1 ∧
      Rel (freadLoop want fuel f out).2 (d.get (want - out.length)).2 := by
  -- the fuel bounds twice the missing bytes, less one while the buffer is not empty
  induction fuel with
  | zero =>
    intro f d out hm heof h hle hfuel
    have h0 : want - out.length = 0 := by split_ifs at hfuel <;> omega
    rw [h0, get_zero, freadLoop]
    exact ⟨(append_nil _).symm, .of_read hm heof h⟩
  | succ fuel ih =>
    intro f d out hm heof h hle hfuel
    rw [freadLoop]
    by_cases hdone : out.length < want
    swap
    · rw [if_neg hdone, show want - out.length = 0 by omega, get_zero]
      exact ⟨(append_nil _).symm, .of_read hm heof h⟩
    rw [if_pos hdone]
    by_cases hbuf : f.bufpos < f.buflen
    · -- the buffer serves the read
      rw [if_pos hbuf] at hfuel
      rw [if_pos hbuf]
      generalize hn : min (want - out.length) (f.buflen - f.bufpos) = n
      obtain ⟨h1, hfull, h2⟩ := h.take (show n ≤ f.buflen - f.bufpos by omega)
      have hlen : (out ++ slice f.buf f.bufpos n).length = out.length + n := by
        rw [length_append, length_slice]
      have hrest : want - (out ++ slice f.buf f.bufpos n).length = want - out.length - n := by omega
      have hstep := ih { f with bufpos := f.bufpos + n } (d.get n).2 (out ++ slice f.buf f.bufpos n) hm
        (by simp [Direct.get, Descriptor.read, hfull, heof]) h2 (by omega) (by omega)
      rw [hrest] at hstep
      rw [show want - out.length = n + (want - out.length - n) by omega, get_add d _ hfull, ← append_assoc, ← h1]
      exact hstep
    · have hk : f.buflen - f.bufpos = 0 := by omega
      rw [if_neg hbuf] at hfuel
      rw [if_neg hbuf]
      -- an empty read ends the loop with the flag set
      have hend : ∀ n, 0 < n → (d.fd.read n).1 = [] → out = out ++ (d.get (want - out.length)).1 ∧
            Rel { f with fd := (d.fd.read n).2, eof := true } (d.get (want - out.length)).2 := by
        intro n hn hgot
        obtain ⟨hget, hfd⟩ := get_of_end d hn (show 0 < want - out.length by omega) hgot
        rw [hget, hfd]
        exact ⟨(append_nil _).symm, .of_read hm rfl ⟨h.le, rfl, by rw [hk]; rfl, h.ahead⟩⟩
      by_cases hcap : f.bufcap ≠ 0
      · rw [if_pos hcap]
        rw [h.fd_eq hk]
        by_cases hgot : (d.fd.read f.bufcap).1 = []
        · rw [if_pos hgot]
          exact hend f.bufcap (by omega) hgot
        · rw [if_neg hgot]
          have hpos' := length_pos_iff.mpr hgot
          refine ih _ d out hm heof ⟨Nat.zero_le _, rfl, rfl, ?_⟩ hle ?_
          · dsimp only
            rw [Nat.sub_zero, slice_putList]
            exact (window_length_self _ _ _).symm
          · rw [if_pos hpos']
            omega
      · rw [if_neg hcap]
        rw [h.fd_eq hk]
        by_cases hgot : (d.fd.read (want - out.length)).1 = []
        · rw [if_pos hgot]
          exact hend (want - out.length) (by omega) hgot
        · rw [if_neg hgot]
          have hsame : (d.get (d.fd.read (want - out.length)).1.length).1 =
              (d.fd.read (want - out.length)).1 := window_length_self _ _ _
          have hfd : (d.get (d.fd.read (want - out.length)).1.length).2.fd = (d.fd.read (want - out.length)).2 := by
            dsimp only [Direct.get, Descriptor.read] at hsame ⊢
            rw [hsame]
          have hshort : (d.fd.read (want - out.length)).1.length ≤ want - out.length := by
            rw [Descriptor.read, length_window]
            omega
          have hpos' := length_pos_iff.mpr hgot
          generalize hg : (d.fd.read (want - out.length)).1 = got at hgot hsame hfd hshort hpos'
          have hfull : (window d.fd.bytes d.fd.pos got.length).length = got.length :=
            congrArg List.length hsame
          have hrest : want - (out ++ got).length = want - out.length - got.length := by
            rw [length_append]
            omega
          have hstep := ih { f with fd := (d.fd.read (want - out.length)).2 } (d.get got.length).2
            (out ++ got) hm (by simp [Direct.get, Descriptor.read, hfull, heof])
            ⟨h.le, by rw [hfd], by rw [hfd, hk]; rfl, by dsimp only; rw [hk]; rfl⟩
            (by rw [length_append]; omega) (by dsimp only; omega)
          rw [hrest] at hstep
          rw [show want - out.length = got.length + (want - out.length - got.length) by omega,
            get_add d _ hfull, hsame, ← append_assoc]
          rw [show got.length + (want - out.length - got.length) = want - out.length by omega]
          exact hstep

lemma fread_sim (h : Rel f d) (herr : f.err = false) (size nmemb : Nat) :
    (fread f size nmemb).1 = ((d.get (size * nmemb)).1.length / size, (d.get (size * nmemb)).1) ∧
      Rel (fread f size nmemb).2 (d.get (size * nmemb)).2 := by
  rw [fread, if_neg (by simp [herr])]
  by_cases h0 : size * nmemb = 0
  · rw [if_pos h0, h0, get_zero, length_nil, Nat.zero_div]
    exact ⟨rfl, h⟩
  · rw [if_neg h0]
    dsimp only
    have hun : Unread { (if f.bufmode = .write then flushWrite f else f) with bufmode := .read } d := by
      rcases hm : f.bufmode with _ | _ | _
      · exact ⟨(h.idle hm).unread.le, (h.idle hm).unread.bytes, (h.idle hm).unread.pos, (h.idle hm).unread.ahead⟩
      · exact ⟨(h.read hm).le, (h.read hm).bytes, (h.read hm).pos, (h.read hm).ahead⟩
      · have hs := (settled_flush (h.write hm) hm).unread
        exact ⟨hs.le, hs.bytes, hs.pos, hs.ahead⟩
    have heof : ({ (if f.bufmode = .write then flushWrite f else f) with bufmode := .read } : FILE).eof = d.eof := by
      split_ifs
      · rw [eof_flush, h.eof]
      · exact h.eof
    obtain ⟨hout, hrel⟩ := freadLoop_spec (size * nmemb) (2 * (size * nmemb) + 1) _ d [] rfl heof hun
      (Nat.zero_le _) (by rw [length_nil]; omega)
    rw [nil_append, length_nil, Nat.sub_zero] at hout
    exact ⟨by rw [hout], hrel⟩

lemma fgetc_sim (h : Rel f d) (herr : f.err = false) : (fgetc f).1 = d.getc.1 ∧ Rel (fgetc f).2 d.getc.2 := by
  obtain ⟨hout, hrel⟩ := fread_sim h herr 1 1
  have hlen : (d.get 1).1.length ≤ 1 := by
    rw [Direct.get, Descriptor.read, length_window]
    omega
  rw [fgetc, Direct.getc, hout]
  rcases hg : (d.get 1).1 with _ | ⟨c, l⟩
  · exact ⟨rfl, hrel⟩
  · rw [hg, length_cons] at hlen
    rw [length_cons, if_neg (by omega)]
    exact ⟨rfl, hrel⟩

lemma err_freadLoop (want fuel : Nat) : ∀ (f : FILE) (out : List UInt8), (freadLoop want fuel f out).2.err = f.err := by
  induction fuel with
  | zero => exact fun f out => rfl
  | succ fuel ih =>
    intro f out
    rw [freadLoop]
    dsimp only
    split_ifs <;> first | rfl | rw [ih]

lemma err_fgetc (f : FILE) : (fgetc f).2.err = f.err := by
  have hread : (fread f 1 1).2.err = f.err := by
    rw [fread]
    by_cases herr : f.err = true
    · rw [if_pos herr]
    · rw [if_neg herr, if_neg (by decide)]
      rw [err_freadLoop]
      rw [flushWrite]
      split_ifs <;> rfl
  rw [fgetc]
  split_ifs <;> exact hread

lemma fgetsLoop_sim (k : Nat) : ∀ (f : FILE) (d : Direct) (buf : List UInt8), Rel f d → f.err = false →
    (fgetsLoop fgetc k f buf).1 = (fgetsLoop Direct.getc k d buf).1 ∧
      Rel (fgetsLoop fgetc k f buf).2 (fgetsLoop Direct.getc k d buf).2 := by
  induction k with
  | zero => exact fun f d buf h _ => ⟨rfl, h⟩
  | succ k ih =>
    intro f d buf h herr
    obtain ⟨hc, hrel⟩ := fgetc_sim h herr
    rw [fgetsLoop, fgetsLoop, hc]
    split_ifs
    · exact ⟨rfl, hrel⟩
    · exact ⟨rfl, hrel⟩
    · exact ⟨rfl, hrel⟩
    · exact ih _ _ _ hrel ((err_fgetc f).trans herr)

lemma fwriteLoop_spec (fuel : Nat) : ∀ (f : FILE) (d : Direct) (rest : List UInt8),
    f.bufmode = .write → f.eof = d.eof → Pending f d → 0 < f.bufcap → rest.length ≤ fuel →
    (fwriteLoop fuel f rest).2 = [] ∧ Rel (fwriteLoop fuel f rest).1 (d.put rest) := by
  induction fuel with
  | zero =>
    intro f d rest hm heof h _ hfuel
    obtain rfl := length_eq_zero_iff.mp (Nat.le_zero.mp hfuel)
    exact ⟨rfl, .of_write hm heof h⟩
  | succ fuel ih =>
    intro f d rest hm heof h hcap hfuel
    rw [fwriteLoop]
    by_cases hr : rest ≠ []
    swap
    · rw [not_not] at hr
      rw [if_neg (not_not.mpr hr), hr, Direct.put, write_nil]
      exact ⟨rfl, .of_write hm heof h⟩
    rw [if_pos hr]
    dsimp only
    -- after the flush there is room, and the same bytes are pending or written
    have hg : ∃ g, g = (if f.bufcap - f.bufpos = 0 then flushWrite f else f) ∧ g.bufmode = .write ∧
        g.eof = f.eof ∧ g.bufcap = f.bufcap ∧ Pending g d ∧
        (if f.bufcap - f.bufpos = 0 then f.bufcap else f.bufcap - f.bufpos) = g.bufcap - g.bufpos := by
      refine ⟨_, rfl, ?_⟩
      split_ifs with hfull
      · have hs := settled_flush h hm
        refine ⟨?_, eof_flush f, bufcap_flush f, hs.pending, by rw [bufcap_flush, hs.pos, Nat.sub_zero]⟩
        rw [flushWrite]
        split_ifs <;> exact hm
      · exact ⟨hm, rfl, rfl, h, rfl⟩
    obtain ⟨g, hgdef, hgm, hgeof, hgcap, hgp, hspace⟩ := hg
    rw [← hgdef, hspace]
    have hroom : 0 < g.bufcap - g.bufpos := by
      rw [← hspace]
      split_ifs <;> omega
    generalize hn : min rest.length (g.bufcap - g.bufpos) = n
    have htake : (rest.take n).length = n := by
      rw [length_take]
      omega
    have hslice : slice (g.buf.putList g.bufpos (rest.take n)) 0 (g.bufpos + n) =
        slice g.buf 0 g.bufpos ++ rest.take n := by
      have hold : slice (g.buf.putList g.bufpos (rest.take n)) 0 g.bufpos = slice g.buf 0 g.bufpos :=
        slice_congr fun k hk => putList_of_not_mem (by omega)
      have hnew := slice_putList g.buf g.bufpos (rest.take n)
      rw [htake] at hnew
      rw [slice_append, hold, zero_add, hnew]
    have hp' : Pending { g with buf := g.buf.putList g.bufpos (rest.take n), bufpos := g.bufpos + n }
        (d.put (rest.take n)) := by
      refine ⟨hgp.len, by dsimp only; omega, ?_⟩
      dsimp only [Direct.put]
      rw [hslice, ← write_append, hgp.fd]
    have hstep := ih { g with buf := g.buf.putList g.bufpos (rest.take n), bufpos := g.bufpos + n }
      (d.put (rest.take n)) (rest.drop n) hgm (hgeof.trans heof) hp' (by dsimp only; omega)
      (by rw [length_drop]; omega)
    have hput : (d.put (rest.take n)).put (rest.drop n) = d.put rest := by
      rw [Direct.put, Direct.put, write_append, take_append_drop]
      rfl
    rw [hput] at hstep
    exact hstep

lemma fwriteReady_sim {g : FILE} (hgm : g.bufmode = .write) (heof : g.eof = d.eof) (hp : Pending g d)
    (ptr : Buf) {size nmemb : Nat} (h0 : size * nmemb ≠ 0) :
    let r := if g.bufcap = 0 then (nmemb, { g with fd := g.fd.write (slice ptr 0 (size * nmemb)) })
      else ((size * nmemb - (fwriteLoop (size * nmemb) g (slice ptr 0 (size * nmemb))).2.length) / size,
        (fwriteLoop (size * nmemb) g (slice ptr 0 (size * nmemb))).1)
    r.1 = nmemb ∧ Rel r.2 (d.put (slice ptr 0 (size * nmemb))) := by
  intro r
  by_cases hcap : g.bufcap = 0
  · have hr : r = (nmemb, { g with fd := g.fd.write (slice ptr 0 (size * nmemb)) }) := if_pos hcap
    have h0' : g.bufpos = 0 := by have := hp.le; omega
    have hfd := hp.fd
    rw [h0', slice_zero, write_nil] at hfd
    rw [hr]
    refine ⟨rfl, .of_write hgm heof ⟨hp.len, hp.le, ?_⟩⟩
    dsimp only [Direct.put]
    rw [h0', slice_zero, write_nil, hfd]
  · obtain ⟨hnil, hrel⟩ := fwriteLoop_spec (size * nmemb) g d (slice ptr 0 (size * nmemb)) hgm heof hp
      (Nat.pos_of_ne_zero hcap) (by rw [length_slice])
    have hr : r = (_, _) := if_neg hcap
    rw [hr]
    rw [hnil, length_nil, Nat.sub_zero]
    have hsize : 0 < size := Nat.pos_of_ne_zero fun hz => h0 (by rw [hz, Nat.zero_mul])
    exact ⟨Nat.mul_div_cancel_left nmemb hsize, hrel⟩

lemma fwrite_sim (h : Rel f d) (ptr : Buf) (size nmemb : Nat) :
    (fwrite f ptr size nmemb).1 = (if size * nmemb = 0 then 0 else nmemb) ∧
      Rel (fwrite f ptr size nmemb).2 (d.put (slice ptr 0 (size * nmemb))) := by
  rw [fwrite]
  by_cases h0 : size * nmemb = 0
  · rw [if_pos h0, if_pos h0, h0, slice_zero, Direct.put, write_nil]
    exact ⟨rfl, h⟩
  · have hp : Pending { (if f.bufmode = .read then discardRead f else f) with bufmode := .write } d := by
      rcases hm : f.bufmode with _ | _ | _
      · have hs := (h.idle hm).pending
        exact ⟨hs.len, hs.le, hs.fd⟩
      · have hs := (settled_discard (h.read hm) hm).pending
        exact ⟨hs.len, hs.le, hs.fd⟩
      · exact ⟨(h.write hm).len, (h.write hm).le, (h.write hm).fd⟩
    have heof : ({ (if f.bufmode = .read then discardRead f else f) with bufmode := .write } : FILE).eof = d.eof := by
      split_ifs <;> exact h.eof
    rw [if_neg h0, if_neg h0]
    exact fwriteReady_sim rfl heof hp ptr h0

lemma fseek_sim (h : Rel f d) (offset whence : Int) : (fseek f offset whence).1 = (d.seek offset whence).1 ∧
      Rel (fseek f offset whence).2 (d.seek offset whence).2 := by
  have hs := settled_both h
  have heof : (discardRead (flushWrite f)).eof = d.eof := (eof_flush f).trans h.eof
  rw [fseek, Direct.seek]
  rw [hs.fd]
  by_cases hneg : (d.fd.lseek offset whence).1 < 0
  · rw [if_pos hneg, if_pos hneg]
    exact ⟨rfl, .of_idle rfl heof ⟨hs.pos, hs.len, lseek_of_neg d.fd hneg⟩⟩
  · rw [if_neg hneg, if_neg hneg]
    exact ⟨rfl, .of_idle rfl rfl ⟨hs.pos, hs.len, rfl⟩⟩

lemma Rel.setErr (h : Rel f d) (err : Bool) : Rel { f with err := err } d where
  eof := h.eof
  idle hm := ⟨(h.idle hm).pos, (h.idle hm).len, (h.idle hm).fd⟩
  read hm := ⟨(h.read hm).le, (h.read hm).bytes, (h.read hm).pos, (h.read hm).ahead⟩
  write hm := ⟨(h.write hm).len, (h.write hm).le, (h.write hm).fd⟩

lemma ftell_sim (h : Rel f d) : ftell f = d.fd.pos := by
  rw [ftell]
  rcases hm : f.bufmode with _ | _ | _
  · rw [(h.idle hm).fd]
  · have hpos := (h.read hm).pos
    dsimp only
    omega
  · have hfd := (h.write hm).fd
    rw [← hfd, Descriptor.write]
    split_ifs with hnil
    · have hlen := congrArg List.length hnil
      rw [length_slice, length_nil] at hlen
      rw [hlen]
      rfl
    · rw [length_slice, Nat.cast_add]

lemma vfprintf_sim (h : Rel f d) (text : List UInt8) : Rel (vfprintf f text) (d.put text) := by
  have hs : Settled (if f.bufmode = .write then flushWrite f
      else if f.bufmode = .read then discardRead f else f) d := by
    rcases hm : f.bufmode with _ | _ | _
    · exact h.idle hm
    · exact settled_discard (h.read hm) hm
    · exact settled_flush (h.write hm) hm
  have heof : (if f.bufmode = .write then flushWrite f
      else if f.bufmode = .read then discardRead f else f).eof = d.eof := by
    split_ifs
    · exact (eof_flush f).trans h.eof
    · exact h.eof
    · exact h.eof
  refine .of_idle rfl heof ⟨hs.pos, hs.len, ?_⟩
  rw [vfprintf]
  rw [vdprintf_eq, hs.fd, Direct.put]

lemma fflush_sim (h : Rel f d) : Rel (flushWrite f) d := by
  by_cases hm : f.bufmode = .write
  · have hs := (settled_flush (h.write hm) hm).pending
    refine .of_write ?_ ((eof_flush f).trans h.eof) hs
    rw [flushWrite]
    split_ifs <;> exact hm
  · rw [flushWrite, if_pos (Or.inl hm)]
    exact h

end stream

/-! ### Whole runs -/

def Call.IsRead : Call → Prop
  | .fread _ _ | .fgetc | .fgets _ => True
  | _ => False

instance Call.decidableIsRead : (c : Call) → Decidable c.IsRead
  | .fread _ _ | .fgetc | .fgets _ => .isTrue trivial
  | .fwrite _ _ _ | .fputc _ | .fputs _ | .fprintf _ | .fseek _ _ | .ftell | .rewind | .fflush =>
    .isFalse id

/-- A call that reads finds the error flag clear. -/
def Call.Sound (f : FILE) (c : Call) : Prop := c.IsRead → f.err = false

instance Call.decidableSound (f : FILE) (c : Call) : Decidable (c.Sound f) :=
  inferInstanceAs (Decidable (_ → _))

lemma slice_ofList (l : List UInt8) : slice (ofList l) 0 l.length = l := by
  rw [slice_eq_iff]
  refine ⟨rfl, fun k _ => ?_⟩
  rw [zero_add]
  rfl

/-- One call returns what it returns on the array, and the stream goes on standing for it. -/
lemma step_sim {f : FILE} {d : Direct} (h : Rel f d) (c : Call) (hc : c.Sound f) :
    (f.call c).1 = (d.call c).1 ∧ Rel (f.call c).2 (d.call c).2 := by
  cases c with
  | fread size nmemb =>
    obtain ⟨hout, hrel⟩ := fread_sim h (hc trivial) size nmemb
    refine ⟨?_, hrel⟩
    rw [FILE.call, Direct.call, hout]
  | fwrite ptr size nmemb =>
    obtain ⟨hret, hrel⟩ := fwrite_sim h ptr size nmemb
    refine ⟨?_, hrel⟩
    rw [FILE.call, Direct.call, hret, Nat.cast_ite, Nat.cast_zero]
  | fgetc =>
    obtain ⟨hret, hrel⟩ := fgetc_sim h (hc trivial)
    refine ⟨?_, hrel⟩
    rw [FILE.call, Direct.call, hret]
  | fputc c =>
    obtain ⟨hret, hrel⟩ := fwrite_sim h (ofList [uchar c]) 1 1
    refine ⟨?_, hrel⟩
    rw [FILE.call, Direct.call]
    rw [hret, if_pos (by decide)]
  | fgets n =>
    obtain ⟨hret, hrel⟩ := fgetsLoop_sim (n - 1) f d [] h (hc trivial)
    rw [FILE.call, Direct.call, hret]
    by_cases hn : n ≤ 1
    · rw [if_pos hn, if_pos hn]
      exact ⟨rfl, h⟩
    · rw [if_neg hn, if_neg hn]
      exact ⟨rfl, hrel⟩
  | fputs s =>
    obtain ⟨hret, hrel⟩ := fwrite_sim h (ofList s) 1 s.length
    rw [Nat.one_mul] at hret hrel
    rw [slice_ofList] at hrel
    refine ⟨?_, hrel⟩
    rw [FILE.call, Direct.call]
    rw [hret]
    by_cases h0 : s.length = 0
    · rw [if_pos h0, if_pos h0.symm]
    · rw [if_neg h0, if_pos rfl]
  | fprintf text => exact ⟨rfl, vfprintf_sim h text⟩
  | fseek offset whence =>
    obtain ⟨hret, hrel⟩ := fseek_sim h offset whence
    refine ⟨?_, hrel⟩
    rw [FILE.call, Direct.call, hret]
  | ftell =>
    refine ⟨?_, h⟩
    rw [FILE.call, Direct.call, ftell_sim h]
  | rewind =>
    obtain ⟨-, hrel⟩ := fseek_sim h 0 0
    exact ⟨rfl, hrel.setErr false⟩
  | fflush => exact ⟨rfl, fflush_sim h⟩

/-- The replies of a run and the state it ends in. -/
def replies {σ : Type} (call : σ → Call → Reply × σ) : σ → List Call → List Reply × σ
  | s, [] => ([], s)
  | s, c :: cs => ((call s c).1 :: (replies call (call s c).2 cs).1, (replies call (call s c).2 cs).2)

lemma run_sim (calls : List Call) : ∀ {f : FILE} {d : Direct}, Rel f d →
    Along (fun f c => (FILE.call f c).2) (fun f c => c.Sound f) f calls →
    (replies FILE.call f calls).1 = (replies Direct.call d calls).1 ∧
      Rel (replies FILE.call f calls).2 (replies Direct.call d calls).2 := by
  induction calls with
  | nil => exact fun h _ => ⟨rfl, h⟩
  | cons c calls ih =>
    intro f d h hc
    obtain ⟨hret, hrel⟩ := step_sim h c hc.1
    obtain ⟨hrest, hend⟩ := ih hrel hc.2
    rw [replies, replies, hret, hrest]
    exact ⟨rfl, hend⟩

lemma fclose_sim {f : FILE} {d : Direct} (h : Rel f d) : fclose f = d.fd.bytes := by
  rw [fclose]
  rcases hm : f.bufmode with _ | _ | _
  · rw [flushWrite, if_pos (Or.inl (by simp [hm])), (h.idle hm).fd]
  · rw [flushWrite, if_pos (Or.inl (by simp [hm])), (h.read hm).bytes]
  · rw [(settled_flush (h.write hm) hm).fd]

/-- In every run whose reads all find the error flag clear, every reply, the position, the end-of-file
flag and the contents after `fclose` are those of the array. -/
theorem buffered_eq_direct (bytes : List UInt8) (buf : Buf) (bufcap : Nat) (calls : List Call)
    (h : Along (fun f c => (FILE.call f c).2) (fun f c => c.Sound f) (fopen bytes buf bufcap) calls) :
    let f := replies FILE.call (fopen bytes buf bufcap) calls
    let d := replies Direct.call ⟨⟨bytes, 0⟩, false⟩ calls
    f.1 = d.1 ∧ f.2.eof = d.2.eof ∧ ftell f.2 = d.2.fd.pos ∧ fclose f.2 = d.2.fd.bytes := by
  have hstart : Rel (fopen bytes buf bufcap) ⟨⟨bytes, 0⟩, false⟩ :=
    .of_idle rfl rfl ⟨rfl, rfl, rfl⟩
  obtain ⟨hret, hend⟩ := run_sim calls hstart h
  exact ⟨hret, hend.eof, ftell_sim hend, fclose_sim hend⟩

theorem buffered_eq_direct_mixed :
    let calls : List Call := [.fgetc, .fputc 9, .fseek (-1) 1, .fread 1 5, .rewind, .fgets 3]
    fclose (replies FILE.call (fopen [1, 2, 3] Buf.zero 4) calls).2 = [1, 9, 3] := by
  intro calls
  have hd : (replies Direct.call ⟨⟨[1, 2, 3], 0⟩, false⟩ calls).2.fd.bytes = [1, 9, 3] := by decide
  rw [(buffered_eq_direct [1, 2, 3] Buf.zero 4 calls (by decide)).2.2.2, hd]

/-- A seek with the unknown `whence` 3 fails, and no read returns anything after it. -/
theorem buffered_stuck_after_seek :
    (replies FILE.call (fopen [7] Buf.zero 4096) [.fseek 0 3, .fgetc]).1 = [⟨-1, []⟩, ⟨-1, []⟩] ∧
      (replies Direct.call ⟨⟨[7], 0⟩, false⟩ [.fseek 0 3, .fgetc]).1 = [⟨-1, []⟩, ⟨7, []⟩] := by
  decide

end Stdio

end VibeOS
