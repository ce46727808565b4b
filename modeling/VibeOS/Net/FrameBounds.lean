import VibeOS.Net.Frames

/-!
# Parsing stays inside the frame

`handle_ip` compares no length field of a packet with the length of the frame, so a frame can make the handlers read
what lies behind it (`frame_reads_fails`). `FrameFits` says what is missing: the header of an ICMP message, of a TCP
segment or of a datagram lies in the frame, an echo request lies in it as a whole, the data of a segment as far as the
connection takes it, and the parts of a DNS message that the walk passes do. Names, questions and answers that lie
below `n` are relations, by which the loops are followed in both directions: `frame_reads_inside` is exact.
-/

namespace VibeOS

open Buf Tracked List Memory

/-! ### Messages inside a frame -/

/-- The name of a question from `p` to `e` lies below `n`. -/
inductive QuestionName (b : Buf) (n : Nat) : Nat → Nat → Prop where
  | root (p : Nat) : p < n → b p = 0 → QuestionName b n p (p + 1)
  | pointer (p : Nat) : p < n → b p ≠ 0 → isPointer (b p) → QuestionName b n p (p + 2)
  | label (p e : Nat) : p < n → b p ≠ 0 → isPointer (b p) = false →
      QuestionName b n (p + (b p).toNat + 1) e → QuestionName b n p e

/-- Labels from `p` on, with the zero label before `e`, lie below `n`. -/
inductive LabelName (b : Buf) (n : Nat) : Nat → Nat → Prop where
  | root (p : Nat) : p < n → b p = 0 → LabelName b n p (p + 1)
  | label (p e : Nat) : p < n → b p ≠ 0 → LabelName b n (p + (b p).toNat + 1) e → LabelName b n p e

/-- The name of an answer from `p` to `e` lies below `n`: a pointer, or labels. -/
def AnswerName (b : Buf) (n p e : Nat) : Prop :=
  p < n ∧ if isPointer (b p) then e = p + 2 else LabelName b n p e

/-- The names of `k` questions from `p` on lie below `n`, and the answers begin at `e`. -/
inductive Questions (b : Buf) (n : Nat) : Nat → Nat → Nat → Prop where
  | none (p : Nat) : Questions b n 0 p p
  | one (k p e last : Nat) : QuestionName b n p e → Questions b n k (e + 4) last → Questions b n (k + 1) p last

/-- Of `k` answers from `p` on, those up to the first address record lie below `n`, as far as their data is
looked at. -/
inductive Answers (b : Buf) (n : Nat) : Nat → Nat → Prop where
  | none (p : Nat) : Answers b n 0 p
  | address (k p e : Nat) : AnswerName b n p e → be16 b e = 1 ∧ be16 b (e + 8) = 4 → e + 14 ≤ n → Answers b n (k + 1) p
  | other (k p e : Nat) : AnswerName b n p e → ¬ (be16 b e = 1 ∧ be16 b (e + 8) = 4) → e + 10 ≤ n →
      Answers b n k (e + 10 + (be16 b (e + 8)).toNat) → Answers b n (k + 1) p

/-- The header, the questions and the answers of the DNS message at `dns` lie below `n`. -/
def DnsFits (b : Buf) (n dns : Nat) : Prop :=
  dns + 8 ≤ n ∧ ∃ e, Questions b n (be16 b (dns + 4)).toNat (dns + 12) e ∧ Answers b n (be16 b (dns + 6)).toNat e

def headerLength (b : Buf) : Nat := (b 14 &&& 0x0f).toNat * 4

/-- The total length field of the IP header of a frame. -/
def totalLength (b : Buf) : Nat := (be16 b (14 + 2)).toNat

/-- The bytes of a segment that its connection takes: those it has room for, if the segment is the next one.
Source: `kernel/src/net.c` `handle_tcp` -/
def taken (net : TcpNet) (seg : TcpSegment) : Nat :=
  match demux net seg with
  | none => 0
  | some i =>
    let c := net.conns i
    if seg.flags &&& TCP_RST = 0 ∧ c.state ≠ .synSent ∧ seg.seq = c.rcvNxt then
      min seg.payload.length (c.rxCap - c.rxLen)
    else 0

/-- The segment of `segLen` bytes at `tcp`, with its data at `tcp + dataOff`. -/
def segmentAt (b : Buf) (tcp segLen dataOff : Nat) : TcpSegment :=
  ⟨be32 b (14 + 12), be16 b tcp, be16 b (tcp + 2), be32 b (tcp + 4), b (tcp + 13),
    b.slice (tcp + dataOff) (segLen - dataOff)⟩

def dataOffset (b : Buf) (tcp : Nat) : Nat := (b (tcp + 12) >>> 4).toNat * 4

/-- An ICMP message lies below `n` as far as it is looked at: an echo request that can be answered is copied. -/
def IcmpFits (b : Buf) (n icmp icmpLen : Nat) : Prop :=
  icmp < n ∧ (b icmp = 0 → icmp + 8 ≤ n) ∧
    (b icmp = 8 → (UInt16.ofNat (20 + icmpLen)).toNat + 14 ≤ txframeSize → icmp + icmpLen ≤ n)

/-- The fields of a segment lie below `n`, and so does the data that is taken. -/
def TcpFits (net : TcpNet) (b : Buf) (n tcp segLen : Nat) : Prop :=
  tcp + 14 ≤ n ∧ (0 < taken net (segmentAt b tcp segLen (dataOffset b tcp)) →
    tcp + dataOffset b tcp + taken net (segmentAt b tcp segLen (dataOffset b tcp)) ≤ n)

/-- The ports of a datagram lie below `n` as far as they are looked at, and so does an answer to our query. -/
def UdpFits (b : Buf) (n udp : Nat) : Prop :=
  udp + 2 ≤ n ∧ (be16 b udp = DNS_PORT → udp + 4 ≤ n ∧ (be16 b (udp + 2) = DNS_SRC_PORT → DnsFits b n (udp + 8)))

/-- What the headers of a frame of `n` bytes announce lies in the frame, where `handle_ip` hands the packet on. -/
def FrameFits (net : TcpNet) (b : Buf) (n : Nat) : Prop :=
  be16 b 12 = ETHERTYPE_IP → 14 + 20 ≤ n → be32 b (14 + 16) = NET_IP →
    (b (14 + 9) = IP_PROTO_ICMP → totalLength b ≥ headerLength b + 8 →
      IcmpFits b n (14 + headerLength b) (totalLength b - headerLength b)) ∧
    (b (14 + 9) = IP_PROTO_TCP → totalLength b ≥ headerLength b + 20 →
      TcpFits net b n (14 + headerLength b) (totalLength b - headerLength b)) ∧
    (b (14 + 9) = IP_PROTO_UDP → totalLength b ≥ headerLength b + 8 → UdpFits b n (14 + headerLength b))

/-- What handling a frame of `n` bytes may do with its bytes: new bytes of receive buffers are bytes of the
frame, and a new frame is an ARP reply or echoes bytes of the frame. -/
structure FromFrame (b : Buf) (n : Nat) (s s' : NetState) : Prop where
  rx : ∀ i k, (s.tcp.conns i).rxLen ≤ k → k < (s'.tcp.conns i).rxLen → ∃ j < n, (s'.tcp.conns i).rxBuf k = b j
  sent : ∀ f ∈ s'.sent, f ∈ s.sent ∨ (∃ ip off, off + 6 ≤ n ∧ f = arpReply s.mac ip (b.slice off 6)) ∨
    ∃ ip mac off len, mac + 6 ≤ n ∧ off + len ≤ n ∧ f = icmpEchoReply s.mac (b.slice mac 6) ip (b.slice off len)

variable {p e k : Nat}

section bounds

variable {mem : Memory} {n : Nat} {s : NetState}

lemma FromFrame.of_eq {b : Buf} {s' : NetState} (htcp : s'.tcp = s.tcp) (hsent : s'.sent = s.sent) :
    FromFrame b n s s' := by
  refine ⟨fun i k hk hk' => ?_, fun f hf => .inl (hsent ▸ hf)⟩
  rw [htcp] at hk'
  omega

/-! ### The DNS walk -/

section

variable (hn : n ≤ mem.size)

include hn

lemma skipQuestionName_iff {fuel : Nat} (hfuel : n ≤ p + fuel) :
    Reads n (skipQuestionName mem fuel p) e ↔ QuestionName mem.bytes n p e := by
  induction fuel generalizing p with
  | zero =>
    -- a name that lies below `n` begins below `n`
    refine iff_of_false (fun h => nomatch h.1) fun h => ?_
    cases h <;> omega
  | succ fuel ih =>
    rw [skipQuestionName, rd8, reads_load_bind_iff hn Nat.one_pos]
    constructor
    · rintro ⟨hp, h⟩
      split_ifs at h with hb hptr
      · obtain rfl := Reads.pure_iff.mp h
        exact .root p hp hb
      · obtain rfl := Reads.pure_iff.mp h
        exact .pointer p hp hb hptr
      · exact .label p e hp hb (by simpa using hptr) ((ih (by omega)).mp h)
    · intro h
      cases h with
      | root _ hp hb =>
        rw [if_pos hb]
        exact ⟨hp, .pure _⟩
      | pointer _ hp hb hptr =>
        rw [if_neg hb, if_pos hptr]
        exact ⟨hp, .pure _⟩
      | label _ _ hp hb hptr h =>
        rw [if_neg hb, if_neg (by rw [hptr]; decide)]
        exact ⟨hp, (ih (by omega)).mpr h⟩

lemma skipLabels_iff {fuel : Nat} (hfuel : n ≤ p + fuel) :
    Reads n (skipLabels mem fuel p) e ↔ LabelName mem.bytes n p e := by
  induction fuel generalizing p with
  | zero =>
    refine iff_of_false (fun h => nomatch h.1) fun h => ?_
    cases h <;> omega
  | succ fuel ih =>
    rw [skipLabels, rd8, reads_load_bind_iff hn Nat.one_pos]
    constructor
    · rintro ⟨hp, h⟩
      split_ifs at h with hb
      · obtain rfl := Reads.pure_iff.mp h
        exact .root p hp hb
      · exact .label p e hp hb ((ih (by omega)).mp h)
    · intro h
      cases h with
      | root _ hp hb =>
        rw [if_pos hb]
        exact ⟨hp, .pure _⟩
      | label _ _ hp hb h =>
        rw [if_neg hb]
        exact ⟨hp, (ih (by omega)).mpr h⟩

lemma skipAnswerName_iff : Reads n (skipAnswerName mem p) e ↔ AnswerName mem.bytes n p e := by
  rw [skipAnswerName, rd8, reads_load_bind_iff hn Nat.one_pos, AnswerName]
  refine and_congr Iff.rfl ?_
  split_ifs
  · rw [Reads.pure_iff, eq_comm]
  · exact skipLabels_iff hn (by omega)

lemma skipQuestions_iff : Reads n (skipQuestions mem k p) e ↔ Questions mem.bytes n k p e := by
  induction k generalizing p with
  | zero =>
    rw [skipQuestions, Reads.pure_iff]
    constructor
    · rintro rfl
      exact .none p
    · rintro ⟨⟩
      rfl
  | succ k ih =>
    constructor
    · intro h
      obtain ⟨e', hname, hrest⟩ := Reads.of_bind h
      exact .one k p e' e ((skipQuestionName_iff hn (by omega)).mp hname) (ih.mp hrest)
    · rintro (_ | ⟨_, _, e', _, hname, hrest⟩)
      exact Reads.bind ((skipQuestionName_iff hn (by omega)).mpr hname) (ih.mpr hrest)

lemma walkAnswers_iff : (∃ found, Reads n (walkAnswers mem k p) found) ↔ Answers mem.bytes n k p := by
  induction k generalizing p with
  | zero => exact ⟨fun _ => .none p, fun _ => ⟨_, .pure _⟩⟩
  | succ k ih =>
    constructor
    · rintro ⟨found, h⟩
      obtain ⟨e, hname, h⟩ := Reads.of_bind h
      simp only [rd16, reads_load_bind_iff hn Nat.two_pos] at h
      obtain ⟨-, he, h⟩ := h
      have hname := (skipAnswerName_iff hn).mp hname
      split_ifs at h with htype
      · rw [rd32, reads_load_bind_iff hn (by omega)] at h
        exact .address k p e hname htype h.1
      · exact .other k p e hname htype he (ih.mp ⟨found, h⟩)
    · intro h
      cases h with
      | address _ _ e hname htype he =>
        refine ⟨some (be32 mem.bytes (e + 10)), ((skipAnswerName_iff hn).mpr hname).bind
          ((reads_load hn (by omega) _).bind ((reads_load hn (by omega) _).bind ?_))⟩
        rw [if_pos htype]
        exact (reads_load hn (by omega) _).bind (.pure _)
      | other _ _ e hname htype he hrest =>
        obtain ⟨found, hfound⟩ := ih.mpr hrest
        refine ⟨found, ((skipAnswerName_iff hn).mpr hname).bind ((reads_load hn (by omega) _).bind
          ((reads_load hn (by omega) _).bind ?_))⟩
        rw [if_neg htype]
        exact hfound

lemma handleDns_iff {dns : Nat} :
    Ensures n (handleDns mem dns s) (FromFrame mem.bytes n s) ↔ DnsFits mem.bytes n dns := by
  simp only [handleDns, rd16, ensures_load_bind_iff hn Nat.two_pos]
  constructor
  · rintro ⟨-, hheader, -, t, h, -⟩
    obtain ⟨e, hquestions, h⟩ := Reads.of_bind h
    obtain ⟨found, hfound, -⟩ := Reads.of_bind h
    exact ⟨hheader, e, (skipQuestions_iff hn).mp hquestions, (walkAnswers_iff hn).mp ⟨found, hfound⟩⟩
  · rintro ⟨hheader, e, hquestions, hanswers⟩
    obtain ⟨found, hfound⟩ := (walkAnswers_iff hn).mpr hanswers
    refine ⟨by omega, hheader, by omega, .bind ((skipQuestions_iff hn).mpr hquestions) (.bind hfound ?_)⟩
    cases found with
    | none => exact .pure (.of_eq rfl rfl)
    | some ip => exact .pure (.of_eq rfl rfl)

/-! ### The handlers -/

lemma handleArp_ensures : Ensures n (handleArp mem n s) (FromFrame mem.bytes n s) := by
  by_cases hlen : n < 14 + 28
  · rw [handleArp, if_pos hlen]
    exact .pure (.of_eq rfl rfl)
  · rw [handleArp, if_neg hlen]
    refine .bind (reads_load hn (by omega) _) (.bind (reads_load hn (by omega) _)
      (.bind (reads_load hn (by omega) _) (.bind (reads_load hn (by omega) _) ?_)))
    split_ifs
    · refine .bind (reads_load hn (by omega) _) (.pure ⟨fun i k hk hk' => ?_, fun f hf => ?_⟩)
      · dsimp only at hk'
        omega
      · rcases mem_append.mp hf with hf | hf
        · exact .inl hf
        · exact .inr (.inl ⟨_, _, by omega, mem_singleton.mp hf⟩)
    · exact .pure (.of_eq rfl rfl)

lemma handleIcmp_iff {icmp icmpLen : Nat} (hframe : 34 ≤ n) (hlen : 8 ≤ icmpLen) :
    Ensures n (handleIcmp mem icmp icmpLen s) (FromFrame mem.bytes n s) ↔ IcmpFits mem.bytes n icmp icmpLen := by
  rw [handleIcmp, rd8, ensures_load_bind_iff hn Nat.one_pos, rd32, ensures_load_bind_iff hn (by omega), IcmpFits]
  refine and_congr Iff.rfl ?_
  rw [and_iff_right (by omega)]
  split_ifs with h0 h8 hroom
  · simp only [rd16, ensures_load_bind_iff hn Nat.two_pos]
    refine ⟨fun h => ⟨fun _ => by omega, fun h8 => ?_⟩, fun h => ⟨by have := h.1 h0; omega, by
      have := h.1 h0; omega, .pure (.of_eq rfl rfl)⟩⟩
    rw [h0] at h8
    exact absurd h8 (by decide)
  · exact iff_of_true (.pure (.of_eq rfl rfl)) ⟨fun h => absurd h h0, fun _ h => by omega⟩
  · rw [copy, ensures_load_bind_iff hn (by omega), copy, ensures_load_bind_iff hn (by omega)]
    refine ⟨fun h => ⟨fun h => absurd h h0, fun _ _ => h.2.1⟩, fun h => ?_⟩
    have hfit := h.2 h8 (by omega)
    refine ⟨by omega, hfit, .pure ⟨fun i k hk hk' => ?_, fun f hf => ?_⟩⟩
    · dsimp only at hk'
      omega
    · rcases mem_append.mp hf with hf | hf
      · exact .inl hf
      · exact .inr (.inr ⟨_, _, _, _, by omega, hfit, mem_singleton.mp hf⟩)
  · exact iff_of_true (.pure (.of_eq rfl rfl)) ⟨fun h => absurd h h0, fun h => absurd h h8⟩

end

/-- Data is stored behind the buffered bytes, and it is the beginning of the payload. -/
lemma acceptData_rx (c : TcpConn) (seg : TcpSegment) : (acceptData c seg).1.rxLen - c.rxLen ≤ seg.payload.length ∧
      ∀ k, c.rxLen ≤ k → k < (acceptData c seg).1.rxLen →
        (acceptData c seg).1.rxBuf k = seg.payload.getD (k - c.rxLen) 0 := by
  by_cases hin : seg.payload.length > 0 ∧ seg.seq = c.rcvNxt
  · rw [acceptData, if_pos hin]
    dsimp only
    generalize hcopy : (if c.rxLen + seg.payload.length > c.rxCap then c.rxCap - c.rxLen
      else seg.payload.length) = copy
    have hle : copy ≤ seg.payload.length := by
      rw [← hcopy]
      split_ifs <;> omega
    by_cases hpos : copy > 0
    · rw [if_pos hpos]
      refine ⟨by dsimp only; omega, fun k hk hk' => ?_⟩
      dsimp only at hk' ⊢
      rw [blit_of_mem hk hk']
      rfl
    · rw [if_neg hpos]
      exact ⟨by omega, fun k hk hk' => by omega⟩
  · rw [acceptData, if_neg hin]
    dsimp only
    exact ⟨by omega, fun k hk hk' => by omega⟩

/-- Whatever the flags and the state are, a segment adds to a receive buffer at most its payload. -/
lemma handleConn_rx (c : TcpConn) (seg : TcpSegment) : (handleConn c seg).1.rxLen - c.rxLen ≤ seg.payload.length ∧
      ∀ k, c.rxLen ≤ k → k < (handleConn c seg).1.rxLen →
        (handleConn c seg).1.rxBuf k = seg.payload.getD (k - c.rxLen) 0 := by
  have hstay : c.rxLen - c.rxLen ≤ seg.payload.length ∧ ∀ k, c.rxLen ≤ k → k < c.rxLen →
      c.rxBuf k = seg.payload.getD (k - c.rxLen) 0 := ⟨by omega, fun k hk hk' => by omega⟩
  have hdata := acceptData_rx c seg
  rw [handleConn]
  by_cases hrst : seg.flags &&& TCP_RST ≠ 0
  · rw [if_pos hrst]
    exact hstay
  · rw [if_neg hrst]
    by_cases hsyn : c.state = .synSent
    · split_ifs
      · exact hstay
      · exact hstay
    · split_ifs
      · exact hdata
      · exact hdata

lemma acceptData_rxLen (c : TcpConn) (seg : TcpSegment) : (acceptData c seg).1.rxLen - c.rxLen =
    if seg.seq = c.rcvNxt then min seg.payload.length (c.rxCap - c.rxLen) else 0 := by
  rw [acceptData]
  by_cases hin : seg.payload.length > 0 ∧ seg.seq = c.rcvNxt
  · rw [if_pos hin, if_pos hin.2]
    dsimp only
    split_ifs <;> grind
  · rw [if_neg hin]
    split_ifs with hseq
    · have : seg.payload.length = 0 := by
        by_contra h0
        exact hin ⟨by omega, hseq⟩
      dsimp only
      omega
    · dsimp only
      omega

lemma copied_eq_taken (net : TcpNet) (seg : TcpSegment) : copied net seg = taken net seg := by
  rw [copied, taken]
  cases demux net seg with
  | none => rfl
  | some i =>
    dsimp only
    generalize net.conns i = c
    rw [handleConn]
    by_cases hrst : seg.flags &&& TCP_RST = 0
    · by_cases hsyn : c.state = .synSent
      · rw [if_neg (not_not_intro hrst), if_pos hsyn, apply_ite Prod.fst, apply_ite TcpConn.rxLen, ite_self,
          Nat.sub_self]
        simp [hsyn]
      · rw [if_neg (by simp [hrst]), if_neg hsyn]
        have h := acceptData_rxLen c seg
        simp only [hrst, hsyn, ne_eq, not_false_eq_true, true_and]
        rw [← h]
        split_ifs <;> rfl
    · rw [if_pos hrst, if_neg fun h => hrst h.1]
      dsimp only
      omega

lemma taken_le (net : TcpNet) (seg : TcpSegment) : taken net seg ≤ seg.payload.length := by
  rw [← copied_eq_taken, copied]
  split
  · exact Nat.zero_le _
  · exact (handleConn_rx _ _).1

lemma handleTcp_rx (net : TcpNet) (seg : TcpSegment) (i : Fin NET_MAX_CONNS)
    (hk : (net.conns i).rxLen ≤ k) (hk' : k < ((handleTcp net seg).conns i).rxLen) :
    k - (net.conns i).rxLen < copied net seg ∧
      ((handleTcp net seg).conns i).rxBuf k = seg.payload.getD (k - (net.conns i).rxLen) 0 := by
  rw [handleTcp] at hk' ⊢
  cases hd : demux net seg with
  | none =>
    rw [hd] at hk'
    dsimp only at hk'
    omega
  | some j =>
    rw [hd] at hk'
    dsimp only at hk' ⊢
    by_cases hij : i = j
    · subst hij
      rw [Function.update_self] at hk' ⊢
      refine ⟨?_, (handleConn_rx _ _).2 k hk hk'⟩
      rw [copied, hd]
      dsimp only
      omega
    · rw [Function.update_of_ne hij] at hk'
      omega

lemma handleTcpFrame_iff (hn : n ≤ mem.size) {tcp segLen : Nat} (hframe : 34 ≤ n) :
    Ensures n (handleTcpFrame mem tcp segLen s) (FromFrame mem.bytes n s) ↔
      TcpFits s.tcp mem.bytes n tcp segLen := by
  simp only [handleTcpFrame, rd8, rd16, rd32, ensures_load_bind_iff hn Nat.one_pos,
    ensures_load_bind_iff hn Nat.two_pos, ensures_load_bind_iff hn (show 0 < 4 by omega)]
  change _ ∧ _ ∧ _ ∧ _ ∧ _ ∧ _ ∧ Ensures n (readPayload mem (tcp + dataOffset mem.bytes tcp) (copied s.tcp
    (segmentAt mem.bytes tcp segLen (dataOffset mem.bytes tcp))) >>= fun _ =>
      Pure.pure { s with tcp := handleTcp s.tcp (segmentAt mem.bytes tcp segLen (dataOffset mem.bytes tcp)) }) _ ↔ _
  rw [TcpFits, copied_eq_taken]
  have hle := taken_le s.tcp (segmentAt mem.bytes tcp segLen (dataOffset mem.bytes tcp))
  have hrx := fun k => @handleTcp_rx k s.tcp (segmentAt mem.bytes tcp segLen (dataOffset mem.bytes tcp))
  simp only [copied_eq_taken] at hrx
  generalize hdata : dataOffset mem.bytes tcp = dataOff at *
  have hpayload : (segmentAt mem.bytes tcp segLen dataOff).payload =
    mem.bytes.slice (tcp + dataOff) (segLen - dataOff) := rfl
  generalize segmentAt mem.bytes tcp segLen dataOff = seg at *
  rw [hpayload, length_slice] at hle
  constructor
  · rintro ⟨-, -, -, hfields, -, -, t, h, -⟩
    refine ⟨by omega, fun hpos => ?_⟩
    obtain ⟨_, hread, -⟩ := Reads.of_bind h
    rw [readPayload, if_pos hpos] at hread
    have hlast := hread.2 (tcp + dataOff, taken s.tcp seg) (mem_singleton.mpr rfl) (taken s.tcp seg - 1)
      (by dsimp only; omega)
    dsimp only at hlast
    omega
  · rintro ⟨hfields, hfit⟩
    have hread : Reads n (readPayload mem (tcp + dataOff) (taken s.tcp seg)) () := by
      rw [readPayload]
      split_ifs with hpos
      · exact reads_load hn (hfit hpos) _
      · exact .pure _
    refine ⟨by omega, by omega, by omega, by omega, by omega, by omega, .bind hread
      (.pure (FromFrame.mk (fun i k hk hk' => ?_) fun f hf => .inl hf))⟩
    obtain ⟨hlt, hbyte⟩ := hrx k i hk hk'
    refine ⟨tcp + dataOff + (k - (s.tcp.conns i).rxLen), by have := hfit (by omega); omega, ?_⟩
    rw [hbyte, hpayload, getD_eq_getElem _ _ (by rw [length_slice]; omega), getElem_slice]

lemma handleUdp_iff (hn : n ≤ mem.size) {udp : Nat} :
    Ensures n (handleUdp mem udp s) (FromFrame mem.bytes n s) ↔ UdpFits mem.bytes n udp := by
  rw [handleUdp, rd16, ensures_load_bind_iff hn Nat.two_pos, UdpFits]
  refine and_congr Iff.rfl ?_
  by_cases hsrc : be16 mem.bytes udp = DNS_PORT
  · rw [if_neg (not_not_intro hsrc), rd16, ensures_load_bind_iff hn Nat.two_pos]
    simp only [hsrc, true_imp_iff]
    refine and_congr Iff.rfl ?_
    by_cases hdst : be16 mem.bytes (udp + 2) = DNS_SRC_PORT
    · rw [if_neg (not_not_intro hdst), handleDns_iff hn]
      simp only [hdst, true_imp_iff]
    · rw [if_pos hdst]
      exact iff_of_true (.pure (.of_eq rfl rfl)) fun h => absurd h hdst
  · rw [if_pos hsrc]
    exact iff_of_true (.pure (.of_eq rfl rfl)) fun h => absurd h hsrc

/-- The packet that `handle_ip` hands on lies in the frame as far as its handler looks at it. -/
lemma handleIp_iff (hn : n ≤ mem.size) (htype : be16 mem.bytes 12 = ETHERTYPE_IP) :
    Ensures n (handleIp mem n s) (FromFrame mem.bytes n s) ↔ FrameFits s.tcp mem.bytes n := by
  rw [handleIp, FrameFits]
  by_cases hlen : n < 14 + 20
  · rw [if_pos hlen]
    exact iff_of_true (.pure (.of_eq rfl rfl)) fun _ h => by omega
  rw [if_neg hlen, rd8, ensures_load_bind_iff hn Nat.one_pos, rd16, ensures_load_bind_iff hn Nat.two_pos, rd32,
    ensures_load_bind_iff hn (by omega), and_iff_right (by omega), and_iff_right (by omega), and_iff_right (by omega)]
  simp only [htype, true_imp_iff]
  rw [imp_iff_right (by omega)]
  by_cases hdst : be32 mem.bytes (14 + 16) = NET_IP
  · rw [if_neg (not_not_intro hdst), rd8, ensures_load_bind_iff hn Nat.one_pos, and_iff_right (by omega),
      imp_iff_right hdst]
    simp only [headerLength, totalLength]
    generalize (mem.bytes 14 &&& 0x0f).toNat * 4 = ihl
    generalize (be16 mem.bytes (14 + 2)).toNat = total
    have h1 : IP_PROTO_ICMP ≠ IP_PROTO_TCP := by decide
    have h2 : IP_PROTO_ICMP ≠ IP_PROTO_UDP := by decide
    have h3 : IP_PROTO_TCP ≠ IP_PROTO_UDP := by decide
    split_ifs with hicmp htcp hudp
    · rw [handleIcmp_iff hn (by omega) (by omega)]
      simp only [hicmp, h1, h2, true_imp_iff, false_imp_iff, and_true]
    · rw [handleTcpFrame_iff hn (by omega)]
      simp only [htcp, h1.symm, h3, true_imp_iff, false_imp_iff, and_true, true_and]
    · rw [handleUdp_iff hn]
      simp only [hudp, h2.symm, h3.symm, true_imp_iff, false_imp_iff, true_and]
    · exact iff_of_true (.pure (.of_eq rfl rfl)) ⟨fun hp ht => absurd ⟨hp, ht⟩ hicmp,
        fun hp ht => absurd ⟨hp, ht⟩ htcp, fun hp ht => absurd ⟨hp, ht⟩ hudp⟩
  · rw [if_pos hdst]
    exact iff_of_true (.pure (.of_eq rfl rfl)) fun h => absurd h hdst

end bounds

/-! ### Frames -/

/-- The handlers return, every byte they read lies in the frame, and what they store and echo comes from it, exactly if
the frame fits. -/
theorem frame_reads_inside (mem : Memory) (n : Nat) (s : NetState) (hn : 14 ≤ n ∧ n ≤ 2048)
    (hsize : 2048 ≤ mem.size) :
    Ensures n (netFrame mem n s) (FromFrame mem.bytes n s) ↔ FrameFits s.tcp mem.bytes n := by
  have hmem : n ≤ mem.size := by omega
  rw [netFrame, if_neg (by omega), Nat.mod_eq_of_lt (by omega), rd16, ensures_load_bind_iff hmem Nat.two_pos,
    and_iff_right (by omega)]
  have hne : ETHERTYPE_ARP ≠ ETHERTYPE_IP := by decide
  split_ifs with harp hip
  · refine iff_of_true (handleArp_ensures hmem) fun hip => ?_
    exact absurd (harp.symm.trans hip) hne
  · exact handleIp_iff hmem hip
  · exact iff_of_true (.pure (.of_eq rfl rfl)) fun h => absurd h hip

def quietNet : NetState where
  mac := [2, 0, 0, 0, 0, 1]
  arpCache := fun _ => ⟨0, [], false⟩
  reply := ⟨0, 0, 0, false⟩
  dns := ⟨0, 0, false⟩
  tcp := ⟨fun _ => ⟨.closed, 0, 0, 0, 0, 0, Buf.zero, 0, 0, false, false⟩, [], none⟩
  sent := []

/-- The start of a frame from a neighbour: an IP packet of `total` bytes for us. -/
def ipFrame (total : UInt16) (proto : UInt8) (data : List UInt8) : List UInt8 :=
  ethBuildHeader [2, 0, 0, 0, 0, 2] [2, 0, 0, 0, 0, 1] ETHERTYPE_IP ++ [0x45, 0] ++ wr16 total ++
    [0, 0, 0x40, 0, 64, proto, 0, 0] ++ wr32 0x0A000202 ++ wr32 NET_IP ++ data

/-- A DNS answer with one question (the root) and one address. -/
def dnsFrame : List UInt8 :=
  ipFrame 61 IP_PROTO_UDP (wr16 DNS_PORT ++ wr16 DNS_SRC_PORT ++ [0, 41, 0, 0] ++
    [0xAB, 0xCD, 0x81, 0x80, 0, 1, 0, 1, 0, 0, 0, 0] ++ [0, 0, 1, 0, 1] ++
    [0xC0, 12, 0, 1, 0, 1, 0, 0, 0, 60, 0, 4, 93, 184, 216, 34])

lemma frameFits_dnsFrame : FrameFits quietNet.tcp (Buf.ofList dnsFrame) 75 := by
  intro _ _ _
  refine ⟨fun h => absurd h (by decide), fun h => absurd h (by decide), fun _ _ => ⟨by decide, fun _ => ⟨by decide,
    fun _ => ⟨by decide, 59, ?_, ?_⟩⟩⟩⟩
  · exact .one 0 54 55 59 (.root 54 (by decide) (by decide)) (.none 59)
  · exact .address 0 59 61 ⟨by decide, by rw [if_pos (by decide)]⟩ (by decide) (by decide)

theorem frame_reads_inside_dns : Ensures 75 (netFrame ⟨Buf.ofList dnsFrame, 4096⟩ 75 quietNet)
      (FromFrame (Buf.ofList dnsFrame) 75 quietNet) ∧
    (netFrame ⟨Buf.ofList dnsFrame, 4096⟩ 75 quietNet).result.map (fun s => s.dns.ip) = some 0x5DB8D822 :=
  ⟨(frame_reads_inside ⟨Buf.ofList dnsFrame, 4096⟩ 75 quietNet (by decide) (by decide)).mpr frameFits_dnsFrame,
    by decide⟩

/-- An echo request of 42 bytes that claims an IP packet of 60 bytes: the answer echoes 32 bytes that lie
behind the frame. -/
theorem frame_reads_fails :
    let mem : Memory := ⟨Buf.ofList (ipFrame 60 IP_PROTO_ICMP [8, 0, 0, 0, 0, 1, 0, 1]), 4096⟩
    (ipFrame 60 IP_PROTO_ICMP [8, 0, 0, 0, 0, 1, 0, 1]).length = 42 ∧
      (34, 40) ∈ (netFrame mem 42 quietNet).reads ∧ ¬ (netFrame mem 42 quietNet).Within 42 := by
  intro mem
  have hread : (34, 40) ∈ (netFrame mem 42 quietNet).reads := by decide
  refine ⟨by decide, hread, fun hwithin => ?_⟩
  have := hwithin (34, 40) hread 39 (by decide)
  omega

end VibeOS
