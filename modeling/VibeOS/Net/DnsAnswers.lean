import VibeOS.Net.DnsName

/-!
# The answers of a DNS response

`DnsMessage` is a well-formed message: questions and records whose names are `WireName`s, with the counts and data
lengths of the format carried as fields. `handle_ip` walks over it to the first address record. Two loops skip names
there. The one for questions passes every name; the one for answers looks for a pointer only at the first byte of a
name, so a name that ends in a pointer behind labels is passed as if the pointer were the length of a label.
-/

namespace VibeOS

open Buf Tracked List

/-! ### Messages -/

/-- A question of a message. -/
structure DnsQuestion where
  name : WireName
  qtype : UInt16
  qclass : UInt16

/-- A resource record; its data has a 16-bit length. -/
structure DnsRecord where
  name : WireName
  type : UInt16
  cls : UInt16
  ttl : UInt32
  data : List UInt8
  data_lt : data.length < 2 ^ 16

/-- A response. `rest` is what follows the answers. -/
structure DnsMessage where
  id : UInt16
  flags : UInt16
  questions : List DnsQuestion
  answers : List DnsRecord
  nscount : UInt16
  arcount : UInt16
  rest : List UInt8
  questions_lt : questions.length < 2 ^ 16
  answers_lt : answers.length < 2 ^ 16

def DnsQuestion.bytes (q : DnsQuestion) : List UInt8 := q.name.bytes ++ (wr16 q.qtype ++ wr16 q.qclass)

def DnsRecord.bytes (r : DnsRecord) : List UInt8 :=
  r.name.bytes ++ (wr16 r.type ++ (wr16 r.cls ++ (wr32 r.ttl ++ (wr16 (UInt16.ofNat r.data.length) ++ r.data))))

def DnsMessage.bytes (m : DnsMessage) : List UInt8 :=
  wr16 m.id ++ (wr16 m.flags ++ (wr16 (UInt16.ofNat m.questions.length) ++
    (wr16 (UInt16.ofNat m.answers.length) ++ (wr16 m.nscount ++ (wr16 m.arcount ++
      (m.questions.flatMap DnsQuestion.bytes ++ (m.answers.flatMap DnsRecord.bytes ++ m.rest)))))))

/-- An address record: type A with four data bytes. -/
def DnsRecord.IsAddress (r : DnsRecord) : Prop := r.type = 1 ∧ r.data.length = 4

instance instDecidableIsAddress (r : DnsRecord) : Decidable r.IsAddress :=
  inferInstanceAs (Decidable (_ ∧ _))

/-- The four data bytes of an address record as an address. -/
def DnsRecord.address (r : DnsRecord) : UInt32 := be32 (Buf.ofList r.data) 0

/-- The address of the first address record. -/
def firstAddress (answers : List DnsRecord) : Option UInt32 :=
  (answers.find? fun r => decide r.IsAddress).map DnsRecord.address

/-- A name that is a pointer, or ends in a zero byte. -/
def WireName.Plain (w : WireName) : Prop := w.labels = [] ∨ w.pointer = none

/-- The names of the answers up to the first address record are plain. -/
def PlainAnswers : List DnsRecord → Prop
  | [] => True
  | r :: rs => r.name.Plain ∧ (r.IsAddress ∨ PlainAnswers rs)

/-! ### Fields -/

section

variable {b : Buf} {p : Nat}

lemma be16_of_holds {v : UInt16} (h : Holds b p (wr16 v)) : be16 b p = v := by
  obtain ⟨h0, h1⟩ := holds_cons.mp h
  obtain ⟨h1, -⟩ := holds_cons.mp h1
  have hv := v.toNat_lt
  apply UInt16.toNat_inj.mp
  rw [be16, h0, h1, UInt16.toNat_ofNat', UInt8.toNat_ofNat', UInt8.toNat_ofNat']
  omega

lemma be32_of_holds {l : List UInt8} (h : Holds b p l) (hl : l.length = 4) : be32 b p = be32 (Buf.ofList l) 0 := by
  obtain ⟨a0, a1, a2, a3, rfl⟩ : ∃ a0 a1 a2 a3, l = [a0, a1, a2, a3] := by
    match l, hl with
    | [a0, a1, a2, a3], _ => exact ⟨a0, a1, a2, a3, rfl⟩
  obtain ⟨h0, h⟩ := holds_cons.mp h
  obtain ⟨h1, h⟩ := holds_cons.mp h
  obtain ⟨h2, h⟩ := holds_cons.mp h
  obtain ⟨h3, -⟩ := holds_cons.mp h
  rw [be32, h0, h1, h2, h3]
  rfl

lemma length_wr16 (v : UInt16) : (wr16 v).length = 2 := rfl

lemma length_wr32 (v : UInt32) : (wr32 v).length = 4 := rfl

/-- Where the fields of a record stand behind its name. -/
structure RecordAt (b : Buf) (e : Nat) (r : DnsRecord) : Prop where
  type : be16 b e = r.type
  rdlength : be16 b (e + 8) = UInt16.ofNat r.data.length
  data : Holds b (e + 10) r.data

lemma recordAt_of_holds {r : DnsRecord} (h : Holds b p r.bytes) :
    Holds b p r.name.bytes ∧ RecordAt b (p + r.name.bytes.length) r := by
  rw [DnsRecord.bytes, holds_append, holds_append, holds_append, holds_append, holds_append, length_wr16,
    length_wr16, length_wr32, length_wr16] at h
  obtain ⟨hname, htype, -, -, hlen, hdata⟩ := h
  exact ⟨hname, be16_of_holds htype, be16_of_holds hlen, hdata⟩

lemma length_recordBytes (r : DnsRecord) : r.bytes.length = r.name.bytes.length + 10 + r.data.length := by
  simp only [DnsRecord.bytes, length_append, length_wr16, length_wr32]
  omega

lemma length_questionBytes (q : DnsQuestion) : q.bytes.length = q.name.bytes.length + 4 := by
  simp only [DnsQuestion.bytes, length_append, length_wr16]

end

/-! ### The walk -/

section

variable {mem : Memory} {n p : Nat}

lemma labelName_labels {b : Buf} {ls : List (List UInt8)} (hls : ∀ l ∈ ls, LabelOk l)
    (hb : Holds b p (ls.flatMap labelBytes ++ [0])) (hn : p + (ls.flatMap labelBytes ++ [0]).length ≤ n) :
    LabelName b n p (p + (ls.flatMap labelBytes ++ [0]).length) := by
  induction ls generalizing p with
  | nil => exact .root p hn (holds_cons.mp hb).1
  | cons l ls ih =>
    obtain ⟨hval, hne, -⟩ := (hls l (mem_cons_self ..)).byte
    rw [flatMap_cons, append_assoc] at hb hn ⊢
    rw [length_append, length_labelBytes] at hn ⊢
    have hbyte : b p = UInt8.ofNat l.length := (holds_cons.mp hb.left).1
    refine .label p _ (by omega) (by rwa [hbyte]) ?_
    rw [hbyte, hval, ← Nat.add_assoc p]
    exact ih (fun l' h => hls l' (mem_cons_of_mem _ h)) hb.right (by omega)

lemma WireName.answerName (w : WireName) (hw : w.Plain) {b : Buf} (hb : Holds b p w.bytes)
    (hn : p + w.bytes.length ≤ n) : AnswerName b n p (p + w.bytes.length) := by
  rw [AnswerName]
  rw [WireName.bytes] at hb hn ⊢
  cases hp : w.pointer with
  | none =>
    rw [hp] at hb hn
    have hlt : p < n := by
      rw [length_append, nameEnd, length_singleton] at hn
      omega
    -- the first byte is the end of the name or the length of a label
    have hfirst : isPointer (b p) = false := by
      cases hl : w.labels with
      | nil =>
        rw [hl] at hb
        rw [(holds_cons.mp hb).1]
        decide
      | cons l ls =>
        rw [hl, flatMap_cons, append_assoc] at hb
        rw [(holds_cons.mp hb.left).1]
        exact (w.labels_ok l (by rw [hl]; exact mem_cons_self ..)).byte.2.2
    rw [if_neg (by rw [hfirst]; decide)]
    exact ⟨hlt, labelName_labels w.labels_ok hb hn⟩
  | some q =>
    have hl : w.labels = [] := hw.resolve_right (by rw [hp]; exact Option.some_ne_none q)
    rw [hp, hl, flatMap_nil, nil_append] at hb hn
    rw [hl, flatMap_nil, nil_append]
    have hlen : (nameEnd (some q)).length = 2 := rfl
    rw [(holds_cons.mp hb).1, if_pos (w.pointer_ok q hp)]
    exact ⟨by omega, rfl⟩

lemma reads_questions {qs : List DnsQuestion} (hb : Holds mem.bytes p (qs.flatMap DnsQuestion.bytes))
    (hn : p + (qs.flatMap DnsQuestion.bytes).length ≤ n) :
    Questions mem.bytes n qs.length p (p + (qs.flatMap DnsQuestion.bytes).length) := by
  induction qs generalizing p with
  | nil => exact .none p
  | cons q qs ih =>
    rw [flatMap_cons] at hb hn ⊢
    rw [length_append, length_questionBytes] at hn ⊢
    have hname := q.name.questionName (n := n) (holds_append.mp hb.left).1 (by omega)
    have hrest := ih hb.right (by rw [length_questionBytes]; omega)
    rw [length_questionBytes, ← Nat.add_assoc p] at hrest
    rw [← Nat.add_assoc p, ← Nat.add_assoc p]
    exact .one _ p _ _ hname hrest

lemma reads_answers (hmem : n ≤ mem.size) {rs : List DnsRecord}
    (hb : Holds mem.bytes p (rs.flatMap DnsRecord.bytes)) (hn : p + (rs.flatMap DnsRecord.bytes).length ≤ n)
    (hplain : PlainAnswers rs) : Reads n (walkAnswers mem rs.length p) (firstAddress rs) := by
  induction rs generalizing p with
  | nil => exact .pure _
  | cons r rs ih =>
    rw [flatMap_cons] at hb hn
    rw [length_append, length_recordBytes] at hn
    obtain ⟨hname, hrec⟩ := recordAt_of_holds hb.left
    have hlen : (UInt16.ofNat r.data.length).toNat = r.data.length :=
      UInt16.toNat_ofNat_of_lt' r.data_lt
    have hskip := (skipAnswerName_iff hmem).mpr (r.name.answerName hplain.1 (n := n) hname (by omega))
    refine hskip.bind ((Memory.reads_load hmem (by omega) _).bind ((Memory.reads_load hmem (by omega) _).bind ?_))
    rw [hrec.type, hrec.rdlength]
    by_cases hr : r.IsAddress
    · have hfour : UInt16.ofNat r.data.length = 4 := by
        rw [hr.2]
        rfl
      have hfirst : firstAddress (r :: rs) = some r.address := by
        rw [firstAddress, find?_cons, decide_eq_true hr]
        rfl
      rw [if_pos ⟨hr.1, hfour⟩, hfirst, DnsRecord.address, ← be32_of_holds hrec.data hr.2]
      have hdata := hr.2
      exact (Memory.reads_load hmem (by omega) _).bind (.pure _)
    · have hnot : ¬ (r.type = 1 ∧ UInt16.ofNat r.data.length = 4) := by
        rintro ⟨htype, hfour⟩
        refine hr ⟨htype, ?_⟩
        rw [← hlen, hfour]
        rfl
      have hfirst : firstAddress (r :: rs) = firstAddress rs := by
        rw [firstAddress, firstAddress, find?_cons_of_neg (by simpa using hr)]
      rw [if_neg hnot, hfirst, hlen]
      have hrest := hb.right
      rw [length_recordBytes] at hrest
      have hnext : p + r.name.bytes.length + 10 + r.data.length =
          p + (r.name.bytes.length + 10 + r.data.length) := by omega
      rw [hnext]
      exact ih hrest (by omega) (hplain.2.resolve_left hr)

end

/-- The state after a response with the answers `rs`. -/
def recordFirst (s : NetState) (id : UInt16) (rs : List DnsRecord) : NetState :=
  match firstAddress rs with
  | some ip => { s with dns := ⟨id, ip, true⟩ }
  | none => s

lemma reads_handleDns {mem : Memory} {dns : Nat} {m : DnsMessage} (s : NetState) (hb : Holds mem.bytes dns m.bytes)
    (hmem : dns + m.bytes.length ≤ mem.size) (hplain : PlainAnswers m.answers) :
    Reads (dns + m.bytes.length) (handleDns mem dns s) (recordFirst s m.id m.answers) := by
  have hlen : m.bytes.length = 12 + (m.questions.flatMap DnsQuestion.bytes).length +
      (m.answers.flatMap DnsRecord.bytes).length + m.rest.length := by
    simp only [DnsMessage.bytes, length_append, length_wr16]
    omega
  simp only [DnsMessage.bytes, holds_append, length_wr16, add_assoc, Nat.reduceAdd] at hb
  obtain ⟨hid, -, hqd, han, -, -, hquestions, hanswers, -⟩ := hb
  have hq := reads_questions (n := dns + m.bytes.length) hquestions (by omega)
  have ha := reads_answers hmem (p := dns + 12 + (m.questions.flatMap DnsQuestion.bytes).length)
    (by rwa [add_assoc]) (by omega) hplain
  have hqcount : (be16 mem.bytes (dns + 4)).toNat = m.questions.length := by
    rw [be16_of_holds hqd]
    exact UInt16.toNat_ofNat_of_lt' m.questions_lt
  have hacount : (be16 mem.bytes (dns + 6)).toNat = m.answers.length := by
    rw [be16_of_holds han]
    exact UInt16.toNat_ofNat_of_lt' m.answers_lt
  refine (Memory.reads_load hmem (by omega) _).bind ((Memory.reads_load hmem (by omega) _).bind
    ((Memory.reads_load hmem (by omega) _).bind ?_))
  rw [hqcount, hacount, be16_of_holds hid]
  refine ((skipQuestions_iff hmem).mpr hq).bind (ha.bind ?_)
  rw [recordFirst]
  cases firstAddress m.answers with
  | none => exact .pure _
  | some ip => exact .pure _

/-- For every well-formed response whose answers up to the first address record have names that are a pointer
or end in a zero byte: the walk ends, stays inside the message, and records the address of the first address
record, or nothing if there is none. -/
theorem dns_answer_walk (mem : Memory) (dns : Nat) (m : DnsMessage) (s : NetState)
    (hb : Holds mem.bytes dns m.bytes) (hmem : dns + m.bytes.length ≤ mem.size) (hplain : PlainAnswers m.answers) :
    Reads (dns + m.bytes.length) (handleDns mem dns s) (recordFirst s m.id m.answers) :=
  reads_handleDns s hb hmem hplain

/-! ### Examples of messages -/

/-- A pointer to the name of the first question. -/
def questionPointer : WireName := ⟨[], some (0xC0, 12), nofun, fun _ h => Option.some.inj h ▸ rfl⟩

/-- The label `a` before a pointer to the name of the first question. -/
def labelPointer : WireName := ⟨[[97]], some (0xC0, 12), by decide, fun _ h => Option.some.inj h ▸ rfl⟩

/-- A response to a question for the name `b` with the answers `rs`. -/
def responseFor (rs : List DnsRecord) (h : rs.length < 2 ^ 16) : DnsMessage where
  id := 0xABCD
  flags := 0x8180
  questions := [⟨⟨[[98]], none, by decide, nofun⟩, 1, 1⟩]
  answers := rs
  nscount := 0
  arcount := 0
  rest := []
  questions_lt := by decide
  answers_lt := h

/-- A name record and an address record, both named by a pointer. -/
def aliasResponse : DnsMessage :=
  responseFor [⟨questionPointer, 5, 1, 60, [1, 99, 0], by decide⟩,
    ⟨questionPointer, 1, 1, 60, [93, 184, 216, 34], by decide⟩] (by decide)

theorem dns_answer_walk_alias :
    Reads (aliasResponse.bytes.length) (handleDns ⟨Buf.ofList aliasResponse.bytes, 512⟩ 0 quietNet)
      { quietNet with dns := ⟨0xABCD, 0x5DB8D822, true⟩ } := by
  have h := dns_answer_walk ⟨Buf.ofList aliasResponse.bytes, 512⟩ 0 aliasResponse quietNet (by decide) (by decide)
    ⟨.inl rfl, .inr ⟨.inl rfl, .inl (by decide)⟩⟩
  exact h

/-- An address record whose name is a label before a pointer. -/
def pointedResponse : DnsMessage :=
  responseFor [⟨labelPointer, 1, 1, 60, [93, 184, 216, 34], by decide⟩] (by decide)

/-- The response holds an address, and the parser records nothing: it passes 193 bytes for the pointer and goes
on in what lies behind the message. -/
theorem dns_answer_walk_fails : firstAddress pointedResponse.answers = some 0x5DB8D822 ∧
    Holds (Buf.ofList pointedResponse.bytes) 0 pointedResponse.bytes ∧ pointedResponse.bytes.length ≤ 512 ∧
    (handleDns ⟨Buf.ofList pointedResponse.bytes, 512⟩ 0 quietNet).result.map (fun s => s.dns.got) = some false := by
  decide

end VibeOS
