import Albusforge.Lib.CMemory
import Albusforge.Lib.Cursor

/-!
# The captive name server

While the setup hotspot is up, a task answers every name with the address of the camera, in the
buffer it has received the question in. Only what was received may be read there (`Packet.read`) and
only the buffer may be written, so that a run that has a value has stayed inside both.

**It answers the datagrams that are a `Query` and no others**, with the query's own bytes up to the end
of the question and one record behind them (`dns_answers`).
-/

namespace Albusforge.Camera.Dns

open Lib CMemory

/-! ## The task -/

/-- The buffer, of which `recvfrom` has filled the beginning. -/
structure Packet where
  buffer : Bytes
  received : ℕ

/-- `recvfrom(socket_fd, buffer, sizeof buffer - 16, ..)` of a datagram that fits. -/
def Packet.recv (buffer datagram : Bytes) : Packet := ⟨datagram ++ buffer.drop datagram.length, datagram.length⟩

/-- `buffer[i]`, where something was received -/
def Packet.read (p : Packet) (i : ℕ) : Access UInt8 := if i < p.received then load p.buffer i else none

/-- `buffer[i] = c` -/
def Packet.write (p : Packet) (i : ℕ) (c : UInt8) : Access Packet := do
  return { p with buffer := ← store p.buffer i c }

/-- `memcpy(buffer + i, bytes, sizeof bytes)` -/
def Packet.copy (p : Packet) (i : ℕ) (bytes : Bytes) : Access Packet :=
  if i + bytes.length ≤ p.buffer.length then
    some { p with buffer := p.buffer.take i ++ bytes ++ p.buffer.drop (i + bytes.length) }
  else none

def nameEnd (p : Packet) (i : ℕ) : Access (Option ℕ) :=
  if i < p.received then do
    let len ← p.read i
    if len = 0 then return some i
    else if len > 63 ∨ i + len.toNat + 1 ≥ p.received then return none
    else nameEnd p (i + len.toNat + 1)
  else return some i
termination_by p.received - i

/-- `buffer[i] == 0 && buffer[i + 1] == 1 && buffer[i + 2] == 0 && buffer[i + 3] == 1` -/
def isAddress (p : Packet) (i : ℕ) : Access Bool := do
  if (← p.read i) ≠ 0 then return false
  if (← p.read (i + 1)) ≠ 1 then return false
  if (← p.read (i + 2)) ≠ 0 then return false
  return (← p.read (i + 3)) = 1

def answer : Bytes := [0xc0, 0x0c, 0, 1, 0, 1, 0, 0, 0, 60, 0, 4, 192, 168, 4, 1]

def replyHeader (p : Packet) (a : Bool) : Access Packet := do
  let p ← p.write 2 0x81
  let p ← p.write 3 0x80
  let p ← p.write 6 0
  let p ← p.write 7 (if a then 1 else 0)
  let p ← p.write 11 0
  let p ← p.write 10 0
  let p ← p.write 9 0
  p.write 8 0

def reply (p : Packet) (i : ℕ) (a : Bool) : Access Bytes := do
  let p ← replyHeader p a
  if a then
    let p ← p.copy i answer
    return p.buffer.take (i + answer.length)
  else return p.buffer.take i

def dns (active : Bool) (p : Packet) : Access (Option Bytes) := do
  if !active || p.received < 17 then return none
  if (← p.read 4) ≠ 0 then return none
  if (← p.read 5) ≠ 1 then return none
  match ← nameEnd p 12 with
  | none => return none
  | some i =>
    if i + 5 > p.received then return none
    let a ← isAddress p (i + 1)
    return some (← reply p (i + 1 + 4) a)

/-! ## Questions -/

structure Label where
  bytes : Bytes
  nonempty : bytes ≠ []
  short : bytes.length ≤ 63

def Label.wire (l : Label) : Bytes := UInt8.ofNat l.bytes.length :: l.bytes

abbrev Word : Type := UInt8 × UInt8

def Word.wire (w : Word) : Bytes := [w.1, w.2]

structure Question where
  labels : List Label
  type : Word
  class_ : Word

def Question.wire (q : Question) : Bytes := q.labels.flatMap Label.wire ++ 0 :: (q.type.wire ++ q.class_.wire)

structure Header where
  id : Word
  flags : Word
  questions : Word
  answers : Word
  authorities : Word
  additionals : Word

def Header.wire (h : Header) : Bytes :=
  h.id.wire ++ h.flags.wire ++ h.questions.wire ++ h.answers.wire ++ h.authorities.wire ++ h.additionals.wire

structure Query where
  header : Header
  one : header.questions = (0, 1)
  question : Question
  rest : Bytes

def Query.wire (q : Query) : Bytes := q.header.wire ++ q.question.wire ++ q.rest

def Question.isAddress (q : Question) : Bool := q.type = (0, 1) && q.class_ = (0, 1)

def addressRecord (offset : UInt8) (address : Bytes) : Bytes :=
  [0xc0, offset] ++ Word.wire (0, 1) ++ Word.wire (0, 1) ++ [0, 0, 0, 60] ++ Word.wire (0, 4) ++ address

def Query.reply (q : Query) : Bytes :=
  let count : UInt8 := if q.question.isAddress then 1 else 0
  let header : Header :=
    { id := q.header.id, flags := (0x81, 0x80), questions := (0, 1), answers := (0, count)
      authorities := (0, 0), additionals := (0, 0) }
  header.wire ++ q.question.wire ++ if q.question.isAddress then addressRecord 12 [192, 168, 4, 1] else []

/-! ## What is read -/

section

variable {buffer datagram rest : Bytes} {i : ℕ}

theorem read_recv : (Packet.recv buffer datagram).read i = datagram[i]? := by
  unfold Packet.read Packet.recv load
  split
  · rename_i h
    exact List.getElem?_append_left h
  · rename_i h
    exact (List.getElem?_eq_none (Nat.le_of_not_lt h)).symm

theorem nameEnd_eq {b : UInt8} (h : datagram.drop i = b :: rest) :
    nameEnd (Packet.recv buffer datagram) i =
      if b = 0 then some (some i)
      else if b > 63 ∨ i + b.toNat + 1 ≥ datagram.length then some none
      else nameEnd (Packet.recv buffer datagram) (i + b.toNat + 1) := by
  have hread : (Packet.recv buffer datagram).read i = some b := read_recv.trans (getElem?_of_drop h)
  have hlt : i < (Packet.recv buffer datagram).received := lt_of_getElem? (getElem?_of_drop h)
  rw [nameEnd, if_pos hlt, hread]
  rfl

theorem nameEnd_labels {labels : List Label} : ∀ {i : ℕ},
    datagram.drop i = labels.flatMap Label.wire ++ 0 :: rest →
      nameEnd (Packet.recv buffer datagram) i = some (some (i + (labels.flatMap Label.wire).length)) := by
  induction labels with
  | nil =>
    intro i h
    rw [nameEnd_eq h, if_pos rfl]
    rfl
  | cons l labels ih =>
    intro i h
    have hlen : (UInt8.ofNat l.bytes.length).toNat = l.bytes.length := by
      have hshort := l.short
      rw [UInt8.toNat_ofNat']
      omega
    have hpos : 0 < l.bytes.length := List.length_pos_iff.mpr l.nonempty
    have hafter : datagram.drop (i + l.bytes.length + 1) = labels.flatMap Label.wire ++ 0 :: rest := by
      have hsplit : datagram.drop i = l.wire ++ (labels.flatMap Label.wire ++ 0 :: rest) := by
        rw [h, List.flatMap_cons, List.append_assoc]
      have hdrop := drop_add hsplit
      rwa [Label.wire, List.length_cons, ← Nat.add_assoc] at hdrop
    have hinside : i + l.bytes.length + 1 < datagram.length := by
      have hlength := congrArg List.length hafter
      simp only [List.length_drop, List.length_append, List.length_cons] at hlength
      omega
    have hzero : UInt8.ofNat l.bytes.length ≠ 0 := by
      intro heq
      rw [heq] at hlen
      exact absurd hlen (by simp; omega)
    have hshort : ¬ UInt8.ofNat l.bytes.length > 63 := by
      have hshort := l.short
      simp only [gt_iff_lt, UInt8.lt_iff_toNat_lt, hlen, UInt8.reduceToNat]
      omega
    have hgo : ¬ (UInt8.ofNat l.bytes.length > 63 ∨ i + (UInt8.ofNat l.bytes.length).toNat + 1 ≥ datagram.length) := by
      rw [hlen, not_or]
      exact ⟨hshort, by omega⟩
    rw [nameEnd_eq h, if_neg hzero, if_neg hgo, hlen, ih hafter, List.flatMap_cons,
      List.length_append, Label.wire, List.length_cons]
    congr 2
    omega

theorem nameEnd_split (hlt : i < datagram.length) :
    nameEnd (Packet.recv buffer datagram) i = some none ∨
    ∃ (labels : List Label) (rest : Bytes), datagram.drop i = labels.flatMap Label.wire ++ 0 :: rest := by
  induction hleft : datagram.length - i using Nat.strongRecOn generalizing i with
  | ind n ih =>
    obtain ⟨b, rest, h⟩ := List.exists_cons_of_ne_nil (List.drop_eq_nil_iff.not.mpr (Nat.not_le.mpr hlt))
    rw [nameEnd_eq h]
    by_cases hzero : b = 0
    · exact .inr ⟨[], rest, hzero ▸ h⟩
    · rw [if_neg hzero]
      by_cases hbad : b > 63 ∨ i + b.toNat + 1 ≥ datagram.length
      · rw [if_pos hbad]
        exact .inl rfl
      · rw [if_neg hbad]
        simp only [gt_iff_lt, ge_iff_le, UInt8.lt_iff_toNat_lt, UInt8.reduceToNat, not_or, Nat.not_lt, Nat.not_le] at hbad
        have hlength : rest.length = datagram.length - (i + 1) := by
          rw [← drop_succ h, List.length_drop]
        have hpos : b.toNat ≠ 0 := fun heq => hzero (UInt8.toNat_inj.mp heq)
        let l : Label :=
          { bytes := rest.take b.toNat
            nonempty := by
              rw [ne_eq, ← List.length_eq_zero_iff, List.length_take]
              omega
            short := by
              rw [List.length_take]
              omega }
        have hl : l.wire = b :: rest.take b.toNat := by
          have hlen : (rest.take b.toNat).length = b.toNat := by
            rw [List.length_take]
            omega
          simp only [Label.wire, l, hlen, UInt8.ofNat_toNat]
        rcases ih (datagram.length - (i + b.toNat + 1)) (by omega) (by omega) rfl with hnone | ⟨labels, rest', hrest⟩
        · exact .inl hnone
        · refine .inr ⟨l :: labels, rest', ?_⟩
          rw [h, List.flatMap_cons, List.append_assoc, ← hrest, hl, List.cons_append, List.cons.injEq]
          refine ⟨rfl, ?_⟩
          have hafter : rest.drop b.toNat = datagram.drop (i + b.toNat + 1) := by
            rw [← drop_succ h, List.drop_drop]
            congr 1
            omega
          rw [← hafter, List.take_append_drop]

end

/-! ## What is sent -/

theorem replyHeader_eq {b₀ b₁ b₂ b₃ b₄ b₅ b₆ b₇ b₈ b₉ b₁₀ b₁₁ : UInt8} {body : Bytes} {n : ℕ} (a : Bool) :
    replyHeader ⟨b₀ :: b₁ :: b₂ :: b₃ :: b₄ :: b₅ :: b₆ :: b₇ :: b₈ :: b₉ :: b₁₀ :: b₁₁ :: body, n⟩ a =
      some ⟨[b₀, b₁, 0x81, 0x80, b₄, b₅, 0, if a then 1 else 0, 0, 0, 0, 0] ++ body, n⟩ := by
  simp [replyHeader, Packet.write, store]

theorem reply_eq {b₀ b₁ b₂ b₃ b₄ b₅ b₆ b₇ b₈ b₉ b₁₀ b₁₁ : UInt8} {body tail : Bytes} {n : ℕ} (a : Bool)
    (htail : answer.length ≤ tail.length) :
    reply ⟨b₀ :: b₁ :: b₂ :: b₃ :: b₄ :: b₅ :: b₆ :: b₇ :: b₈ :: b₉ :: b₁₀ :: b₁₁ :: (body ++ tail), n⟩
        (12 + body.length) a =
      some ([b₀, b₁, 0x81, 0x80, b₄, b₅, 0, if a then 1 else 0, 0, 0, 0, 0] ++ body ++ if a then answer else []) := by
  obtain ⟨header, hheader⟩ : ∃ header, header = [b₀, b₁, 0x81, 0x80, b₄, b₅, 0, if a then 1 else 0, 0, 0, 0, 0] := ⟨_, rfl⟩
  have hlength : (header ++ body).length = 12 + body.length := by
    rw [List.length_append, hheader]
    rfl
  rw [reply, replyHeader_eq, ← hheader, ← List.append_assoc, ← hlength]
  cases a with
  | false =>
    simp only [Option.bind_eq_bind, Option.bind_some, Bool.false_eq_true, if_false, List.take_left, List.append_nil]
    rfl
  | true =>
    have hfits : (header ++ body).length + answer.length ≤ (header ++ body ++ tail).length := by
      rw [@List.length_append _ (header ++ body) tail]
      omega
    simp only [Option.bind_eq_bind, Option.bind_some, if_true, Packet.copy, if_pos hfits, List.take_left]
    rw [← List.length_append, List.take_left]
    rfl

theorem isAddress_eq {buffer datagram rest : Bytes} {i : ℕ} {type class_ : Word}
    (h : datagram.drop i = type.wire ++ (class_.wire ++ rest)) :
    isAddress (Packet.recv buffer datagram) i = some (type = (0, 1) && class_ = (0, 1)) := by
  obtain ⟨t, t'⟩ := type
  obtain ⟨c, c'⟩ := class_
  have ht' := drop_succ h
  have hc := drop_succ ht'
  have hc' := drop_succ hc
  simp only [isAddress, read_recv, getElem?_of_drop h, getElem?_of_drop ht', getElem?_of_drop hc, getElem?_of_drop hc']
  by_cases h0 : t = 0 <;> by_cases h1 : t' = 1 <;> by_cases h2 : c = 0 <;> simp [h0, h1, h2]

theorem Header.length_wire (h : Header) : h.wire.length = 12 := rfl

theorem Question.length_wire (q : Question) : q.wire.length = (q.labels.flatMap Label.wire).length + 5 := by
  simp only [Question.wire, Word.wire, List.length_append, List.length_cons, List.length_nil]

theorem Query.length_wire (q : Query) : q.wire.length = 12 + q.question.wire.length + q.rest.length := by
  rw [Query.wire, List.length_append, List.length_append, Header.length_wire]

theorem answer_eq : answer = addressRecord 12 [192, 168, 4, 1] := rfl

theorem reply_query {buffer : Bytes} (q : Query) (hbuffer : buffer.length = 512) (hq : q.wire.length ≤ 496) :
    reply (Packet.recv buffer q.wire) (12 + q.question.wire.length) q.question.isAddress = some q.reply := by
  obtain ⟨⟨⟨b₀, b₁⟩, ⟨b₂, b₃⟩, questions, ⟨b₆, b₇⟩, ⟨b₈, b₉⟩, ⟨b₁₀, b₁₁⟩⟩, one, question, rest⟩ := q
  obtain rfl : questions = (0, 1) := one
  generalize hwire : Query.wire _ = datagram at hq ⊢
  have hrecv : Packet.recv buffer datagram = ⟨b₀ :: b₁ :: b₂ :: b₃ :: 0 :: 1 :: b₆ :: b₇ :: b₈ :: b₉ :: b₁₀ :: b₁₁ ::
      (question.wire ++ (rest ++ buffer.drop datagram.length)), datagram.length⟩ := by
    rw [Packet.recv, ← hwire]
    simp only [Query.wire, Header.wire, Word.wire, List.cons_append, List.nil_append, List.append_assoc]
  have htail : answer.length ≤ (rest ++ buffer.drop datagram.length).length := by
    rw [List.length_append, List.length_drop, hbuffer]
    change 16 ≤ _
    omega
  rw [hrecv, reply_eq _ htail, Query.reply, answer_eq]
  rfl

theorem dns_query {buffer : Bytes} (q : Query) (hbuffer : buffer.length = 512) (hq : q.wire.length ≤ 496) :
    dns true (Packet.recv buffer q.wire) = some (some q.reply) := by
  have hname : q.wire.drop 12 = q.question.labels.flatMap Label.wire ++
      0 :: (q.question.type.wire ++ (q.question.class_.wire ++ q.rest)) := by
    rw [Query.wire, List.append_assoc, List.drop_left' q.header.length_wire, Question.wire]
    simp only [List.append_assoc, List.cons_append]
  have hnameEnd : nameEnd (Packet.recv buffer q.wire) 12 = _ := nameEnd_labels hname
  have haddress : isAddress (Packet.recv buffer q.wire) _ = _ := isAddress_eq (drop_succ (drop_add hname))
  have hreply := reply_query q hbuffer hq
  have hlength := q.length_wire
  rw [q.question.length_wire] at hreply hlength
  generalize (q.question.labels.flatMap Label.wire).length = n at hnameEnd haddress hreply hlength
  have hfour : (Packet.recv buffer q.wire).read 4 = some 0 :=
    read_recv.trans (congrArg some (congrArg Prod.fst q.one))
  have hfive : (Packet.recv buffer q.wire).read 5 = some 1 :=
    read_recv.trans (congrArg some (congrArg Prod.snd q.one))
  have hrecv : (Packet.recv buffer q.wire).received = q.wire.length := rfl
  have hshort : ¬ q.wire.length < 17 := by omega
  have hinside : ¬ q.wire.length < 12 + (n + 5) := by omega
  have hend : 12 + n + 1 + 4 = 12 + (n + 5) := by omega
  simp only [Question.isAddress] at hreply
  simp [dns, hrecv, hshort, hfour, hfive, hnameEnd, hinside, haddress, hend, hreply]

theorem exists_word {bytes : Bytes} (h : 2 ≤ bytes.length) : ∃ (w : Word) (rest : Bytes), bytes = w.wire ++ rest := by
  match bytes, h with
  | b :: b' :: rest, _ => exact ⟨(b, b'), rest, rfl⟩

theorem exists_header {bytes : Bytes} (h : 12 ≤ bytes.length) :
    ∃ (header : Header) (rest : Bytes), bytes = header.wire ++ rest := by
  have hlength : ∀ (w : Word) (rest : Bytes), (w.wire ++ rest).length = rest.length + 2 := fun _ _ => rfl
  obtain ⟨id, rest, rfl⟩ := exists_word (show 2 ≤ bytes.length by omega)
  simp only [hlength] at h
  obtain ⟨flags, rest, rfl⟩ := exists_word (show 2 ≤ rest.length by omega)
  simp only [hlength] at h
  obtain ⟨questions, rest, rfl⟩ := exists_word (show 2 ≤ rest.length by omega)
  simp only [hlength] at h
  obtain ⟨answers, rest, rfl⟩ := exists_word (show 2 ≤ rest.length by omega)
  simp only [hlength] at h
  obtain ⟨authorities, rest, rfl⟩ := exists_word (show 2 ≤ rest.length by omega)
  simp only [hlength] at h
  obtain ⟨additionals, rest, rfl⟩ := exists_word (show 2 ≤ rest.length by omega)
  exact ⟨⟨id, flags, questions, answers, authorities, additionals⟩, rest, rfl⟩

/-- **What is not a query is passed over.** -/
theorem dns_sound (buffer datagram : Bytes) :
    dns true (Packet.recv buffer datagram) = some none ∨ ∃ q : Query, q.wire = datagram := by
  have hrecv : (Packet.recv buffer datagram).received = datagram.length := rfl
  by_cases hshort : datagram.length < 17
  · left
    simp [dns, hrecv, hshort]
  obtain ⟨header, body, hbytes⟩ := exists_header (show 12 ≤ datagram.length by omega)
  have hbody : datagram.drop 12 = body := by
    rw [hbytes, List.drop_left' header.length_wire]
  have hfour : (Packet.recv buffer datagram).read 4 = some header.questions.1 := read_recv.trans (by rw [hbytes]; rfl)
  have hfive : (Packet.recv buffer datagram).read 5 = some header.questions.2 := read_recv.trans (by rw [hbytes]; rfl)
  by_cases hone : header.questions = (0, 1)
  · have hname : nameEnd (Packet.recv buffer datagram) 12 = some none ∨ _ := nameEnd_split (by omega)
    rcases hname with hnone | ⟨labels, rest, hname⟩
    · left
      simp [dns, hrecv, hshort, hfour, hfive, hone, hnone]
    · by_cases hinside : rest.length < 4
      · left
        have hlength := congrArg List.length hname
        rw [List.length_drop, List.length_append, List.length_cons] at hlength
        have hend : datagram.length < 12 + (labels.flatMap Label.wire).length + 5 := by omega
        have hnameEnd : nameEnd (Packet.recv buffer datagram) 12 = _ := nameEnd_labels hname
        generalize (labels.flatMap Label.wire).length = n at hnameEnd hend
        simp [dns, hrecv, hshort, hfour, hfive, hone, hnameEnd, hend]
      · right
        obtain ⟨type, rest, rfl⟩ := exists_word (show 2 ≤ rest.length by omega)
        have hlength : (type.wire ++ rest).length = rest.length + 2 := rfl
        obtain ⟨class_, rest, rfl⟩ := exists_word (show 2 ≤ rest.length by omega)
        refine ⟨⟨header, hone, ⟨labels, type, class_⟩, rest⟩, ?_⟩
        rw [hbytes, ← hbody, hname, Query.wire, Question.wire]
        simp only [List.append_assoc, List.cons_append]
  · left
    have hother : ¬ (header.questions.1 = 0 ∧ header.questions.2 = 1) := fun h => hone (Prod.ext h.1 h.2)
    by_cases hzero : header.questions.1 = 0
    · have hnot : header.questions.2 ≠ 1 := fun h => hother ⟨hzero, h⟩
      simp [dns, hrecv, hshort, hfour, hfive, hzero, hnot]
    · simp [dns, hrecv, hshort, hfour, hzero]

/-- **The name server.** Whatever is received while the hotspot is up, the task stays inside what it has
received and inside its buffer, and it answers queries, with their replies, and nothing else. -/
theorem dns_answers (buffer datagram : Bytes) (hbuffer : buffer.length = 512) (hfits : datagram.length ≤ 496) :
    ∃ sent : Option Bytes, dns true (Packet.recv buffer datagram) = some sent ∧
      ∀ reply, sent = some reply ↔ ∃ q : Query, q.wire = datagram ∧ q.reply = reply := by
  by_cases hquery : ∃ q : Query, q.wire = datagram
  · obtain ⟨q, rfl⟩ := hquery
    refine ⟨some q.reply, dns_query q hbuffer hfits, fun reply => ⟨fun h => ⟨q, rfl, Option.some.inj h⟩, ?_⟩⟩
    -- another query with the same bytes would have got the same reply
    intro ⟨q', hsame, hreply⟩
    have hq' := dns_query q' hbuffer (hsame ▸ hfits)
    rw [hsame, dns_query q hbuffer hfits, hreply] at hq'
    exact Option.some.inj hq'
  · refine ⟨none, (dns_sound buffer datagram).resolve_right hquery, fun reply => ⟨nofun, ?_⟩⟩
    intro ⟨q, hq, _⟩
    exact absurd ⟨q, hq⟩ hquery

def plantQuery : Query where
  header := ⟨(0x12, 0x34), (1, 0), (0, 1), (0, 0), (0, 0), (0, 0)⟩
  one := rfl
  question := ⟨[⟨[112], by simp, by simp⟩], (0, 1), (0, 1)⟩
  rest := []

theorem dns_answers_plant : (List.replicate 512 (0 : UInt8)).length = 512 ∧ plantQuery.wire.length ≤ 496 ∧
    ∃ sent : Option Bytes, dns true (Packet.recv (List.replicate 512 0) plantQuery.wire) = some sent ∧
      ∀ reply, sent = some reply ↔ ∃ q : Query, q.wire = plantQuery.wire ∧ q.reply = reply :=
  ⟨List.length_replicate, by decide,
    dns_answers (List.replicate 512 0) plantQuery.wire List.length_replicate (by decide)⟩

end Albusforge.Camera.Dns
