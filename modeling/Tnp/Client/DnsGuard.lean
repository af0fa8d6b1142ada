import Mathlib.Data.Nat.Bitwise
import Tnp.Lib.Buffer

/-!
What is decided of a query from its bytes alone, before it is decoded, and what is compared of an
answer's.

Two loops walk the name of a question. They see the same question wherever the first accepts it.
-/

namespace Tnp.Client.DnsGuard

open Tnp.Lib

/-! ### The guard -/

def MAX_QUERY_BYTES_PLAIN : ℕ := 512
def MAX_UDP_PAYLOAD : ℕ := 1232

def TYPE_OPT : ℕ := 41
def CLASS_IN : ℕ := 1
def CLASS_ANY : ℕ := 255
def TYPE_IXFR : ℕ := 251
def TYPE_AXFR : ℕ := 252

def FLAG_QR : ℕ := 0x8000
def FLAG_RD : ℕ := 0x0100
def FLAG_TC : ℕ := 0x0200
def FLAG_RA : ℕ := 0x0080

inductive RcodeName
  | NOERROR
  | FORMERR
  | SERVFAIL
  | NXDOMAIN
  | NOTIMP
  | REFUSED
  deriving DecidableEq, Repr

inductive QueryVerdict
  | ok (questionEnd : ℕ) (ednsSize : Option ℕ)
  | drop (reason : String)
  | error (rcode : RcodeName) (reason : String)
  deriving DecidableEq, Repr

inductive Transport
  | udp
  | tcp
  deriving DecidableEq, Repr

/-- The loop over the name in `inspectQuery`: where the name ends, or why it is refused. -/
def walkName (buf : Bytes) (offset nameLength : ℕ) : Option (Except String ℕ) :=
  if buf.length ≤ offset then some (.error "truncated name")
  else do
    let len ← buf[offset]?
    if len &&& 0xc0 ≠ 0 then some (.error "pointer in question")
    else if 255 < nameLength + (len.toNat + 1) then some (.error "name too long")
    else if len = 0 then some (.ok (offset + (1 + len.toNat)))
    else walkName buf (offset + (1 + len.toNat)) (nameLength + (len.toNat + 1))
termination_by buf.length - offset

/-- What may come after the question: one OPT record. Its payload size, and where it ends. -/
def additionalEnd (buf : Bytes) (arcount offset : ℕ) : Option (Except String (Option ℕ × ℕ)) :=
  if arcount = 1 then
    if buf.length < offset + 11 then some (.error "malformed additional")
    else do
      let owner ← buf[offset]?
      if owner ≠ 0 then some (.error "malformed additional")
      else do
        let type ← readUInt16BE buf (offset + 1)
        if type ≠ TYPE_OPT then some (.error "additional is not OPT")
        else do
          let ednsSize ← readUInt16BE buf (offset + 3)
          let rdlength ← readUInt16BE buf (offset + 9)
          some (.ok (some ednsSize, offset + (11 + rdlength)))
  else some (.ok (none, offset))

/-- The end of `inspectQuery`: nothing else follows, and the client takes packets as large. -/
def inspectSize (buf : Bytes) (transport : Transport) (questionEnd offset : ℕ)
    (ednsSize : Option ℕ) : QueryVerdict :=
  if offset ≠ buf.length then .error .FORMERR "trailing bytes"
  else if transport = .udp ∧ MAX_QUERY_BYTES_PLAIN < buf.length ∧
      ednsSize.elim MAX_QUERY_BYTES_PLAIN (fun size => min (max size 512) MAX_UDP_PAYLOAD) <
        buf.length then
    .drop "larger than advertised"
  else .ok questionEnd ednsSize

/-- `inspectQuery` once the name has ended. -/
def inspectQuestion (buf : Bytes) (transport : Transport) (arcount offset : ℕ) :
    Option QueryVerdict :=
  if buf.length < offset + 4 then some (.error .FORMERR "truncated question")
  else do
    let qtype ← readUInt16BE buf offset
    let qclass ← readUInt16BE buf (offset + 2)
    let questionEnd := offset + 4
    if qtype = TYPE_OPT then some (.error .FORMERR "OPT as question")
    else if qtype = TYPE_AXFR ∨ qtype = TYPE_IXFR then some (.error .REFUSED "zone transfer")
    else if qclass ≠ CLASS_IN ∧ qclass ≠ CLASS_ANY then
      some (.error .REFUSED ("class " ++ toString qclass))
    else do
      match ← additionalEnd buf arcount questionEnd with
      | .error reason => some (.error .FORMERR reason)
      | .ok (ednsSize, offset) => some (inspectSize buf transport questionEnd offset ednsSize)

def inspectQuery (buf : Bytes) (transport : Transport) : Option QueryVerdict :=
  if buf.length < 12 then some (.drop "shorter than a DNS header")
  else if MAX_UDP_PAYLOAD < buf.length then some (.drop "oversized query")
  else do
    let flags ← readUInt16BE buf 2
    let opcode := (flags >>> 11) &&& 0xf
    if flags &&& FLAG_QR ≠ 0 then some (.drop "not a query (QR=1)")
    else if opcode ≠ 0 then some (.error .NOTIMP ("opcode " ++ toString opcode))
    else do
      let qdcount ← readUInt16BE buf 4
      let ancount ← readUInt16BE buf 6
      let nscount ← readUInt16BE buf 8
      let arcount ← readUInt16BE buf 10
      if qdcount ≠ 1 ∨ ancount ≠ 0 ∨ nscount ≠ 0 ∨ 1 < arcount then
        some (.error .FORMERR "section counts")
      else do
        match ← walkName buf 12 0 with
        | .error reason => some (.error .FORMERR reason)
        | .ok offset => inspectQuestion buf transport arcount offset

def encodeTruncated (queryBuf : Bytes) (questionEnd : ℕ) : Option Bytes := do
  let out := queryBuf.take questionEnd ++ List.replicate (questionEnd - queryBuf.length) 0
  let flags ← readUInt16BE queryBuf 2
  let rd := flags &&& FLAG_RD
  let out ← writeUInt16BE out (FLAG_QR ||| FLAG_TC ||| FLAG_RA ||| rd) 2
  let out ← writeUInt16BE out 1 4
  let out ← writeUInt16BE out 0 6
  let out ← writeUInt16BE out 0 8
  writeUInt16BE out 0 10

/-! ### The comparison -/

def lowerByte (c : UInt8) : UInt8 := if 0x41 ≤ c ∧ c ≤ 0x5a then c ||| 0x20 else c

/-- The loop over the name in `questionOf`. `null` is `none` within. -/
def plainNameEnd (buf : Bytes) (offset : ℕ) : Option (Option ℕ) :=
  if buf.length ≤ offset then some none
  else do
    let len ← buf[offset]?
    if len &&& 0xc0 ≠ 0 ∨ 63 < len then some none
    else if len = 0 then some (some (offset + (1 + len.toNat)))
    else plainNameEnd buf (offset + (1 + len.toNat))
termination_by buf.length - offset

def questionOf (buf : Bytes) : Option (Option Bytes) :=
  if buf.length < 12 then some none
  else do
    let qdcount ← readUInt16BE buf 4
    if qdcount ≠ 1 then some none
    else do
      match ← plainNameEnd buf 12 with
      | none => some none
      | some offset =>
        if buf.length < offset + 4 then some none
        else
          let question := (buf.take (offset + 4)).drop 12
          let nameLength := question.length - 4
          some (some ((question.take nameLength).map lowerByte ++ question.drop nameLength))

def isResponseTo (response : Bytes) (expectedId : ℕ) (sent : Bytes) : Option Bool :=
  if response.length < 12 then some false
  else do
    let id ← readUInt16BE response 0
    if id ≠ expectedId then some false
    else do
      let flags ← readUInt16BE response 2
      if flags &&& 0x8000 = 0 then some false
      else do
        let ours ← questionOf sent
        let theirs ← questionOf response
        match ours, theirs with
        | some ours, some theirs => some (decide (ours = theirs))
        | _, _ => some false

/-! ### Questions -/

/-- A label that is written with one length byte. -/
structure Label where
  bytes : Bytes
  length_pos : 0 < bytes.length
  length_le : bytes.length ≤ 63

structure Question where
  labels : List Label
  qtype : ℕ
  qclass : ℕ
  qtype_lt : qtype < 65536
  qclass_lt : qclass < 65536

def Label.encode (label : Label) : Bytes := UInt8.ofNat label.bytes.length :: label.bytes

def encodeName (labels : List Label) : Bytes := labels.flatMap Label.encode ++ [0]

def Question.encode (question : Question) : Bytes :=
  encodeName question.labels ++ (be 2 question.qtype ++ be 2 question.qclass)

def Label.lower (label : Label) : Label where
  bytes := label.bytes.map lowerByte
  length_pos := by simpa using label.length_pos
  length_le := by simpa using label.length_le

/-- The question with its name in lower case. -/
def Question.lower (question : Question) : Question :=
  { question with labels := question.labels.map Label.lower }

@[simp] lemma encodeName_nil : encodeName [] = [0] := rfl

@[simp] lemma encodeName_cons (label : Label) (labels : List Label) :
    encodeName (label :: labels) =
      UInt8.ofNat label.bytes.length :: (label.bytes ++ encodeName labels) := by
  simp [encodeName, Label.encode]

/-- A length byte has neither of its upper bits. -/
lemma length_bits (n : UInt8) : n &&& 0xc0 = 0 ↔ n.toNat ≤ 63 := by
  have hbits : ∀ k < 256, k &&& 192 = 0 ↔ k ≤ 63 := by decide +kernel
  rw [← UInt8.toNat_inj, UInt8.toNat_and]
  exact hbits n.toNat n.toNat_lt

lemma Label.toNat_length (label : Label) :
    (UInt8.ofNat label.bytes.length).toNat = label.bytes.length := by
  have hle := label.length_le
  rw [UInt8.toNat_ofNat', Nat.mod_eq_of_lt (by omega)]

/-- Lower case leaves the length bytes as they are. -/
lemma map_lowerByte_encodeName (labels : List Label) :
    (encodeName labels).map lowerByte = encodeName (labels.map Label.lower) := by
  induction labels with
  | nil => rfl
  | cons label labels ih =>
    have hlength : lowerByte (UInt8.ofNat label.bytes.length) =
        UInt8.ofNat label.bytes.length := by
      have hle := label.length_le
      have hsmall : ¬ 0x41 ≤ UInt8.ofNat label.bytes.length := by
        rw [UInt8.le_iff_toNat_le, label.toNat_length]
        exact not_le.mpr (lt_of_le_of_lt hle (by decide))
      exact if_neg fun h => hsmall h.1
    rw [encodeName_cons, List.map_cons, List.map_cons, encodeName_cons, List.map_append, ih,
      hlength]
    simp [Label.lower]

lemma Label.encode_ne_zero (label : Label) : UInt8.ofNat label.bytes.length ≠ 0 := by
  intro h
  have hzero := congrArg UInt8.toNat h
  rw [label.toNat_length] at hzero
  exact label.length_pos.ne' hzero

/-- A name is told from what follows it. -/
lemma encodeName_append_inj {labels labels' : List Label} {rest rest' : Bytes}
    (h : encodeName labels ++ rest = encodeName labels' ++ rest') :
    labels = labels' ∧ rest = rest' := by
  induction labels generalizing labels' with
  | nil =>
    cases labels' with
    | nil => exact ⟨rfl, by simpa using h⟩
    | cons label labels' =>
      rw [encodeName_nil, encodeName_cons] at h
      exact absurd (List.cons.inj h).1.symm label.encode_ne_zero
  | cons label labels ih =>
    cases labels' with
    | nil =>
      rw [encodeName_nil, encodeName_cons] at h
      exact absurd (List.cons.inj h).1 label.encode_ne_zero
    | cons label' labels' =>
      simp only [encodeName_cons, List.cons_append, List.append_assoc, List.cons.injEq] at h
      have hlength := congrArg UInt8.toNat h.1
      rw [label.toNat_length, label'.toNat_length] at hlength
      obtain ⟨hbytes, hnext⟩ := List.append_inj h.2 hlength
      obtain ⟨rfl, rfl⟩ := ih hnext
      obtain ⟨bytes, _, _⟩ := label
      obtain ⟨bytes', _, _⟩ := label'
      exact ⟨by simpa using hbytes, rfl⟩

/-- The bytes of a question are those of no other. -/
theorem Question.encode_injective : Function.Injective Question.encode := by
  rintro ⟨labels, qtype, qclass, htype, hclass⟩ ⟨labels', qtype', qclass', htype', hclass'⟩ h
  obtain ⟨rfl, hrest⟩ := encodeName_append_inj h
  obtain ⟨hqtype, hqclass⟩ := List.append_inj hrest (by simp)
  obtain rfl := be_injective htype htype' hqtype
  obtain rfl := be_injective hclass hclass' hqclass
  rfl

/-! ### The walks -/

section Walks

variable {buf : Bytes} {offset stop : ℕ} {labels : List Label}

/-- The packet has the name of these labels at the offset, up to where it stops. -/
structure EndsAt (buf : Bytes) (offset stop : ℕ) (labels : List Label) : Prop where
  le : stop ≤ buf.length
  name : buf.drop offset = encodeName labels ++ buf.drop stop
  stop_eq : stop = offset + (encodeName labels).length

lemma EndsAt.root (hlt : offset < buf.length) (hzero : buf[offset] = 0) :
    EndsAt buf offset (offset + 1) [] :=
  ⟨hlt, by rw [List.drop_eq_getElem_cons hlt, hzero]; rfl, rfl⟩

lemma EndsAt.cons (hlt : offset < buf.length) (hne : buf[offset] ≠ 0) (hle : buf[offset].toNat ≤ 63)
    (h : EndsAt buf (offset + (1 + buf[offset].toNat)) stop labels) :
    ∃ label, EndsAt buf offset stop (label :: labels) := by
  have hstop := h.stop_eq
  have hbound := h.le
  have hpos : 0 < (buf[offset]).toNat := by
    refine Nat.pos_of_ne_zero fun hzero => hne ?_
    exact UInt8.toNat_inj.mp (by simpa using hzero)
  have hlength : ((buf.drop (offset + 1)).take buf[offset].toNat).length = buf[offset].toNat := by
    rw [List.length_take, List.length_drop]
    omega
  have hsplit := List.take_append_drop buf[offset].toNat (buf.drop (offset + 1))
  rw [List.drop_drop, Nat.add_assoc] at hsplit
  refine ⟨⟨(buf.drop (offset + 1)).take buf[offset].toNat, by omega, by omega⟩, h.le, ?_, ?_⟩
  · rw [encodeName_cons]
    dsimp only
    rw [hlength, UInt8.ofNat_toNat, List.cons_append, List.append_assoc, ← h.name, hsplit,
      List.drop_eq_getElem_cons hlt]
  · rw [encodeName_cons, List.length_cons, List.length_append]
    dsimp only
    rw [hlength]
    omega

/-- The first walk never reads past the packet, and where it ends it has read a name. -/
lemma walkName_spec (buf : Bytes) (offset nameLength : ℕ) :
    ∃ found, walkName buf offset nameLength = some found ∧
      ∀ stop, found = .ok stop → ∃ labels, EndsAt buf offset stop labels := by
  induction offset, nameLength using walkName.induct buf with
  | case1 offset nameLength hend =>
    rw [walkName, if_pos hend]
    exact ⟨_, rfl, by simp⟩
  | case2 offset nameLength hmore ih =>
    have hlt : offset < buf.length := not_le.mp hmore
    rw [walkName, if_neg hmore, List.getElem?_eq_getElem hlt, Option.bind_eq_bind,
      Option.bind_some]
    split
    · exact ⟨_, rfl, by simp⟩
    next hbits =>
    split
    · exact ⟨_, rfl, by simp⟩
    split
    next hzero =>
      refine ⟨_, rfl, fun stop hstop => ⟨[], ?_⟩⟩
      obtain rfl := Except.ok.inj hstop
      rw [hzero]
      exact EndsAt.root hlt hzero
    next hne =>
      obtain ⟨found, hfound, hname⟩ := ih buf[offset]
      refine ⟨found, hfound, fun stop hstop => ?_⟩
      obtain ⟨labels, hends⟩ := hname stop hstop
      obtain ⟨label, hlabel⟩ := hends.cons hlt hne ((length_bits _).mp (not_not.mp hbits))
      exact ⟨label :: labels, hlabel⟩

/-- The second walk never reads past the packet either. -/
lemma plainNameEnd_isSome (buf : Bytes) (offset : ℕ) :
    ∃ found, plainNameEnd buf offset = some found := by
  induction offset using plainNameEnd.induct buf with
  | case1 offset hend =>
    rw [plainNameEnd, if_pos hend]
    exact ⟨_, rfl⟩
  | case2 offset hmore ih =>
    have hlt : offset < buf.length := not_le.mp hmore
    rw [plainNameEnd, if_neg hmore, List.getElem?_eq_getElem hlt, Option.bind_eq_bind,
      Option.bind_some]
    split
    · exact ⟨_, rfl⟩
    split
    · exact ⟨_, rfl⟩
    · exact ih _

/-- The second walk ends where a name does. -/
lemma EndsAt.plainNameEnd (h : EndsAt buf offset stop labels) :
    plainNameEnd buf offset = some (some stop) := by
  have hstop := h.stop_eq
  have hbound := h.le
  induction labels generalizing offset with
  | nil =>
    have hlt : offset < buf.length := by
      rw [encodeName_nil, List.length_singleton] at hstop
      omega
    have hzero : buf[offset] = 0 := by
      have hname := h.name
      rw [List.drop_eq_getElem_cons hlt] at hname
      exact (List.cons.inj hname).1
    rw [DnsGuard.plainNameEnd, if_neg (not_le.mpr hlt), List.getElem?_eq_getElem hlt, hzero, hstop]
    rfl
  | cons label labels ih =>
    rw [encodeName_cons, List.length_cons, List.length_append] at hstop
    have hlt : offset < buf.length := by omega
    have hname := h.name
    rw [List.drop_eq_getElem_cons hlt, encodeName_cons, List.cons_append] at hname
    obtain ⟨hlength, hnext⟩ := List.cons.inj hname
    have htoNat : buf[offset].toNat = label.bytes.length := by rw [hlength, label.toNat_length]
    have hle := label.length_le
    have hplain : ¬ (buf[offset] &&& 0xc0 ≠ 0 ∨ 63 < buf[offset]) := by
      rw [not_or, not_not, length_bits, UInt8.lt_iff_toNat_lt, htoNat]
      exact ⟨hle, not_lt.mpr hle⟩
    have hrest : EndsAt buf (offset + (1 + label.bytes.length)) stop labels := by
      refine ⟨h.le, ?_, by omega⟩
      rw [← Nat.add_assoc, ← List.drop_drop, hnext, List.append_assoc, List.drop_left]
    rw [DnsGuard.plainNameEnd, if_neg (not_le.mpr hlt), List.getElem?_eq_getElem hlt,
      Option.bind_eq_bind, Option.bind_some, if_neg hplain,
      if_neg (hlength ▸ label.encode_ne_zero), htoNat]
    exact ih hrest hrest.stop_eq

end Walks

/-! ### Packets -/

section Packets

variable {buf : Bytes} {offset questionEnd arcount : ℕ} {transport : Transport}

/-- The bytes of the packet after the header, up to here, are the question. -/
structure Asks (buf : Bytes) (questionEnd : ℕ) (question : Question) : Prop where
  le : questionEnd ≤ buf.length
  asked : buf.drop 12 = question.encode ++ buf.drop questionEnd
  end_eq : questionEnd = 12 + question.encode.length

/-- The question may be answered at all. -/
structure Question.Plausible (question : Question) : Prop where
  notOpt : question.qtype ≠ TYPE_OPT
  noTransfer : question.qtype ≠ TYPE_AXFR ∧ question.qtype ≠ TYPE_IXFR
  inClass : question.qclass = CLASS_IN ∨ question.qclass = CLASS_ANY

lemma additionalEnd_isSome (buf : Bytes) (arcount offset : ℕ) :
    ∃ found, additionalEnd buf arcount offset = some found := by
  unfold additionalEnd
  split
  next =>
    split
    · exact ⟨_, rfl⟩
    next hlength =>
    have hlt : offset < buf.length := by omega
    obtain ⟨type, htype⟩ := readUInt16BE_of_le buf (offset + 1) (by omega)
    obtain ⟨ednsSize, hsize⟩ := readUInt16BE_of_le buf (offset + 3) (by omega)
    obtain ⟨rdlength, hrd⟩ := readUInt16BE_of_le buf (offset + 9) (by omega)
    rw [List.getElem?_eq_getElem hlt, htype, hsize, hrd]
    simp only [Option.bind_eq_bind, Option.bind_some]
    split
    · exact ⟨_, rfl⟩
    split
    · exact ⟨_, rfl⟩
    · exact ⟨_, rfl⟩
  next => exact ⟨_, rfl⟩

lemma inspectSize_eq_ok {ednsSize ednsSize' : Option ℕ} {questionEnd' : ℕ}
    (h : inspectSize buf transport questionEnd offset ednsSize = .ok questionEnd' ednsSize') :
    questionEnd' = questionEnd := by
  unfold inspectSize at h
  split at h
  · simp at h
  split at h
  · simp at h
  · exact (QueryVerdict.ok.inj h).1.symm

/-- After the name there is the rest of a question, or the packet is refused. -/
lemma inspectQuestion_spec {labels : List Label} (hname : EndsAt buf 12 offset labels)
    (transport : Transport) (arcount : ℕ) :
    ∃ verdict, inspectQuestion buf transport arcount offset = some verdict ∧
      ∀ questionEnd ednsSize, verdict = .ok questionEnd ednsSize →
        ∃ question : Question, Asks buf questionEnd question ∧ question.Plausible := by
  unfold inspectQuestion
  split
  · exact ⟨_, rfl, by simp⟩
  next hlength =>
  rw [not_lt] at hlength
  obtain ⟨qtype, hqtype⟩ := readUInt16BE_of_le buf offset (by omega)
  obtain ⟨qclass, hqclass⟩ := readUInt16BE_of_le buf (offset + 2) (by omega)
  obtain ⟨found, hfound⟩ := additionalEnd_isSome buf arcount (offset + 4)
  rw [hqtype, hqclass]
  dsimp only [Option.bind_eq_bind, Option.bind_some]
  rw [hfound]
  dsimp only [Option.bind_some]
  split
  · exact ⟨_, rfl, by simp⟩
  next hopt =>
  split
  · exact ⟨_, rfl, by simp⟩
  next htransfer =>
  split
  · exact ⟨_, rfl, by simp⟩
  next hclass =>
  cases found with
  | error reason => exact ⟨_, rfl, by simp⟩
  | ok found =>
    refine ⟨_, rfl, fun questionEnd ednsSize hok => ?_⟩
    obtain rfl := inspectSize_eq_ok hok
    obtain ⟨htypeLt, htypeDrop⟩ := readUInt16BE_eq_some.mp hqtype
    obtain ⟨hclassLt, hclassDrop⟩ := readUInt16BE_eq_some.mp hqclass
    refine ⟨⟨labels, qtype, qclass, htypeLt, hclassLt⟩, ⟨hlength, ?_, ?_⟩,
      ⟨hopt, not_or.mp htransfer, ?_⟩⟩
    · rw [hname.name, htypeDrop, hclassDrop, Question.encode, List.append_assoc, List.append_assoc]
    · rw [Question.encode, List.length_append, List.length_append, length_be, length_be,
        ← Nat.add_assoc, ← hname.stop_eq]
    · tauto

/-- Every packet is decided on without reading past it, and what is accepted asks a question. -/
lemma inspectQuery_spec (buf : Bytes) (transport : Transport) :
    ∃ verdict, inspectQuery buf transport = some verdict ∧
      ∀ questionEnd ednsSize, verdict = .ok questionEnd ednsSize →
        readUInt16BE buf 4 = some 1 ∧
          ∃ question : Question, Asks buf questionEnd question ∧ question.Plausible := by
  unfold inspectQuery
  split
  · exact ⟨_, rfl, by simp⟩
  next hlength =>
  rw [not_lt] at hlength
  split
  · exact ⟨_, rfl, by simp⟩
  obtain ⟨flags, hflags⟩ := readUInt16BE_of_le buf 2 (by omega)
  obtain ⟨qdcount, hqdcount⟩ := readUInt16BE_of_le buf 4 (by omega)
  obtain ⟨ancount, hancount⟩ := readUInt16BE_of_le buf 6 (by omega)
  obtain ⟨nscount, hnscount⟩ := readUInt16BE_of_le buf 8 (by omega)
  obtain ⟨arcount, harcount⟩ := readUInt16BE_of_le buf 10 (by omega)
  obtain ⟨found, hfound, hname⟩ := walkName_spec buf 12 0
  rw [hflags, hqdcount, hancount, hnscount, harcount]
  dsimp only [Option.bind_eq_bind, Option.bind_some]
  rw [hfound]
  dsimp only [Option.bind_some]
  split
  · exact ⟨_, rfl, by simp⟩
  split
  · exact ⟨_, rfl, by simp⟩
  split
  · exact ⟨_, rfl, by simp⟩
  next hcounts =>
  cases found with
  | error reason => exact ⟨_, rfl, by simp⟩
  | ok offset =>
    obtain ⟨labels, hends⟩ := hname offset rfl
    obtain ⟨verdict, hverdict, hok⟩ := inspectQuestion_spec hends transport arcount
    refine ⟨verdict, hverdict, fun questionEnd ednsSize h => ⟨?_, hok _ _ h⟩⟩
    rw [not_or, not_not] at hcounts
    rw [hcounts.1]

lemma Asks.twelve_le {question : Question} (h : Asks buf questionEnd question) :
    12 ≤ buf.length := by
  have hle := h.le
  have heq := h.end_eq
  omega

/-- The question is read in lower case. -/
lemma Asks.questionOf {question : Question} (h : Asks buf questionEnd question)
    (hcount : readUInt16BE buf 4 = some 1) :
    questionOf buf = some (some question.lower.encode) := by
  have htail : (be 2 question.qtype ++ be 2 question.qclass).length = 4 := by simp
  have hlength : question.encode.length = (encodeName question.labels).length + 4 := by
    rw [Question.encode, List.length_append, htail]
  have heq := h.end_eq
  have hle := h.le
  have hends : EndsAt buf 12 (12 + (encodeName question.labels).length) question.labels := by
    refine ⟨by omega, ?_, rfl⟩
    rw [← List.drop_drop, h.asked, Question.encode, List.append_assoc, List.drop_left]
  have hbytes : (buf.take (12 + (encodeName question.labels).length + 4)).drop 12 =
      question.encode := by
    rw [List.drop_take, h.asked, List.take_left' (by omega)]
  unfold DnsGuard.questionOf
  rw [if_neg (not_lt.mpr h.twelve_le), hcount]
  simp only [Option.bind_eq_bind, Option.bind_some, ne_eq, not_true_eq_false, if_false,
    hends.plainNameEnd]
  rw [if_neg (by omega), hbytes, hlength, Nat.add_sub_cancel, Question.encode, List.take_left,
    List.drop_left, map_lowerByte_encodeName]
  rfl

lemma questionOf_isSome (buf : Bytes) : ∃ found, questionOf buf = some found := by
  unfold questionOf
  split
  · exact ⟨_, rfl⟩
  next hlength =>
  obtain ⟨qdcount, hqdcount⟩ := readUInt16BE_of_le buf 4 (by omega)
  obtain ⟨found, hfound⟩ := plainNameEnd_isSome buf 12
  simp only [hqdcount, hfound, Option.bind_eq_bind, Option.bind_some]
  split
  · exact ⟨_, rfl⟩
  cases found with
  | none => exact ⟨_, rfl⟩
  | some offset =>
    dsimp only
    split
    · exact ⟨_, rfl⟩
    · exact ⟨_, rfl⟩

/-- The bytes of a header. -/
def header (id flags qdcount ancount nscount arcount : ℕ) : Bytes :=
  be 2 id ++ (be 2 flags ++ (be 2 qdcount ++ (be 2 ancount ++ (be 2 nscount ++ be 2 arcount))))

lemma length_header {id flags qdcount ancount nscount : ℕ} :
    (header id flags qdcount ancount nscount arcount).length = 12 := by
  simp [header]

/-- A packet that is long enough begins with a header. -/
lemma exists_header (h : 12 ≤ buf.length) : ∃ id flags qdcount ancount nscount arcount rest,
    buf = header id flags qdcount ancount nscount arcount ++ rest ∧
      readUInt16BE buf 0 = some id ∧ readUInt16BE buf 2 = some flags := by
  obtain ⟨id, hid⟩ := readUInt16BE_of_le buf 0 (by omega)
  obtain ⟨flags, hflags⟩ := readUInt16BE_of_le buf 2 (by omega)
  obtain ⟨qdcount, hqdcount⟩ := readUInt16BE_of_le buf 4 (by omega)
  obtain ⟨ancount, hancount⟩ := readUInt16BE_of_le buf 6 (by omega)
  obtain ⟨nscount, hnscount⟩ := readUInt16BE_of_le buf 8 (by omega)
  obtain ⟨arcount, harcount⟩ := readUInt16BE_of_le buf 10 (by omega)
  refine ⟨id, flags, qdcount, ancount, nscount, arcount, buf.drop 12, ?_, hid, hflags⟩
  have h0 := (readUInt16BE_eq_some.mp hid).2
  have h2 := (readUInt16BE_eq_some.mp hflags).2
  have h4 := (readUInt16BE_eq_some.mp hqdcount).2
  have h6 := (readUInt16BE_eq_some.mp hancount).2
  have h8 := (readUInt16BE_eq_some.mp hnscount).2
  have h10 := (readUInt16BE_eq_some.mp harcount).2
  simp only [Nat.reduceAdd, Nat.zero_add, List.drop_zero] at h0 h2 h4 h6 h8 h10
  simp only [header, List.append_assoc]
  rw [← h10, ← h8, ← h6, ← h4, ← h2, ← h0]

/-- The fields of a header written over, from the flags on. -/
lemma write_header {id flags qdcount ancount nscount arcount : ℕ} (rest : Bytes) (value : ℕ) :
    writeUInt16BE (header id flags qdcount ancount nscount arcount ++ rest) value 2 =
        some (header id value qdcount ancount nscount arcount ++ rest) ∧
      writeUInt16BE (header id flags qdcount ancount nscount arcount ++ rest) value 4 =
        some (header id flags value ancount nscount arcount ++ rest) ∧
      writeUInt16BE (header id flags qdcount ancount nscount arcount ++ rest) value 6 =
        some (header id flags qdcount value nscount arcount ++ rest) ∧
      writeUInt16BE (header id flags qdcount ancount nscount arcount ++ rest) value 8 =
        some (header id flags qdcount ancount value arcount ++ rest) ∧
      writeUInt16BE (header id flags qdcount ancount nscount arcount ++ rest) value 10 =
        some (header id flags qdcount ancount nscount value ++ rest) := by
  refine ⟨?_, ?_, ?_, ?_, ?_⟩
  · simpa [header] using writeUInt16BE_append (be 2 id) (be 2 flags)
      (be 2 qdcount ++ (be 2 ancount ++ (be 2 nscount ++ (be 2 arcount ++ rest)))) value (by simp)
  · simpa [header] using writeUInt16BE_append (be 2 id ++ be 2 flags) (be 2 qdcount)
      (be 2 ancount ++ (be 2 nscount ++ (be 2 arcount ++ rest))) value (by simp)
  · simpa [header] using writeUInt16BE_append (be 2 id ++ (be 2 flags ++ be 2 qdcount))
      (be 2 ancount) (be 2 nscount ++ (be 2 arcount ++ rest)) value (by simp)
  · simpa [header] using writeUInt16BE_append
      (be 2 id ++ (be 2 flags ++ (be 2 qdcount ++ be 2 ancount))) (be 2 nscount)
      (be 2 arcount ++ rest) value (by simp)
  · simpa [header] using writeUInt16BE_append
      (be 2 id ++ (be 2 flags ++ (be 2 qdcount ++ (be 2 ancount ++ be 2 nscount))))
      (be 2 arcount) rest value (by simp)

/-- The reply that asks for TCP: the query's own header and question, made an answer. -/
lemma encodeTruncated_eq {question : Question} (h : Asks buf questionEnd question) {flags : ℕ}
    (hflags : readUInt16BE buf 2 = some flags) : ∃ id, readUInt16BE buf 0 = some id ∧
      encodeTruncated buf questionEnd =
        some (header id (FLAG_QR ||| FLAG_TC ||| FLAG_RA ||| (flags &&& FLAG_RD)) 1 0 0 0 ++
          question.encode) := by
  obtain ⟨id, flags', qdcount, ancount, nscount, arcount, rest, hbuf, hid, hflags'⟩ :=
    exists_header h.twelve_le
  refine ⟨id, hid, ?_⟩
  have htake : buf.take questionEnd =
      header id flags' qdcount ancount nscount arcount ++ question.encode := by
    have hrest : rest = question.encode ++ buf.drop questionEnd := by
      rw [← h.asked]
      conv_rhs => rw [hbuf]
      exact (List.drop_left' length_header).symm
    rw [h.end_eq]
    conv_lhs => rw [hbuf, hrest]
    rw [← length_header, ← List.length_append, ← List.append_assoc, List.take_left]
  have hnone : questionEnd - buf.length = 0 := Nat.sub_eq_zero_of_le h.le
  unfold encodeTruncated
  simp only [htake, hnone, List.replicate_zero, List.append_nil, hflags, Option.bind_eq_bind,
    Option.bind_some, write_header]

/-- A header's first fields, where they fit. -/
lemma read_header {id flags qdcount : ℕ} (ancount nscount arcount : ℕ) (rest : Bytes)
    (hid : id < 65536) (hflags : flags < 65536) (hqdcount : qdcount < 65536) :
    readUInt16BE (header id flags qdcount ancount nscount arcount ++ rest) 0 = some id ∧
      readUInt16BE (header id flags qdcount ancount nscount arcount ++ rest) 2 = some flags ∧
      readUInt16BE (header id flags qdcount ancount nscount arcount ++ rest) 4 = some qdcount := by
  simp only [readUInt16BE_eq_some, hid, hflags, hqdcount, true_and]
  refine ⟨?_, ?_, ?_⟩
  all_goals simp [header, be]

/-- What is set of the reply's flags. -/
lemma truncated_flags (flags : ℕ) :
    FLAG_QR ||| FLAG_TC ||| FLAG_RA ||| (flags &&& FLAG_RD) < 65536 ∧
      (FLAG_QR ||| FLAG_TC ||| FLAG_RA ||| (flags &&& FLAG_RD)) &&& 0x8000 ≠ 0 := by
  have hrd : flags &&& FLAG_RD = 0 ∨ flags &&& FLAG_RD = FLAG_RD := by
    have hbit : flags &&& FLAG_RD = FLAG_RD * (flags.testBit 8).toNat :=
      (Nat.and_comm _ _).trans (Nat.two_pow_and flags 8)
    rw [hbit]
    cases flags.testBit 8 with
    | false => exact .inl rfl
    | true => exact .inr rfl
  rcases hrd with h | h
  all_goals
    rw [h]
    decide

lemma Question.length_encode_lower (question : Question) :
    question.lower.encode.length = question.encode.length := by
  have hname := congrArg List.length (map_lowerByte_encodeName question.labels)
  rw [List.length_map] at hname
  simp [Question.encode, Question.lower, hname]

/-- A reply with the query's header and question is a response to it. -/
lemma Asks.isResponseTo {question : Question} (h : Asks buf questionEnd question) {id flags : ℕ}
    (hcount : readUInt16BE buf 4 = some 1) (hid : id < 65536) (hflags : flags < 65536)
    (hqr : flags &&& 0x8000 ≠ 0) :
    isResponseTo (header id flags 1 0 0 0 ++ question.encode) id buf = some true := by
  obtain ⟨hid', hflags', hcount'⟩ := read_header 0 0 0
    question.encode hid hflags (by decide : 1 < 65536)
  have hasks : Asks (header id flags 1 0 0 0 ++ question.encode) (12 + question.encode.length)
      question := by
    refine ⟨by rw [List.length_append, length_header], ?_, rfl⟩
    rw [List.drop_left' length_header, ← List.drop_drop, List.drop_left' length_header,
      List.drop_length, List.append_nil]
  unfold DnsGuard.isResponseTo
  rw [if_neg (not_lt.mpr hasks.twelve_le), hid', hflags']
  simp only [Option.bind_eq_bind, Option.bind_some, ne_eq, not_true_eq_false, if_false, hqr,
    h.questionOf hcount, hasks.questionOf hcount', decide_true]

/-- **The two walks see the same question.** No input makes either read past the packet. Where the
first accepts a query, the second reads the same bytes, in lower case; and the reply that asks for
TCP is a response to it, of no more bytes. -/
theorem parsers_agree (buf : Bytes) (transport : Transport) :
    (∃ verdict, inspectQuery buf transport = some verdict) ∧
    (∃ found, questionOf buf = some found) ∧
    ∀ questionEnd ednsSize, inspectQuery buf transport = some (.ok questionEnd ednsSize) →
      ∃ question : Question, Asks buf questionEnd question ∧ question.Plausible ∧
        questionOf buf = some (some question.lower.encode) ∧
        question.lower.encode.length = questionEnd - 12 ∧
        ∃ id flags response, readUInt16BE buf 0 = some id ∧ readUInt16BE buf 2 = some flags ∧
          encodeTruncated buf questionEnd = some response ∧
          response = header id (FLAG_QR ||| FLAG_TC ||| FLAG_RA ||| (flags &&& FLAG_RD)) 1 0 0 0 ++
            question.encode ∧
          isResponseTo response id buf = some true ∧
          response.length ≤ buf.length := by
  obtain ⟨verdict, hverdict, hok⟩ := inspectQuery_spec buf transport
  refine ⟨⟨verdict, hverdict⟩, questionOf_isSome buf, fun questionEnd ednsSize hinspect => ?_⟩
  obtain rfl := Option.some.inj (hverdict.symm.trans hinspect)
  obtain ⟨hcount, question, hasks, hplausible⟩ := hok questionEnd ednsSize rfl
  refine ⟨question, hasks, hplausible, hasks.questionOf hcount, ?_, ?_⟩
  · rw [question.length_encode_lower, hasks.end_eq, Nat.add_sub_cancel_left]
  · obtain ⟨flags, hflags⟩ := readUInt16BE_of_le buf 2 (by have := hasks.twelve_le; omega)
    obtain ⟨id, hid, hencode⟩ := encodeTruncated_eq hasks hflags
    obtain ⟨hsmall, hqr⟩ := truncated_flags flags
    refine ⟨id, flags, _, hid, hflags, hencode, rfl, ?_, ?_⟩
    · exact hasks.isResponseTo hcount (readUInt16BE_eq_some.mp hid).1 hsmall hqr
    · rw [List.length_append, length_header, ← hasks.end_eq]
      exact hasks.le

end Packets

end Tnp.Client.DnsGuard
