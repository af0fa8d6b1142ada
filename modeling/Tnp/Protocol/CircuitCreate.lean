import Tnp.Lib.Utf8
import Tnp.Protocol.Overlay

/-!
The routing prefix of a circuit, written and read.

A payload that is read has one spelling but for its name, before which the decoder passes over a
byte order mark. The encoder writes none.
-/

namespace Tnp.Protocol

open Tnp.Lib Tnp.Crypto

/-- `encodeCircuitCreate`: the length of the name, the name and the first message. -/
def encodeCircuitCreate (name : String) (message1 : Bytes) : Except RangeError Bytes :=
  if !isCanonicalName name then .error ⟨"routing name is not a canonical name"⟩
  else if message1.length ≠ HANDSHAKE_MESSAGE_SIZE then
    .error ⟨s!"handshake message must be {HANDSHAKE_MESSAGE_SIZE} bytes"⟩
  else
    let nameBytes := utf8 name
    .ok (be 1 nameBytes.length ++ (nameBytes ++ message1))

/-! ### Texts -/

lemma utf8_eq_encode (s : String) : utf8 s = Utf8.encode s.toList := by
  rw [utf8, String.toUTF8_eq_toByteArray]
  conv_lhs => rw [← String.ofList_toList (s := s), String.toByteArray_ofList]
  simp [List.utf8Encode, Utf8.encode]

/-- The bytes that are a text are its encoding. -/
lemma fromUTF8?_eq_some_iff {bytes : Bytes} {s : String} :
    String.fromUTF8? ⟨bytes.toArray⟩ = some s ↔ utf8 s = bytes := by
  constructor
  · intro h
    unfold String.fromUTF8? at h
    split at h
    next hvalid =>
      obtain rfl := Option.some.inj h
      rfl
    · simp at h
  · rintro rfl
    have hbytes : (⟨(utf8 s).toArray⟩ : ByteArray) = s.toByteArray := by
      apply ByteArray.ext
      simp [utf8, String.toUTF8_eq_toByteArray]
    rw [hbytes, String.fromUTF8?, dif_pos s.isValidUTF8]
    rfl

lemma decodeText_eq (bytes : Bytes) : decodeText bytes =
    (String.fromUTF8? ⟨bytes.toArray⟩).map fun s => String.ofList (Utf8.withoutMark s.toList) := by
  unfold decodeText
  congr 1
  funext s
  split
  next c cs hcs =>
    have hc : c.toNat = 0xfeff ↔ c = Utf8.byteOrderMark := by
      refine ⟨fun h => Char.toNat_inj.mp h, ?_⟩
      rintro rfl
      rfl
    split
    next h => rw [hcs, hc.mp h, Utf8.withoutMark, if_pos (by simp), List.tail_cons]
    next h =>
      rw [Utf8.withoutMark_eq_self_iff.mpr (by simpa [hcs] using mt hc.mpr h),
        String.ofList_toList]
  next hcs =>
    rw [Utf8.withoutMark_eq_self_iff.mpr (by simp [hcs]), String.ofList_toList]

/-- A text is read from its bytes alone, without the mark that may be before it. -/
lemma decodeText_eq_some_iff {bytes : Bytes} {s : String} : decodeText bytes = some s ↔
    ∃ cs, bytes = Utf8.encode cs ∧ s = String.ofList (Utf8.withoutMark cs) := by
  rw [decodeText_eq, Option.map_eq_some_iff]
  constructor
  · rintro ⟨t, ht, rfl⟩
    exact ⟨t.toList, by rw [← utf8_eq_encode, fromUTF8?_eq_some_iff.mp ht], rfl⟩
  · rintro ⟨cs, rfl, rfl⟩
    refine ⟨String.ofList cs, fromUTF8?_eq_some_iff.mpr ?_, ?_⟩
    · rw [utf8_eq_encode, String.toList_ofList]
    · rw [String.toList_ofList]

/-! ### Names -/

/-- What a canonical name is written with. -/
lemma ascii_of_mem {name : String} (h : isCanonicalName name = true) {c : Char}
    (hc : c ∈ name.toList) : c.toNat < 128 := by
  simp only [isCanonicalName, Bool.and_eq_true, List.all_eq_true] at h
  have hjoin : ['.'].intercalate (name.toList.splitOn '.') = name.toList :=
    List.intercalate_splitOn '.'
  rw [← hjoin] at hc
  rcases mem_intercalate hc with rfl | ⟨part, hpart, hc⟩
  · decide
  · have hlabel := h.2 part hpart
    simp only [isLabel, Bool.and_eq_true, List.all_eq_true] at hlabel
    have hone := hlabel.2 c hc
    simp only [isAlphanumeric, Bool.or_eq_true, Bool.and_eq_true, decide_eq_true_eq,
      beq_iff_eq] at hone
    rcases hone with (⟨-, hle⟩ | ⟨-, hle⟩) | rfl
    · have hle' : c.toNat ≤ 122 := hle
      omega
    · have hle' : c.toNat ≤ 57 := hle
      omega
    · decide

lemma utf8EncodeChar_of_ascii {c : Char} (h : c.toNat < 128) :
    String.utf8EncodeChar c = [UInt8.ofNat c.toNat] := by
  unfold String.utf8EncodeChar
  simp only [show c.val.toNat = c.toNat from rfl]
  rw [if_pos (by omega)]

/-- A text of one-byte characters is as long as its bytes are. -/
lemma length_encode_of_ascii {cs : List Char} (h : ∀ c ∈ cs, c.toNat < 128) :
    (Utf8.encode cs).length = cs.length := by
  induction cs with
  | nil => rfl
  | cons c cs ih =>
    rw [Utf8.encode_cons, utf8EncodeChar_of_ascii (h c List.mem_cons_self), List.singleton_append,
      List.length_cons, List.length_cons, ih fun d hd => h d (List.mem_cons_of_mem _ hd)]

/-- A canonical name is between one byte and as many as a byte can count. -/
lemma length_utf8_of_canonical {name : String} (h : isCanonicalName name = true) :
    0 < (utf8 name).length ∧ (utf8 name).length < 256 := by
  rw [utf8_eq_encode, length_encode_of_ascii fun c hc => ascii_of_mem h hc]
  simp only [isCanonicalName, Bool.and_eq_true, decide_eq_true_eq] at h
  have hmax : MAX_ROUTING_NAME < 256 := by decide
  omega

lemma not_marked_of_canonical {name : String} (h : isCanonicalName name = true) :
    name.toList.head? ≠ some Utf8.byteOrderMark := by
  intro hmark
  have hascii := ascii_of_mem h (List.mem_of_head? hmark)
  exact absurd hascii (by decide)

/-! ### One encoding -/

/-- A payload whose name is a text, with a mark or without one, is read. -/
lemma decodeCircuitCreate_of_text {cs : List Char} {message1 : Bytes} (hcs : cs ≠ [])
    (hlt : (Utf8.encode cs).length < 256) (hmessage : message1.length = HANDSHAKE_MESSAGE_SIZE)
    (hname : isCanonicalName (String.ofList (Utf8.withoutMark cs)) = true) :
    decodeCircuitCreate (be 1 (Utf8.encode cs).length ++ (Utf8.encode cs ++ message1)) =
      .ok ⟨String.ofList (Utf8.withoutMark cs), message1, hname⟩ := by
  have hpos : 0 < (Utf8.encode cs).length := by
    obtain ⟨c, rest, rfl⟩ := List.exists_cons_of_ne_nil hcs
    rw [Utf8.encode_cons, List.length_append, String.length_utf8EncodeChar]
    have hc := c.utf8Size_pos
    omega
  have hread : readBe (be 1 (Utf8.encode cs).length ++ (Utf8.encode cs ++ message1)) 0 1 =
      (Utf8.encode cs).length := readBe_be [] rfl (by omega)
  have htext : decodeText (((be 1 (Utf8.encode cs).length ++
      (Utf8.encode cs ++ message1)).drop 1).take (Utf8.encode cs).length) =
        some (String.ofList (Utf8.withoutMark cs)) := by
    rw [List.drop_left' (length_be 1 _), List.take_left]
    exact decodeText_eq_some_iff.mpr ⟨cs, rfl, rfl⟩
  have hrest : (be 1 (Utf8.encode cs).length ++ (Utf8.encode cs ++ message1)).drop
      (1 + (Utf8.encode cs).length) = message1 := by
    rw [← List.append_assoc, List.drop_left' (by simp)]
  unfold decodeCircuitCreate
  rw [if_neg (by simp only [List.length_append, length_be]; omega)]
  dsimp only
  rw [hread, if_neg (by simp only [List.length_append, length_be]; omega), htext]
  dsimp only
  rw [dif_pos hname, hrest]

/-- What is encoded decodes to itself. -/
lemma decodeCircuitCreate_encodeCircuitCreate {name : String} {message1 payload : Bytes}
    (h : encodeCircuitCreate name message1 = .ok payload) :
    ∃ create, decodeCircuitCreate payload = .ok create ∧ create.name = name ∧
      create.message1 = message1 := by
  unfold encodeCircuitCreate at h
  split at h
  · simp at h
  next hname =>
  split at h
  · simp at h
  next hmessage =>
  simp only [Bool.not_eq_true', Bool.not_eq_false] at hname
  obtain rfl := Except.ok.inj h
  obtain ⟨hpos, hlt⟩ := length_utf8_of_canonical hname
  have hunmarked := Utf8.withoutMark_eq_self_iff.mpr (not_marked_of_canonical hname)
  have hself : String.ofList (Utf8.withoutMark name.toList) = name := by
    rw [hunmarked, String.ofList_toList]
  rw [utf8_eq_encode] at hpos hlt ⊢
  refine ⟨_, decodeCircuitCreate_of_text ?_ hlt (not_not.mp hmessage) (by rwa [hself]), hself, rfl⟩
  rintro hnil
  simp [hnil] at hpos

/-- What is read of a payload: its length, the text of its name, and the rest. -/
lemma decodeCircuitCreate_eq_ok {payload : Bytes} {create : CircuitCreate}
    (h : decodeCircuitCreate payload = .ok create) : ∃ cs, cs ≠ [] ∧
      payload = be 1 (Utf8.encode cs).length ++ (Utf8.encode cs ++ create.message1) ∧
      create.message1.length = HANDSHAKE_MESSAGE_SIZE ∧
      create.name = String.ofList (Utf8.withoutMark cs) := by
  unfold decodeCircuitCreate at h
  split at h
  · simp at h
  next hlong =>
  dsimp only at h
  split at h
  · simp at h
  next hlength =>
  split at h
  · simp at h
  next name htext =>
  split at h
  swap
  · simp at h
  next hcanonical =>
  obtain rfl := Except.ok.inj h
  obtain ⟨cs, hcs, hname⟩ := decodeText_eq_some_iff.mp htext
  push Not at hlength
  have hsize : (Utf8.encode cs).length = readBe payload 0 1 := by
    rw [← hcs, List.length_take, List.length_drop]
    omega
  refine ⟨cs, ?_, ?_, ?_, hname⟩
  · rintro rfl
    exact hlength.1 hsize.symm
  · have hfirst : be 1 (readBe payload 0 1) = (payload.drop 0).take 1 := be_readBe (by omega)
    rw [hsize, ← hcs, hfirst, List.drop_zero]
    have hsplit := take_append_drop_drop payload 1 (readBe payload 0 1)
    rw [hsplit, List.take_append_drop]
  · rw [List.length_drop]
    omega

/-- **CIRCUIT_CREATE payloads have one encoding, but for a mark before the name**: what is read is
encoded as the payload exactly where its name does not begin with one, and what is encoded is read
back. -/
theorem circuit_create_exact (payload : Bytes) (name : String) (message1 : Bytes) :
    (∀ create, decodeCircuitCreate payload = .ok create →
      (encodeCircuitCreate create.name create.message1 = .ok payload ↔
        ¬ String.utf8EncodeChar Utf8.byteOrderMark <+: payload.drop 1)) ∧
    ∀ encoded, encodeCircuitCreate name message1 = .ok encoded →
      ∃ create, decodeCircuitCreate encoded = .ok create ∧ create.name = name ∧
        create.message1 = message1 := by
  refine ⟨fun create h => ?_, fun _ => decodeCircuitCreate_encodeCircuitCreate⟩
  obtain ⟨cs, hcs, rfl, hmessage, hname⟩ := decodeCircuitCreate_eq_ok h
  have hcanonical := create.name_canonical
  have hencoded : encodeCircuitCreate create.name create.message1 =
      .ok (be 1 (utf8 create.name).length ++ (utf8 create.name ++ create.message1)) := by
    unfold encodeCircuitCreate
    rw [if_neg (by simp [hcanonical]), if_neg (by simp [hmessage])]
  have hbytes : utf8 create.name = Utf8.encode (Utf8.withoutMark cs) := by
    rw [utf8_eq_encode, hname, String.toList_ofList]
  have hmark : String.utf8EncodeChar Utf8.byteOrderMark <+:
      (be 1 (Utf8.encode cs).length ++ (Utf8.encode cs ++ create.message1)).drop 1 ↔
        cs.head? = some Utf8.byteOrderMark := by
    rw [List.drop_left' (length_be 1 _)]
    exact Utf8.utf8EncodeChar_prefix_iff hcs _
  rw [hencoded, hmark, ← Ne, ← Utf8.withoutMark_eq_self_iff, hbytes]
  constructor
  · intro heq
    have htail := congrArg (List.drop 1) (Except.ok.inj heq)
    rw [List.drop_left' (length_be 1 _), List.drop_left' (length_be 1 _)] at htail
    exact Utf8.encode_injective (List.append_cancel_right htail)
  · intro heq
    rw [heq]

def plainName : List Char := ['a', '.', 'o', 'x']

/-- The payload of a name and a message of zeros. -/
def zeroPayload (name : List Char) : Bytes :=
  be 1 (Utf8.encode name).length ++
    (Utf8.encode name ++ List.replicate HANDSHAKE_MESSAGE_SIZE 0)

theorem circuit_create_exact_plain :
    encodeCircuitCreate "a.ox" (List.replicate HANDSHAKE_MESSAGE_SIZE 0) =
      .ok (zeroPayload plainName) :=
  ((circuit_create_exact (zeroPayload plainName) "" []).1
    ⟨"a.ox", List.replicate HANDSHAKE_MESSAGE_SIZE 0, by decide⟩
    (decodeCircuitCreate_of_text (by decide) (by decide) (by decide) (by decide))).mpr (by decide)

/-- **A payload with a mark before its name is read, and encoded as another.** -/
theorem marked_name_read : ∃ create,
    decodeCircuitCreate (zeroPayload (Utf8.byteOrderMark :: plainName)) = .ok create ∧
      encodeCircuitCreate create.name create.message1 ≠
        .ok (zeroPayload (Utf8.byteOrderMark :: plainName)) := by
  refine ⟨⟨"a.ox", List.replicate HANDSHAKE_MESSAGE_SIZE 0, by decide⟩,
    decodeCircuitCreate_of_text (by decide) (by decide) (by decide) (by decide), ?_⟩
  intro h
  have hlengths : (encodeCircuitCreate "a.ox" (List.replicate HANDSHAKE_MESSAGE_SIZE 0)).map
      List.length = .ok 53 := by decide
  rw [h] at hlengths
  exact absurd hlengths (by decide)

end Tnp.Protocol
