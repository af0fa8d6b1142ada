import Tnp.Client.PinContinuity

/-!
Whether an older certificate of a node key is refused once a newer one was accepted.

A mark is kept for a signer and the key it certified. So an older certificate is refused where
one for the same key was accepted under the pin, and its mark is still there. A node certifies a
new key each time, and then nothing is remembered of the certificates before.
-/

namespace Tnp.Client.CertificateRollback

open Tnp.Lib Tnp.Crypto Tnp.Crypto.KeyAgreement
open Tnp.SharedTypes Tnp.Client.Pins Tnp.Client.VerifyOverlay Tnp.Client.PinContinuity

/-- An answer for a name, to be verified. -/
structure Presented where
  name : String
  answer : Value
  nowSeconds : ℚ
  clock : String

variable (nacl : Nacl) (isDate : String → Bool) (pinsPath : String)

namespace Presented

variable (p : Presented)

def call : Call := .verify p.name p.answer p.nowSeconds p.clock

/-- The certificate in the answer, if it is one. -/
def certificate : Option ParsedCertificate :=
  (parseDnsResolveOverlay isDate p.answer).toOption.bind fun overlay =>
    (parseUnsigned nacl overlay.kaCert true).toOption

/-- The certificate, if the answer is accepted. -/
def accepted (disk : PinDisk) : Option ParsedCertificate :=
  (p.call.accepts nacl isDate pinsPath disk).bind fun _ => p.certificate nacl isDate

end Presented

/-- The certificates accepted for each name, and those accepted since its key was pinned, each
with the keys whose marks were raised after it. -/
structure Sight where
  history : History
  seen : String → List ParsedCertificate
  under : String → List (ParsedCertificate × List String)

namespace Sight

def start (disk : PinDisk) : Sight := ⟨History.start pinsPath disk, fun _ => [], fun _ => []⟩

/-- What was accepted under the pin, if the answer has the pinned key. -/
def kept (s : Sight) (name domainKey : String) : List (ParsedCertificate × List String) :=
  if (get pinsPath s.history.disk name).any fun pin => pin.domainKey = domainKey then s.under name
  else []

def step (s : Sight) (p : Presented) : Sight where
  history := s.history.step nacl isDate pinsPath p.call
  seen := Function.update s.seen p.name
    (s.seen p.name ++ (p.accepted nacl isDate pinsPath s.history.disk).toList)
  under :=
    match p.call.accepts nacl isDate pinsPath s.history.disk, p.certificate nacl isDate with
    | some (overlay, verified), some cert =>
      Function.update s.under p.name
        ((s.kept pinsPath p.name overlay.domainKey).map
          (fun e => (e.1, e.2 ++ (serials verified).map Prod.fst)) ++ [(cert, [])])
    | _, _ => s.under

end Sight

/-- The certificate is not accepted, or is no older than any accepted from its signer. -/
def NotRolledBack (s : Sight) (p : Presented) : Prop :=
  ∀ cert ∈ p.accepted nacl isDate pinsPath s.history.disk, ∀ earlier ∈ s.seen p.name,
    earlier.signer = cert.signer → earlier.serial.val ≤ cert.serial.val

/-- If the certificate is older than one accepted from its signer, then a newer one for the same
key was accepted since the name's key was pinned, and too few marks were raised after it for its
own to be dropped. -/
def Remembered (s : Sight) (p : Presented) : Prop :=
  ∀ cert ∈ p.certificate nacl isDate,
    (∃ earlier ∈ s.seen p.name, earlier.signer = cert.signer ∧
      cert.serial.val < earlier.serial.val) →
    ∃ e ∈ s.under p.name, e.1.signer = cert.signer ∧ e.1.key = cert.key ∧
      cert.serial.val < e.1.serial.val ∧
      (e.2.toFinset.erase cert.serialKey).card < MAX_SERIALS_PER_PIN

/-- The marks of the certificates accepted under the pin, or what has been raised since. -/
def Recorded (s : Sight) : Prop :=
  ∀ name, ∀ e ∈ s.under name, ∃ pin, get pinsPath s.history.disk name = some pin ∧
    (∃ older, s.history.raised name = older ++ e.1.serialKey :: e.2) ∧
    ((∃ n, pin.serials.get e.1.serialKey = some n ∧ e.1.serial.val ≤ n) ∨
      MAX_SERIALS_PER_PIN ≤ (e.2.toFinset.erase e.1.serialKey).card)

variable {nacl isDate pinsPath}

/-- An answer that is accepted has a certificate, which was checked against its mark. -/
lemma certificate_of_accepts {p : Presented} {disk : PinDisk} {overlay : DnsResolveOverlay}
    {verified : VerifiedCertificate}
    (h : p.call.accepts nacl isDate pinsPath disk = some (overlay, verified)) :
    ∃ cert, p.certificate nacl isDate = some cert ∧ verified.serialKey = cert.serialKey ∧
      verified.serial = cert.serial ∧
      ∀ pin, get pinsPath disk p.name = some pin → ∀ n, pin.serials.get cert.serialKey = some n →
        n ≤ cert.serial.val := by
  obtain ⟨hparse, -, hverified, -, -⟩ := verifyOverlay_of_accepts h
  unfold verifyCertificate at hverified
  split at hverified
  · contradiction
  · contradiction
  next hchecked =>
  obtain rfl := Except.ok.inj hverified
  obtain ⟨-, -, cert, signature, result, hparsed, hcheck⟩ :=
    verifyKeyAgreementCertificate_eq_ok hchecked
  obtain ⟨-, -, hserial, rfl⟩ := checkCertificate_eq_ok hcheck
  refine ⟨cert, ?_, rfl, rfl, fun pin hpin n hn => ?_⟩
  · exact Option.bind_eq_some_iff.mpr
      ⟨overlay, toOption_eq_some.mpr hparse, toOption_eq_some.mpr hparsed⟩
  · have hseen := hserial n (by simp [knownSerials, hpin, hn])
    exact_mod_cast hseen

lemma serials_eq (verified : VerifiedCertificate) :
    serials verified = (verified.chain.serials.map fun e => (e.1, e.2.val)) ++
      [(verified.serialKey, verified.serial.val)] := by
  rw [serials, List.map_append, List.map_cons, List.map_nil]

/-- What was raised after it makes up for a mark that is gone. -/
lemma Recorded.pinned {s : Sight} (h : Recorded pinsPath s) {name domainKey : String}
    {e : ParsedCertificate × List String} (he : e ∈ s.kept pinsPath name domainKey) :
    e ∈ s.under name ∧ ∃ pin, get pinsPath s.history.disk name = some pin ∧
      pin.domainKey = domainKey := by
  unfold Sight.kept at he
  split at he
  · next hsame =>
    obtain ⟨pin, hpin, -⟩ := h name e he
    rw [hpin, Option.any_some, decide_eq_true_eq] at hsame
    exact ⟨he, pin, hpin, hsame⟩
  · contradiction

/-- After an accepted answer: its own mark is there, and of those before, the marks that are gone
are made up for. -/
lemma recorded_step {s : Sight} (htracked : Tracked pinsPath s.history)
    (hrecorded : Recorded pinsPath s) (p : Presented) :
    Recorded pinsPath (s.step nacl isDate pinsPath p) := by
  intro name e he
  cases haccepts : p.call.accepts nacl isDate pinsPath s.history.disk with
  | none =>
    simp only [Sight.step, haccepts] at he ⊢
    rw [show s.history.step nacl isDate pinsPath p.call = s.history from
      History.step_of_accepts_none haccepts]
    exact hrecorded name e he
  | some accepted =>
    obtain ⟨overlay, verified⟩ := accepted
    obtain ⟨cert, hcert, hkey, hserial, -⟩ := certificate_of_accepts haccepts
    obtain ⟨hget, hraised⟩ := History.step_of_accepts haccepts
    change e ∈ (s.step nacl isDate pinsPath p).under name at he
    change ∃ pin, get pinsPath (s.history.step nacl isDate pinsPath p.call).disk name = some pin ∧
      (∃ older, (s.history.step nacl isDate pinsPath p.call).raised name = _) ∧ _
    simp only [Sight.step, haccepts, hcert] at he
    rw [show get pinsPath (s.history.step nacl isDate pinsPath p.call).disk = _ from hget,
      show (s.history.step nacl isDate pinsPath p.call).raised = _ from hraised]
    by_cases hname : name = p.name
    · subst hname
      rw [Function.update_self] at he
      rw [Function.update_self, Function.update_self]
      refine ⟨_, rfl, ?_⟩
      obtain ⟨base, hlatest, hbase, hsame⟩ := ordered_next htracked p.name overlay.domainKey
        p.clock (serials verified)
      have hordered := hbase.raiseAll (serials verified)
      rw [hlatest]
      rcases List.mem_append.mp he with hold | hnew
      · obtain ⟨⟨old, after⟩, hkept, rfl⟩ := List.mem_map.mp hold
        obtain ⟨hunder, pin, hpin, hpinned⟩ := hrecorded.pinned hkept
        obtain ⟨_, hpin', ⟨older, holder⟩, hmark⟩ := hrecorded p.name _ hunder
        obtain rfl := Option.some.inj (hpin.symm.trans hpin')
        have hlog : s.history.under pinsPath p.name overlay.domainKey ++
            (serials verified).map Prod.fst =
              older ++ old.serialKey :: (after ++ (serials verified).map Prod.fst) := by
          rw [History.under_of_pinned hpin hpinned, holder]
          simp
        refine ⟨⟨older, hlog⟩, ?_⟩
        rcases hmark with ⟨n, hn, hle⟩ | hcard
        · obtain ⟨m, hm, hnm⟩ := le_get_raiseAll (serials verified) (hsame pin hpin hpinned ▸ hn)
          rcases hordered.get_latest MAX_SERIALS_PER_PIN hm with hthere | ⟨-, hcard⟩
          · exact .inl ⟨m, hthere, hle.trans hnm⟩
          · rw [hlog] at hcard
            exact .inr (hcard.trans (Finset.card_le_card (later_subset _ _ _)))
        · refine .inr (hcard.trans (Finset.card_le_card (Finset.erase_subset_erase _ ?_)))
          exact fun k hk => by simp [List.mem_toFinset.mp hk]
      · obtain rfl := List.mem_singleton.mp hnew
        obtain ⟨m, hm, hle⟩ := le_get_raiseAll_concat base
          (verified.chain.serials.map fun e => (e.1, e.2.val))
          (verified.serialKey, verified.serial.val)
        rw [← serials_eq] at hm
        have hlog : s.history.under pinsPath p.name overlay.domainKey ++
            (serials verified).map Prod.fst =
              (s.history.under pinsPath p.name overlay.domainKey ++
                verified.chain.serials.map Prod.fst) ++ [cert.serialKey] := by
          rw [serials_eq, ← hkey]
          simp [Function.comp_def]
        refine ⟨⟨_, hlog⟩, ?_⟩
        rcases hordered.get_latest MAX_SERIALS_PER_PIN hm with hthere | ⟨-, hcard⟩
        · exact .inl ⟨m, hkey ▸ hthere, hserial ▸ hle⟩
        · -- nothing was raised after it
          rw [hlog, hkey] at hcard
          exact absurd (hcard.trans (Finset.card_le_card (later_subset _ _ [])))
            (by simp [MAX_SERIALS_PER_PIN])
    · rw [Function.update_of_ne hname] at he
      rw [Function.update_of_ne hname, Function.update_of_ne hname]
      exact hrecorded name e he

/-- **An older certificate is refused where a newer one for the same key is remembered**, at
every step of a run. -/
theorem not_rolled_back {disk : PinDisk} {ps : List Presented}
    (h : Run.Allowed (Sight.step nacl isDate pinsPath) (Remembered nacl isDate)
      (Sight.start pinsPath disk) ps) :
    Run.Allowed (Sight.step nacl isDate pinsPath) (NotRolledBack nacl isDate pinsPath)
      (Sight.start pinsPath disk) ps := by
  refine Run.allowed_of_invariant (I := fun s => Tracked pinsPath s.history ∧ Recorded pinsPath s)
    (fun s p _ hI => ⟨tracked_step hI.1 p.call, recorded_step hI.1 hI.2 p⟩) ?_
    ⟨tracked_start disk, fun _ _ he => by contradiction⟩ h
  intro s p hremembered hI cert hcert earlier hearlier hsigner
  obtain ⟨⟨overlay, verified⟩, haccepts, hcertificate⟩ := Option.bind_eq_some_iff.mp hcert
  obtain ⟨_, hcertificate', -, -, hmark⟩ := certificate_of_accepts haccepts
  obtain rfl := Option.some.inj (hcertificate.symm.trans hcertificate')
  by_contra hless
  obtain ⟨e, he, hsigner', hkey, hserial, hcard⟩ :=
    hremembered cert hcertificate ⟨earlier, hearlier, hsigner, not_le.mp hless⟩
  have hserialKey : e.1.serialKey = cert.serialKey := by
    rw [ParsedCertificate.serialKey, ParsedCertificate.serialKey, hsigner', hkey]
  obtain ⟨pin, hpin, -, ⟨n, hn, hle⟩ | hgone⟩ := hI.2 p.name e he
  · have := hmark pin hpin n (hserialKey ▸ hn)
    omega
  · rw [hserialKey] at hgone
    omega

/-! ### A node's certificates -/

instance (s : Sight) (p : Presented) : Decidable (NotRolledBack nacl isDate pinsPath s p) :=
  inferInstanceAs (Decidable (∀ cert ∈ _, ∀ earlier ∈ _, _ → _))

instance (s : Sight) (p : Presented) : Decidable (Remembered nacl isDate s p) :=
  inferInstanceAs (Decidable (∀ cert ∈ _, (∃ earlier ∈ _, _ ∧ _) → ∃ e ∈ _, _ ∧ _ ∧ _ ∧ _))

/-- Signatures that verify, and keys that are not of small order. -/
def genuine : Nacl :=
  ⟨fun _ _ _ => true, fun _ _ => [1], fun _ => ⟨List.replicate 32 0, length_zeros⟩⟩

/-- A key of one byte, as text. -/
def keyText (b : UInt8) : Value := .string (encodeBase64 (List.replicate 32 b))

def signatureText : Value := .string (encodeBase64 (List.replicate 64 0))

/-- The domain key of `shop.ox` lets the node key serve it. -/
def nodeGrant : Value :=
  .object [("issuer", keyText 1), ("subject", keyText 2),
    ("purposes", .array [.string "service-node"]), ("notBefore", .number 0),
    ("notAfter", .number 1000), ("serial", .number 1), ("scope", .string "shop.ox"),
    ("signature", signatureText)]

/-- The node's certificate for a key. -/
def nodeCertificate (key : UInt8) (serial : ℚ) : Value :=
  .object [("signer", keyText 2), ("key", keyText key), ("role", .string "service-node"),
    ("scope", .string "shop.ox"), ("notBefore", .number 10), ("notAfter", .number 100),
    ("serial", .number serial), ("signature", signatureText)]

/-- The registry's answer with that certificate. -/
def nodeAnswer (key : UInt8) (serial : ℚ) : Presented where
  name := "shop.ox"
  answer := .object [("relay", .string "wss://relay.example"), ("available", .bool true),
    ("domainKey", keyText 1), ("rotations", .array []), ("chain", .array [nodeGrant]),
    ("kaCert", nodeCertificate key serial)]
  nowSeconds := 50
  clock := "1970-01-01T00:00:50.000Z"

/-- The node's next certificate for one key is accepted, and then the one before it is not. -/
theorem not_rolled_back_sameKey :
    Run.Allowed (Sight.step genuine (fun _ => true) "pins.json")
      (NotRolledBack genuine (fun _ => true) "pins.json") (Sight.start "pins.json" .absent)
      [nodeAnswer 9 3, nodeAnswer 9 5, nodeAnswer 9 3] :=
  not_rolled_back (by decide +kernel)

/-- **An older certificate is accepted after a newer one**: the node certified another key with the
newer one. -/
theorem freshKey_rolled_back :
    ¬ Run.Allowed (Sight.step genuine (fun _ => true) "pins.json")
      (NotRolledBack genuine (fun _ => true) "pins.json") (Sight.start "pins.json" .absent)
      [nodeAnswer 10 5, nodeAnswer 9 3] := by
  decide +kernel

end Tnp.Client.CertificateRollback
