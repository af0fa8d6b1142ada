import Tnp.Client.VerifyOverlay
import Tnp.Lib.Run

/-!
What becomes of a pin, whatever the registry answers.

A call that throws leaves the file. A pinned key changes along signed statements of the answer or
after it was forgotten, and its marks only rise while they are kept.
-/

namespace Tnp.Client.PinContinuity

open Tnp.Lib Tnp.Crypto Tnp.Crypto.DomainKey Tnp.Crypto.KeyAgreement
open Tnp.SharedTypes Tnp.Client.Pins Tnp.Client.VerifyOverlay

variable {nacl : Nacl} {isDate : String → Bool} {pinsPath : String}

/-! ### One call -/

lemma parse_of_verifyCertificate {name : String} {overlay : DnsResolveOverlay} {nowSeconds : ℚ}
    {pin : Option Pin} {verified : VerifiedCertificate}
    (h : verifyCertificate nacl name overlay nowSeconds pin = .ok verified) :
    isValidScope name = true ∧ ∃ key, parsePublicKey (.text overlay.domainKey) = .ok key := by
  unfold verifyCertificate at h
  split at h
  · contradiction
  · contradiction
  next hverified =>
  obtain ⟨hname, ⟨roots, hroots⟩, -⟩ := verifyKeyAgreementCertificate_eq_ok hverified
  refine ⟨hname, ?_⟩
  rw [List.mapM_cons] at hroots
  obtain ⟨key, hkey, -⟩ := bind_eq_ok.mp hroots
  exact ⟨key, hkey⟩

lemma next_domainKey (pin : Option Pin) (domainKey clock : String) (marks : List (String × ℕ)) :
    (next pin domainKey clock marks).domainKey = domainKey := by
  unfold next
  split <;> rfl

/-- A call that accepts nothing throws, and leaves the file. -/
lemma verifyOverlay_of_accepts_none {disk : PinDisk} {name : String} {answer : Value}
    {nowSeconds : ℚ} {clock : String}
    (h : (Call.verify name answer nowSeconds clock).accepts nacl isDate pinsPath disk = none) :
    ∃ e, verifyOverlay nacl isDate pinsPath disk name answer nowSeconds clock =
      (disk, .error e) := by
  unfold verifyOverlay
  split
  · exact ⟨_, rfl⟩
  next overlay hparse =>
  split
  · exact ⟨_, rfl⟩
  next havailable =>
  rcases update_cases pinsPath disk name
    (decideOverlay nacl name overlay nowSeconds clock) with herror |
    ⟨file, pin, result, hfile, hdecide, -⟩
  · exact herror
  · obtain ⟨accepted, haccept, -⟩ := bind_eq_ok.mp hdecide
    have hoff : overlay.available = false := by
      simpa [Call.accepts, hparse, hfile, haccept, Except.toOption] using h
    exact absurd (by simp [hoff]) havailable

/-- **What a call accepts passed every check against the pin**, and is what the pin then says. -/
lemma verifyOverlay_of_accepts {disk : PinDisk} {name : String} {answer : Value} {nowSeconds : ℚ}
    {clock : String} {overlay : DnsResolveOverlay} {verified : VerifiedCertificate}
    (h : (Call.verify name answer nowSeconds clock).accepts nacl isDate pinsPath disk =
      some (overlay, verified)) :
    parseDnsResolveOverlay isDate answer = .ok overlay ∧
      followPin nacl name overlay (get pinsPath disk name) = .ok () ∧
      verifyCertificate nacl name overlay nowSeconds (get pinsPath disk name) = .ok verified ∧
      (verifyOverlay nacl isDate pinsPath disk name answer nowSeconds clock).2.toOption.isSome ∧
      ∀ other, get pinsPath
        (verifyOverlay nacl isDate pinsPath disk name answer nowSeconds clock).1 other =
          if other = name then
            some (next (get pinsPath disk name) overlay.domainKey clock (serials verified))
          else get pinsPath disk other := by
  obtain ⟨_, hparse, h⟩ := Option.bind_eq_some_iff.mp h
  obtain ⟨file, hfile, h⟩ := Option.bind_eq_some_iff.mp h
  rw [toOption_eq_some] at hparse hfile
  obtain ⟨havailable, h⟩ : _ ∧ _ := by simpa only [Option.ite_none_left_eq_some] using h
  obtain ⟨⟨_, relayBinding⟩, haccept, heq⟩ := Option.map_eq_some_iff.mp h
  obtain ⟨rfl, rfl⟩ := Prod.mk.inj heq
  rw [toOption_eq_some] at haccept
  obtain ⟨_, hfollow, hrest⟩ := bind_eq_ok.mp haccept
  obtain ⟨_, hverified, hrest⟩ := bind_eq_ok.mp hrest
  obtain ⟨_, -, hrest⟩ := bind_eq_ok.mp hrest
  obtain ⟨rfl, rfl⟩ := Prod.mk.inj (Except.ok.inj hrest)
  rw [get_of_read hfile]
  rw [verifyOverlay, hparse]
  simp only [havailable, Bool.false_eq_true, if_false, update, hfile, decideOverlay, haccept, bind,
    Except.bind]
  refine ⟨trivial, hfollow, hverified, rfl, fun other => ?_⟩
  rw [get_stored hfile, Option.some_or, get_of_read hfile]
  rintro p ⟨⟩
  rw [next_domainKey]
  exact parse_of_verifyCertificate hverified

/-! ### Histories -/

variable (nacl isDate pinsPath)

/-- The file, and for each name the keys whose marks were raised under its pin, latest last. -/
structure History where
  disk : PinDisk
  raised : String → List String

namespace History

/-- A file found at the start has the order in which it keeps the marks. -/
def start (disk : PinDisk) : History :=
  ⟨disk, fun name => (get pinsPath disk name).elim [] fun pin => pin.serials.keys⟩

/-- What was raised under the pin, if the answer has the pinned key. -/
def under (h : History) (name domainKey : String) : List String :=
  if (get pinsPath h.disk name).any fun pin => pin.domainKey = domainKey then h.raised name else []

def step (h : History) (call : Call) : History where
  disk := call.disk nacl isDate pinsPath h.disk
  raised :=
    match call with
    | .forget name => Function.update h.raised name []
    | .verify name _ _ _ =>
      match call.accepts nacl isDate pinsPath h.disk with
      | none => h.raised
      | some (overlay, verified) => Function.update h.raised name
          (h.under pinsPath name overlay.domainKey ++ (serials verified).map Prod.fst)

end History

/-- The answer has statements for the name that verify and lead from one key to the other. -/
def FollowedIn (name : String) (answer : Value) (domainKey domainKey' : String) : Prop :=
  ∃ rotations taken rs key key', answer.get "rotations" = .array rotations ∧
    taken.Sublist rotations ∧ Verified nacl.verify name taken rs ∧
    parsePublicKey (.text domainKey) = .ok key ∧ parsePublicKey (.text domainKey') = .ok key' ∧
    Leads key rs key' ∧ Increasing rs

/-- What a call may do to the pin of a name, after which `raised` says whose marks were raised. -/
structure PinContinued (name : String) (before after : Option Pin) (raised : List String)
    (call : Call) : Prop where
  lost : before.isSome → after = none → call = .forget name
  rotated : ∀ pin pin', before = some pin → after = some pin' → pin.domainKey ≠ pin'.domainKey →
    ∃ answer nowSeconds clock, call = .verify name answer nowSeconds clock ∧
      FollowedIn nacl name answer pin.domainKey pin'.domainKey
  marks : ∀ pin pin', before = some pin → after = some pin' → pin.domainKey = pin'.domainKey →
    ∀ k n, pin.serials.get k = some n →
      (∃ n', pin'.serials.get k = some n' ∧ n ≤ n') ∨
      (pin'.serials.get k = none ∧ MAX_SERIALS_PER_PIN ≤ (later k raised).card)
  bounded : ∀ pin', after = some pin' → before ≠ after → pin'.serials.size ≤ MAX_SERIALS_PER_PIN

/-- The marks of every pin stand in the order in which they were raised last. -/
def Tracked (h : History) : Prop :=
  ∀ name pin, get pinsPath h.disk name = some pin → Ordered (h.raised name) pin.serials

variable {nacl isDate pinsPath}

lemma tracked_start (disk : PinDisk) : Tracked pinsPath (History.start pinsPath disk) := by
  intro name pin hpin
  have hraised : (History.start pinsPath disk).raised name = pin.serials.keys := by
    change (get pinsPath disk name).elim [] _ = _
    rw [show get pinsPath disk name = some pin from hpin]
    rfl
  exact hraised ▸ ordered_keys pin.serials

lemma History.under_of_pinned {h : History} {name domainKey : String} {pin : Pin}
    (hpin : get pinsPath h.disk name = some pin) (hsame : pin.domainKey = domainKey) :
    h.under pinsPath name domainKey = h.raised name := by
  rw [History.under, hpin, Option.any_some, decide_eq_true hsame, if_pos rfl]

/-- The marks of the pin after an answer are raised from those kept under its key. -/
lemma ordered_next {h : History} (htracked : Tracked pinsPath h) (name domainKey clock : String)
    (marks : List (String × ℕ)) :
    ∃ base, (next (get pinsPath h.disk name) domainKey clock marks).serials =
        (raiseAll base marks).latest MAX_SERIALS_PER_PIN ∧
      Ordered (h.under pinsPath name domainKey) base ∧
      ∀ pin, get pinsPath h.disk name = some pin → pin.domainKey = domainKey →
        base = pin.serials := by
  cases hpin : get pinsPath h.disk name with
  | none =>
    refine ⟨⟨[], by simp⟩, rfl, ?_, by simp⟩
    rw [History.under, hpin]
    exact ordered_keys ⟨[], by simp⟩
  | some pin =>
    by_cases hsame : pin.domainKey = domainKey
    · refine ⟨pin.serials, by rw [next_same hsame, raiseSerials], ?_, ?_⟩
      · rw [History.under_of_pinned hpin hsame]
        exact htracked name pin hpin
      · rintro _ ⟨⟩ -
        rfl
    · refine ⟨⟨[], by simp⟩, by rw [next_other hsame, raiseSerials], ?_, ?_⟩
      · rw [History.under, hpin, Option.any_some, decide_eq_false hsame, if_neg (by simp)]
        exact ordered_keys ⟨[], by simp⟩
      · rintro _ ⟨⟩ h
        exact absurd h hsame

/-- An answer that is not accepted changes nothing. -/
lemma History.step_of_accepts_none {h : History} {name : String} {answer : Value} {nowSeconds : ℚ}
    {clock : String} (haccepts : (Call.verify name answer nowSeconds clock).accepts nacl isDate
      pinsPath h.disk = none) :
    h.step nacl isDate pinsPath (.verify name answer nowSeconds clock) = h := by
  obtain ⟨e, he⟩ := verifyOverlay_of_accepts_none haccepts
  simp only [History.step, haccepts, Call.disk, he]

/-- An answer that is accepted says the pin of its name. -/
lemma History.step_of_accepts {h : History} {name : String} {answer : Value} {nowSeconds : ℚ}
    {clock : String} {overlay : DnsResolveOverlay} {verified : VerifiedCertificate}
    (haccepts : (Call.verify name answer nowSeconds clock).accepts nacl isDate pinsPath h.disk =
      some (overlay, verified)) :
    get pinsPath (h.step nacl isDate pinsPath (.verify name answer nowSeconds clock)).disk =
        Function.update (get pinsPath h.disk) name
          (some (next (get pinsPath h.disk name) overlay.domainKey clock (serials verified))) ∧
      (h.step nacl isDate pinsPath (.verify name answer nowSeconds clock)).raised =
        Function.update h.raised name
          (h.under pinsPath name overlay.domainKey ++ (serials verified).map Prod.fst) := by
  obtain ⟨-, -, -, -, hget⟩ := verifyOverlay_of_accepts haccepts
  constructor
  · funext other
    rw [Function.update_apply]
    exact hget other
  · simp only [History.step, haccepts]

lemma tracked_step {h : History} (htracked : Tracked pinsPath h) (call : Call) :
    Tracked pinsPath (h.step nacl isDate pinsPath call) := by
  intro name pin hpin
  cases call with
  | forget gone =>
    change get pinsPath (forget pinsPath h.disk gone).1 name = some pin at hpin
    rcases forget_cases pinsPath h.disk gone with ⟨e, he, hnone⟩ | ⟨_, -, hget⟩
    · rw [he, hnone] at hpin
      contradiction
    · rw [hget] at hpin
      split at hpin
      · contradiction
      next hne =>
      change Ordered (Function.update h.raised gone [] name) pin.serials
      rw [Function.update_of_ne hne]
      exact htracked name pin hpin
  | verify other answer nowSeconds clock =>
    cases haccepts : (Call.verify other answer nowSeconds clock).accepts nacl isDate pinsPath
      h.disk with
    | none =>
      rw [History.step_of_accepts_none haccepts] at hpin ⊢
      exact htracked name pin hpin
    | some accepted =>
      obtain ⟨overlay, verified⟩ := accepted
      obtain ⟨hget, hraised⟩ := History.step_of_accepts haccepts
      rw [hget] at hpin
      rw [hraised]
      by_cases hname : name = other
      · subst hname
        rw [Function.update_self] at hpin ⊢
        obtain rfl := Option.some.inj hpin
        obtain ⟨base, hlatest, hbase, -⟩ := ordered_next htracked name overlay.domainKey clock
          (serials verified)
        rw [hlatest]
        exact (hbase.raiseAll _).latest MAX_SERIALS_PER_PIN
      · rw [Function.update_of_ne hname] at hpin ⊢
        exact htracked name pin hpin

lemma PinContinued.refl (name : String) (pin : Option Pin) (raised : List String) (call : Call) :
    PinContinued nacl name pin pin raised call := by
  refine ⟨?_, ?_, ?_, fun _ _ h => absurd rfl h⟩
  · rintro hsome rfl
    contradiction
  · rintro pin pin' rfl ⟨⟩ h
    exact absurd rfl h
  · rintro pin pin' rfl ⟨⟩ - k n hn
    exact .inl ⟨n, hn, le_rfl⟩

/-- A key that is followed from the pinned one is reached by statements of the answer. -/
lemma followedIn_of_followPin {name : String} {answer : Value} {overlay : DnsResolveOverlay}
    {pin : Pin} {key key' : PublicKey} (hparse : parseDnsResolveOverlay isDate answer = .ok overlay)
    (hkey : parsePublicKey (.text pin.domainKey) = .ok key)
    (hkey' : parsePublicKey (.text overlay.domainKey) = .ok key')
    (h : followPin nacl name overlay (some pin) = .ok ())
    (hne : pin.domainKey ≠ overlay.domainKey) :
    FollowedIn nacl name answer pin.domainKey overlay.domainKey := by
  rw [followPin, if_neg hne] at h
  split at h
  · next n hfollowed =>
    rcases followDomainKeyRotations_eq_ok hkey hkey' hfollowed with rfl |
      ⟨rotations, taken, rs, hrotations, htaken⟩
    · exact absurd ((encodeBase64_of_parse hkey).symm.trans (encodeBase64_of_parse hkey')) hne
    · obtain rfl := Value.array.inj hrotations
      exact ⟨_, taken, rs, key, key', parseDnsResolveOverlay_rotations hparse, htaken.1, htaken.2.1,
        hkey, hkey', htaken.2.2⟩
  · split at h <;> contradiction

lemma PinContinued.forgotten (name : String) (before : Option Pin) (raised : List String) :
    PinContinued nacl name before none raised (.forget name) := by
  refine ⟨fun _ _ => rfl, ?_, ?_, ?_⟩
  · rintro pin pin' - ⟨⟩
  · rintro pin pin' - ⟨⟩
  · rintro pin' ⟨⟩

/-- The pin of a name whose answer is accepted. -/
lemma PinContinued.accepted {h : History} (htracked : Tracked pinsPath h) {name : String}
    {answer : Value} {nowSeconds : ℚ} {clock : String} {overlay : DnsResolveOverlay}
    {verified : VerifiedCertificate} (haccepts : (Call.verify name answer nowSeconds clock).accepts
      nacl isDate pinsPath h.disk = some (overlay, verified)) :
    PinContinued nacl name (get pinsPath h.disk name)
      (some (next (get pinsPath h.disk name) overlay.domainKey clock (serials verified)))
      (h.under pinsPath name overlay.domainKey ++ (serials verified).map Prod.fst)
      (.verify name answer nowSeconds clock) := by
  obtain ⟨hparse, hfollow, hverified, -, -⟩ := verifyOverlay_of_accepts haccepts
  obtain ⟨-, key', hkey'⟩ := parse_of_verifyCertificate hverified
  obtain ⟨base, hlatest, hbase, hsame⟩ := ordered_next htracked name overlay.domainKey clock
    (serials verified)
  refine ⟨fun _ hnone => by contradiction, ?_, ?_, ?_⟩
  · rintro pin _ hpin ⟨⟩ hne
    rw [next_domainKey] at hne ⊢
    obtain ⟨key, hkey⟩ := parse_of_get hpin
    exact ⟨answer, nowSeconds, clock, rfl,
      followedIn_of_followPin hparse hkey hkey' (hpin ▸ hfollow) hne⟩
  · rintro pin _ hpin ⟨⟩ hkeys k n hn
    rw [next_domainKey] at hkeys
    obtain ⟨m, hm, hle⟩ := le_get_raiseAll (serials verified) (hsame pin hpin hkeys ▸ hn)
    rw [hlatest]
    rcases (hbase.raiseAll (serials verified)).get_latest MAX_SERIALS_PER_PIN hm with hk | hk
    · exact .inl ⟨m, hk, hle⟩
    · exact .inr hk
  · rintro _ ⟨⟩ -
    rw [hlatest]
    exact (raiseAll base (serials verified)).size_latest_le MAX_SERIALS_PER_PIN

end Tnp.Client.PinContinuity
