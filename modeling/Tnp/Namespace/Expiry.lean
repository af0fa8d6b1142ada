import Mathlib.Algebra.Group.Nat.Defs
import Mathlib.Data.Rat.Defs
import Mathlib.Tactic.Lemma

/-!
When the registration of a native name lapses, and how a time is written.

Times are milliseconds since 1970.
-/

namespace Tnp.Namespace

inductive NativeExpiryState
  | active
  | renewable
  | grace
  | expired
  deriving DecidableEq, Repr

def NATIVE_RENEWAL_WINDOW_DAYS : ℤ := 90
def NATIVE_GRACE_DAYS : ℤ := 30
def DAY_MS : ℤ := 24 * 60 * 60 * 1000

def nativeExpiryState (expiresAt : Option ℤ) (now : ℤ) : NativeExpiryState :=
  match expiresAt with
  | none => .active
  | some expiresAt =>
    let remaining := expiresAt - now
    if NATIVE_RENEWAL_WINDOW_DAYS * DAY_MS < remaining then .active
    else if 0 < remaining then .renewable
    else if -remaining ≤ NATIVE_GRACE_DAYS * DAY_MS then .grace
    else .expired

def isNativeRenewalAllowed (state : NativeExpiryState) : Bool := decide (state ≠ .active)

/-- An expired name is held for its owner, and not served. -/
def isNativeNameServed (state : NativeExpiryState) : Bool := decide (state ≠ .expired)

/-! ### Writing a time -/

def padStart (width : ℕ) (n : ℕ) : String :=
  let digits := (toString n).toList
  String.ofList (List.replicate (width - digits.length) '0' ++ digits)

/-- Year, month and day, of a number of days since 1970. -/
def civilDate (days : ℤ) : ℤ × ℕ × ℕ :=
  let z := days + 719468
  let era := z / 146097
  let dayOfEra := (z % 146097).toNat
  let yearOfEra := (dayOfEra - dayOfEra / 1460 + dayOfEra / 36524 - dayOfEra / 146096) / 365
  let dayOfYear := dayOfEra - (365 * yearOfEra + yearOfEra / 4 - yearOfEra / 100)
  let fromMarch := (5 * dayOfYear + 2) / 153
  let month := if fromMarch < 10 then fromMarch + 3 else fromMarch - 9
  let year := yearOfEra + era * 400 + if month ≤ 2 then 1 else 0
  (year, month, dayOfYear - (153 * fromMarch + 2) / 5 + 1)

def toISOString (ms : ℤ) : String :=
  let (year, month, day) := civilDate (ms / DAY_MS)
  let t := (ms % DAY_MS).toNat
  let yearText :=
    if 0 ≤ year ∧ year ≤ 9999 then padStart 4 year.toNat
    else (if year < 0 then "-" else "+") ++ padStart 6 year.natAbs
  yearText ++ "-" ++ padStart 2 month ++ "-" ++ padStart 2 day ++ "T" ++
    padStart 2 (t / 3600000) ++ ":" ++ padStart 2 (t / 60000 % 60) ++ ":" ++
    padStart 2 (t / 1000 % 60) ++ "." ++ padStart 3 (t % 1000) ++ "Z"

end Tnp.Namespace
