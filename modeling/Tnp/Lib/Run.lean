import Mathlib.Data.List.Basic
import Mathlib.Tactic.Lemma

/-!
Runs of a deterministic step function over a list of events, and the induction that carries an
invariant along one.
-/

namespace Tnp.Lib.Run

variable {S E : Type*} (step : S → E → S)

def run (s : S) (es : List E) : S := es.foldl step s

@[simp] lemma run_nil (s : S) : run step s [] = s := rfl

@[simp] lemma run_cons (s : S) (e : E) (es : List E) :
    run step s (e :: es) = run step (step s e) es := rfl

lemma run_append (s : S) (es fs : List E) :
    run step s (es ++ fs) = run step (run step s es) fs := by
  simp [run, List.foldl_append]

/-- Every event of the run is allowed in the state it finds. -/
def Allowed (allowed : S → E → Prop) : S → List E → Prop
  | _, [] => True
  | s, e :: es => allowed s e ∧ Allowed allowed (step s e) es

instance Allowed.decidable (allowed : S → E → Prop) [∀ s e, Decidable (allowed s e)] :
    ∀ (s : S) (es : List E), Decidable (Allowed step allowed s es)
  | _, [] => isTrue trivial
  | s, e :: es =>
    have := Allowed.decidable allowed (step s e) es
    inferInstanceAs (Decidable (allowed s e ∧ _))

variable {step}

/-- **What every allowed step preserves, every allowed run preserves.** -/
theorem invariant_of_allowed {allowed : S → E → Prop} {I : S → Prop}
    (hstep : ∀ s e, allowed s e → I s → I (step s e)) {s : S} (h0 : I s) {es : List E}
    (hes : Allowed step allowed s es) : I (run step s es) := by
  induction es generalizing s with
  | nil => exact h0
  | cons e es ih => exact ih (hstep s e hes.1 h0) hes.2

/-- What an invariant says of the next event holds of every event of an allowed run. -/
theorem allowed_of_invariant {allowed P : S → E → Prop} {I : S → Prop}
    (hstep : ∀ s e, allowed s e → I s → I (step s e)) (hP : ∀ s e, allowed s e → I s → P s e)
    {s : S} (h0 : I s) {es : List E} (hes : Allowed step allowed s es) : Allowed step P s es := by
  induction es generalizing s with
  | nil => trivial
  | cons e es ih => exact ⟨hP s e hes.1 h0, ih (hstep s e hes.1 h0) hes.2⟩

/-- **What every step preserves, every run preserves.** -/
theorem invariant {I : S → Prop} (hstep : ∀ s e, I s → I (step s e)) {s : S} (h0 : I s)
    (es : List E) : I (run step s es) := by
  induction es generalizing s with
  | nil => exact h0
  | cons e es ih => exact ih (hstep s e h0)

/-- The last event of an allowed run is allowed in the state before it. -/
lemma Allowed.last {allowed : S → E → Prop} {s : S} {es : List E} {e : E}
    (h : Allowed step allowed s (es ++ [e])) : allowed (run step s es) e := by
  induction es generalizing s with
  | nil => exact h.1
  | cons f es ih => exact ih h.2

/-- An event allowed by its own shape is allowed in any state. -/
lemma allowed_of_forall {ok : E → Prop} {s : S} {es : List E} (h : ∀ e ∈ es, ok e) :
    Allowed step (fun _ e => ok e) s es := by
  induction es generalizing s with
  | nil => trivial
  | cons e es ih =>
    exact ⟨h e List.mem_cons_self, ih fun f hf => h f (List.mem_cons_of_mem _ hf)⟩

/-- What is allowed in every state is allowed throughout. -/
lemma allowed_of_always {P : S → E → Prop} (h : ∀ s e, P s e) (s : S) (es : List E) :
    Allowed step P s es := by
  induction es generalizing s with
  | nil => trivial
  | cons e es ih => exact ⟨h s e, ih (step s e)⟩

lemma Allowed.and {P Q : S → E → Prop} {s : S} {es : List E} (hP : Allowed step P s es)
    (hQ : Allowed step Q s es) : Allowed step (fun s e => P s e ∧ Q s e) s es := by
  induction es generalizing s with
  | nil => trivial
  | cons e es ih => exact ⟨⟨hP.1, hQ.1⟩, ih hP.2 hQ.2⟩

/-- Conditions that agree on every step under an invariant that they keep agree on every run. -/
theorem allowed_congr {P Q : S → E → Prop} {I : S → Prop}
    (hstep : ∀ s e, P s e → I s → I (step s e)) (h : ∀ s e, I s → (P s e ↔ Q s e)) {s : S}
    (h0 : I s) (es : List E) : Allowed step P s es ↔ Allowed step Q s es := by
  constructor
  · exact allowed_of_invariant hstep (fun s e hP hI => (h s e hI).mp hP) h0
  · exact allowed_of_invariant (fun s e hQ hI => hstep s e ((h s e hI).mpr hQ) hI)
      (fun s e hQ hI => (h s e hI).mpr hQ) h0

end Tnp.Lib.Run
