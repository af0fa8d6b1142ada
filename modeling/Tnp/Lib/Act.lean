import Mathlib.Tactic.Lemma

/-!
Computations over a world that may throw. What was done to the world before stays done.
-/

namespace Tnp.Lib

/-- What a computation returns, or the message it throws, and the world it leaves. -/
def Act (σ α : Type) : Type := σ → Except String α × σ

namespace Act

variable {σ α β : Type}

instance : Monad (Act σ) where
  pure a := fun s => (.ok a, s)
  bind x f := fun s =>
    match x s with
    | (.ok a, s') => f a s'
    | (.error message, s') => (.error message, s')

/-- `throw`. -/
def error (message : String) : Act σ α := fun s => (.error message, s)

/-- What is thrown is caught, and so is what is returned. -/
def attempt (x : Act σ α) : Act σ (Option α) := fun s =>
  match x s with
  | (.ok a, s') => (.ok (some a), s')
  | (.error _, s') => (.ok none, s')

lemma pure_apply (a : α) (s : σ) : (pure a : Act σ α) s = (.ok a, s) := rfl

lemma bind_of_ok {x : Act σ α} {f : α → Act σ β} {s s' : σ} {a : α} (h : x s = (.ok a, s')) :
    (x >>= f) s = f a s' := by
  change (match x s with
    | (.ok a, s') => f a s'
    | (.error message, s') => (.error message, s')) = _
  rw [h]

/-- Whatever it returns has the property. -/
def Returns (x : Act σ α) (P : α → Prop) : Prop := ∀ s a s', x s = (.ok a, s') → P a

variable {x : Act σ α} {f : α → Act σ β} {P : α → Prop} {Q : β → Prop}

lemma Returns.pure {a : α} (h : P a) : Returns (pure a : Act σ α) P := by
  intro s b s' hb
  obtain ⟨hb, -⟩ := Prod.mk.inj hb
  obtain rfl := Except.ok.inj hb
  exact h

lemma Returns.error {message : String} : Returns (error message : Act σ α) P := by
  intro s a s' h
  exact absurd (Prod.mk.inj h).1 nofun

lemma Returns.mono {P' : α → Prop} (h : Returns x P) (hP : ∀ a, P a → P' a) : Returns x P' :=
  fun s a s' ha => hP a (h s a s' ha)

lemma Returns.trivial : Returns x fun _ => True := fun _ _ _ _ => .intro

/-- **What the first part returns is what the second finds.** -/
theorem Returns.bind (hx : Returns x P) (hf : ∀ a, P a → Returns (f a) Q) :
    Returns (x >>= f) Q := by
  intro s b s' hb
  change (match x s with
    | (.ok a, s') => f a s'
    | (.error message, s') => (.error message, s')) = _ at hb
  split at hb
  · next a t ha => exact hf a (hx s a t ha) t b s' hb
  · next message t ha => exact absurd (Prod.mk.inj hb).1 nofun

lemma Returns.seq (hf : ∀ a, Returns (f a) Q) : Returns (x >>= f) Q :=
  Returns.bind (P := fun _ => True) .trivial fun a _ => hf a

end Act

end Tnp.Lib
