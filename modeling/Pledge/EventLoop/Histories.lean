import Mathlib.Tactic.Common

/-!
# Histories

Runs of a labelled transition system, and the history variables carried along with them. A
history variable records what has happened and never decides what may happen.
-/

namespace EventLoop

variable {σ κ γ : Type}

/-- Runs whose steps all satisfy `Ok`. -/
inductive History (step : σ → κ → σ → Prop) (Ok : σ → κ → Prop) (s₀ : σ) : σ → Prop
  | refl : History step Ok s₀ s₀
  | tail {s s' : σ} {e : κ} (h : History step Ok s₀ s) (hok : Ok s e) (hs : step s e s') :
      History step Ok s₀ s'

variable {step step' : σ → κ → σ → Prop} {Ok Ok' : σ → κ → Prop} {s₀ s s' : σ}

theorem History.invariant {I : σ → Prop} (hstep : ∀ s e s', I s → Ok s e → step s e s' → I s')
    (h : History step Ok s₀ s) (h₀ : I s₀) : I s := by
  induction h with
  | refl => exact h₀
  | tail _ hok hs ih => exact hstep _ _ _ ih hok hs

theorem History.append (h : History step Ok s₀ s) (h' : History step Ok s s') : History step Ok s₀ s' := by
  induction h' with
  | refl => exact h
  | tail _ hok hs ih => exact .tail ih hok hs

/-- Where more is allowed there are more runs. -/
theorem History.mono (hstep : ∀ s e s', step s e s' → step' s e s') (hOk : ∀ s e, Ok s e → Ok' s e)
    (h : History step Ok s₀ s) : History step' Ok' s₀ s := by
  induction h with
  | refl => exact .refl
  | tail _ hok hs ih => exact .tail ih (hOk _ _ hok) (hstep _ _ _ hs)

/-- The system with a variable that `next` keeps up to date. -/
def recorded (step : σ → κ → σ → Prop) (next : γ → σ → κ → σ → γ) (s : σ × γ) (e : κ) (s' : σ × γ) :
    Prop :=
  step s.1 e s'.1 ∧ s'.2 = next s.2 s.1 e s'.1

variable {next : γ → σ → κ → σ → γ} {g : γ}

theorem History.note {t : σ × γ} {Ok : σ × γ → κ → Prop} {e : κ} (h : History (recorded step next) Ok t (s, g))
    (hok : Ok (s, g) e) (hs : step s e s') : History (recorded step next) Ok t (s', next g s e s') :=
  .tail h hok ⟨hs, rfl⟩

end EventLoop
