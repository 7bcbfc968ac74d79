import Pledge.EventLoop.Histories

/-!
# Updates that may be repeated

One update for each key, which does nothing more when it is repeated. Attempts that carry out only
some of the updates may then be repeated until one carries out all of them.
-/

namespace EventLoop

variable {κ ν σ ε : Type}

/-- Between `s₀` and `s` some of the updates were carried out. -/
def Between (f : κ → ν → ν) (s₀ s : κ → ν) : Prop := ∀ k, s k = s₀ k ∨ s k = f k (s₀ k)

/-- Between `s₀` and `s` all of the updates were carried out. -/
def Applied (f : κ → ν → ν) (s₀ s : κ → ν) : Prop := ∀ k, s k = f k (s₀ k)

variable {f : κ → ν → ν} {s₀ s s' : κ → ν}

theorem Between.refl (s : κ → ν) : Between f s s := fun _ => .inl rfl

section Idempotent

variable (hf : ∀ k v, f k (f k v) = f k v)

include hf

theorem Between.trans (h : Between f s₀ s) (h' : Between f s s') : Between f s₀ s' := by
  intro k
  rcases h' k with hkept | hupdated
  · rw [hkept]
    exact h k
  · rw [hupdated]
    rcases h k with hk | hk
    · exact .inr (by rw [hk])
    · exact .inr (by rw [hk, hf])

theorem Between.applied (h : Between f s₀ s) (h' : Applied f s s') : Applied f s₀ s' := by
  intro k
  rw [h' k]
  rcases h k with hk | hk
  · rw [hk]
  · rw [hk, hf]

theorem Applied.trans_between (h : Applied f s₀ s) (h' : Between f s s') : Applied f s₀ s' := by
  intro k
  rcases h' k with hkept | hupdated
  · rw [hkept, h k]
  · rw [hupdated, h k, hf]

/-- Attempts may fail in part and be repeated: what they leave is the old value or the update of it,
and once one of them was complete it is the update, whatever is attempted again. -/
theorem applied_of_history {step : σ → ε → σ → Prop} {Ok : σ × Bool → ε → Prop} (view : σ → κ → ν)
    {complete : σ → ε → Bool} {a₀ a : σ} {done : Bool}
    (hstep : ∀ a e a', step a e a' → Between f (view a) (view a') ∧
      (complete a e = true → Applied f (view a) (view a')))
    (h : History (recorded step fun done a e _ => done || complete a e) Ok (a₀, false) (a, done)) :
    Between f (view a₀) (view a) ∧ (done = true → Applied f (view a₀) (view a)) := by
  refine h.invariant (I := fun t => Between f (view a₀) (view t.1) ∧
    (t.2 = true → Applied f (view a₀) (view t.1))) ?_ ⟨.refl _, fun hd => by cases hd⟩
  rintro ⟨a, done⟩ e ⟨a', done'⟩ ⟨hbetween, happlied⟩ - ⟨hs, hdone⟩
  obtain ⟨hsome, hall⟩ := hstep a e a' hs
  refine ⟨hbetween.trans hf hsome, fun hd => ?_⟩
  rw [show done' = (done || complete a e) from hdone, Bool.or_eq_true] at hd
  rcases hd with hd | hd
  · exact (happlied hd).trans_between hf hsome
  · exact hbetween.applied hf (hall hd)

end Idempotent

end EventLoop
