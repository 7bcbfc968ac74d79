import Mathlib.Data.List.ReduceOption

/-!
# Copies of a remote value

A client keeps a copy of a value on a server. Every answer on its way may carry a value of
the server, which the copy takes on when the answer arrives; a promised value was given to
the copy before the server has been asked.
-/

namespace EventLoop

variable {α : Type}

/-- The value carried by the answer that was given last, of those on their way. -/
def freshest (answers : List (Option α)) : Option α := answers.reduceOption.getLast?

/-- The copy will end up with the remote value: the freshest answer carries it, or none
carries any and the copy has it already, or it was promised and still may come true. -/
def Agrees (remote copy : α) (answers : List (Option α)) (promised : α → Prop) : Prop :=
  match freshest answers with
  | some v => v = remote
  | none => copy = remote ∨ promised copy

/-- Nothing older stays behind when this answer arrives: a fresher one is still on its way,
or the others carry what it carries. -/
def InTime (pre : List (Option α)) (a : Option α) (post : List (Option α)) : Prop :=
  ∀ v, a = some v → freshest post ≠ none ∨ ∀ v', freshest pre = some v' → v' = v

variable {remote remote' copy v : α} {pre post answers : List (Option α)} {a : Option α}
  {promised promised' : α → Prop}

theorem freshest_append (pre post : List (Option α)) :
    freshest (pre ++ post) = (freshest post).or (freshest pre) := by
  unfold freshest
  rw [List.reduceOption_append, List.getLast?_append]

@[simp] theorem freshest_nil : freshest ([] : List (Option α)) = none := rfl

@[simp] theorem freshest_singleton (a : Option α) : freshest [a] = a := by
  cases a <;> rfl

theorem agrees_quiet (h : Agrees remote copy [] promised) (hp : ¬ promised copy) : copy = remote :=
  h.resolve_right hp

/-- An answer that carries the value of the server as it is makes up for all before it. -/
theorem agrees_carried : Agrees remote copy (answers ++ [some remote]) promised := by
  unfold Agrees
  rw [freshest_append, freshest_singleton, Option.some_or]

theorem agrees_silent (h : Agrees remote copy answers promised)
    (hp : freshest answers = none → copy ≠ remote → promised copy → promised' copy) :
    Agrees remote copy (answers ++ [none]) promised' := by
  unfold Agrees at h ⊢
  rw [freshest_append, freshest_singleton, Option.none_or]
  cases hf : freshest answers with
  | some v =>
    rw [hf] at h
    exact h
  | none =>
    rw [hf] at h
    by_cases hc : copy = remote
    · exact .inl hc
    · exact .inr (hp hf hc (h.resolve_left hc))

theorem agrees_promised (h : Agrees remote copy answers promised) (hp : promised' v) :
    Agrees remote v answers promised' := by
  unfold Agrees at h ⊢
  cases hf : freshest answers with
  | some v' =>
    rw [hf] at h
    exact h
  | none => exact .inr hp

theorem agrees_mono (h : Agrees remote copy answers promised)
    (hp : promised copy → promised' copy) : Agrees remote copy answers promised' := by
  unfold Agrees at h ⊢
  cases hf : freshest answers with
  | some v' =>
    rw [hf] at h
    exact h
  | none =>
    rw [hf] at h
    exact h.imp_right hp

/-- Answers that arrive in time bring the copy to the remote value in the end. -/
theorem agrees_delivered (h : Agrees remote copy (pre ++ a :: post) promised)
    (ht : InTime pre a post) : Agrees remote (a.getD copy) (pre ++ post) promised := by
  unfold Agrees at h ⊢
  rw [List.append_cons, freshest_append, freshest_append, freshest_singleton] at h
  rw [freshest_append]
  cases hpost : freshest post with
  | some v =>
    rw [hpost] at h
    exact h
  | none =>
    rw [hpost, Option.none_or] at h
    rw [Option.none_or]
    cases a with
    | none => exact h
    | some v =>
      obtain rfl : v = remote := h
      cases hpre : freshest pre with
      | none => exact .inl rfl
      | some v' => exact (ht v rfl).resolve_left (fun hne => hne hpost) v' hpre

end EventLoop
