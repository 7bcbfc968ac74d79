import Mathlib.Algebra.Order.Ring.Int
import Mathlib.Tactic.Common

/-!
# 64-bit integers

Signed integers whose addition traps when it overflows, and their decimal text.
-/

namespace MachineInt

def minValue : Int := -9223372036854775808
def maxValue : Int := 9223372036854775807

def InRange (x : Int) : Prop := minValue ≤ x ∧ x ≤ maxValue

instance (x : Int) : Decidable (InRange x) := inferInstanceAs (Decidable (_ ∧ _))

/-- `x + y`, and nothing where it overflows. -/
def add? (x y : Int) : Option Int := if InRange (x + y) then some (x + y) else none

theorem add?_eq_some_iff {x y z : Int} : add? x y = some z ↔ InRange (x + y) ∧ x + y = z := by
  unfold add?
  split <;> simp_all

/-! ## Text -/

def description (x : Int) : String :=
  String.ofList ((if x < 0 then ['-'] else []) ++ Nat.toDigits 10 x.natAbs)

def digits? (cs : List Char) : Option ℕ :=
  if cs ≠ [] ∧ cs.all Char.isDigit then some (Nat.ofDigitChars 10 cs 0) else none

/-- A sign or none, and at least one digit. -/
def signed? : List Char → Option Int
  | '+' :: cs => (digits? cs).map Int.ofNat
  | '-' :: cs => (digits? cs).map fun n : ℕ => -(n : Int)
  | cs => (digits? cs).map Int.ofNat

/-- The integer that a text writes, if it is in range. -/
def parse? (text : String) : Option Int := (signed? text.toList).filter fun x => InRange x

theorem digits?_toDigits (n : ℕ) : digits? (Nat.toDigits 10 n) = some n := by
  have hdigits : (Nat.toDigits 10 n).all Char.isDigit = true := by
    rw [List.all_eq_true]
    intro c hc
    exact Nat.isDigit_of_mem_toDigits (by decide) (by decide) hc
  rw [digits?, if_pos ⟨Nat.toDigits_ne_nil, hdigits⟩, Nat.ofDigitChars_ten_toDigits]

theorem signed?_toDigits (n : ℕ) : signed? (Nat.toDigits 10 n) = some (n : Int) := by
  have hdigit : ∀ c ∈ Nat.toDigits 10 n, c.isDigit = true := by
    intro c hc
    exact Nat.isDigit_of_mem_toDigits (by decide) (by decide) hc
  have hn := digits?_toDigits n
  unfold signed?
  split
  case h_1 cs hcs =>
    have hplus := hdigit '+' (by simp [hcs])
    cases hplus
  case h_2 cs hcs =>
    have hminus := hdigit '-' (by simp [hcs])
    cases hminus
  case h_3 =>
    rw [hn]
    rfl

/-- The text of an integer writes it. -/
theorem parse?_description {x : Int} (h : InRange x) : parse? (description x) = some x := by
  have hsigned : signed? (description x).toList = some x := by
    rw [description, String.toList_ofList]
    by_cases hx : x < 0
    · rw [if_pos hx]
      show (digits? (Nat.toDigits 10 x.natAbs)).map (fun n : ℕ => -(n : Int)) = some x
      rw [digits?_toDigits, Option.map_some, Option.some.injEq]
      omega
    · rw [if_neg hx, List.nil_append, signed?_toDigits, Option.some.injEq]
      omega
  rw [parse?, hsigned]
  exact Option.filter_some_pos (by simpa using h)

example : parse? "+12" = some 12 := by decide
example : parse? "9223372036854775808" = none := by decide

end MachineInt
