import Mathlib.Algebra.Order.Ring.Int
import Mathlib.Tactic.Common

/-!
# Integers in binary32

The single-precision value of an integer, and the text that a runtime printing shortest
round-trip digits gives for it.
-/

namespace Binary32

/-- Number of significant bits. -/
def precision : ℕ := 24

/-- Bits of `n` beyond the significand. -/
def shift (n : ℕ) : ℕ := n.log2 + 1 - precision

/-- `n / m`, rounded to nearest, ties to even. -/
def divNearest (n m : ℕ) : ℕ :=
  if m < 2 * (n % m) ∨ (2 * (n % m) = m ∧ n / m % 2 = 1) then n / m + 1 else n / m

def ofNat (n : ℕ) : ℕ := divNearest n (2 ^ shift n) * 2 ^ shift n

/-- The value of `Float(x)`. -/
def ofInt (x : Int) : Int := x.sign * ofNat x.natAbs

def Exact (x : Int) : Prop := ofInt x = x

instance (x : Int) : Decidable (Exact x) := inferInstanceAs (Decidable (_ = _))

theorem divNearest_mul {n m : ℕ} (hm : 0 < m) (h : m ∣ n) : divNearest n m * m = n := by
  have hmod : n % m = 0 := Nat.mod_eq_zero_of_dvd h
  rw [divNearest, hmod, if_neg (by omega)]
  exact Nat.div_mul_cancel h

theorem ofNat_eq_self_iff (n : ℕ) : ofNat n = n ↔ 2 ^ shift n ∣ n := by
  constructor
  · intro h
    exact ⟨divNearest n (2 ^ shift n), by rw [Nat.mul_comm]; exact h.symm⟩
  · exact divNearest_mul (Nat.two_pow_pos _)

theorem shift_eq_zero {n : ℕ} (h : n < 2 ^ precision) : shift n = 0 := by
  by_cases hn : n = 0
  · simp [hn, shift, precision]
  · have hlog := (Nat.log2_lt hn).mpr h
    rw [shift]
    omega

theorem ofNat_of_le {n : ℕ} (h : n ≤ 2 ^ precision) : ofNat n = n := by
  rw [ofNat_eq_self_iff]
  rcases Nat.lt_or_eq_of_le h with h | rfl
  · simp [shift_eq_zero h]
  · exact Nat.pow_dvd_pow 2 (by rw [shift, Nat.log2_two_pow]; decide)

/-- Integers of magnitude up to `2^24` are represented exactly. -/
theorem exact_of_natAbs_le {x : Int} (h : x.natAbs ≤ 2 ^ precision) : Exact x := by
  rw [Exact, ofInt, ofNat_of_le h]
  exact Int.sign_mul_natAbs x

example : ofInt 16777217 = 16777216 := by decide

/-! ## Text -/

/-- The multiple of `10 ^ k` next to `n` that has the value `n`; the closer one of two. -/
def nearby? (n k : ℕ) : Option ℕ :=
  let low := n / 10 ^ k
  let high := low + 1
  if ofNat (low * 10 ^ k) = n then
    if ofNat (high * 10 ^ k) = n ∧ high * 10 ^ k - n < n - low * 10 ^ k then some high else some low
  else if ofNat (high * 10 ^ k) = n then some high
  else none

/-- The shortest decimal significand of the value `n`, and its power of ten up to `k`. -/
def shortest (n : ℕ) : ℕ → ℕ × ℕ
  | 0 => (n, 0)
  | k + 1 =>
    match nearby? n (k + 1) with
    | some d => (d, k + 1)
    | none => shortest n k

def exponential (n : ℕ) : List Char :=
  let (d, k) := shortest n (Nat.toDigits 10 n).length
  let digits := Nat.toDigits 10 d
  let exponent := k + digits.length - 1
  digits.take 1 ++ (if 1 < digits.length then '.' :: digits.drop 1 else []) ++ ['e', '+'] ++
    (if exponent < 10 then ['0'] else []) ++ Nat.toDigits 10 exponent

/-- The text of the integer value `x`: up to `2 ^ 24` in full, beyond that with an exponent. -/
def description (x : Int) : String :=
  String.ofList <| (if x < 0 then ['-'] else []) ++
    if x.natAbs ≤ 2 ^ precision then Nat.toDigits 10 x.natAbs ++ ['.', '0'] else exponential x.natAbs

theorem plus_mem_exponential (n : ℕ) : '+' ∈ exponential n := by
  simp [exponential]

example : description 13 = "13.0" := by decide
example : description 16777218 = "1.6777218e+07" := by decide

end Binary32
