import Mathlib.Tactic.Linarith
import Pledge.Format.Binary32

/-!
# Rounding integers to binary32

How far the single-precision value of an integer is from it: no value is nearer, it is exact in the
end, and larger integers never have smaller values.
-/

namespace Binary32

variable {n m k x y : ℕ}

/-- A value of the format. -/
def Representable (n : ℕ) : Prop := 2 ^ shift n ∣ n

/-- The distance of two integers. -/
def dist (n m : ℕ) : ℕ := (n - m) + (m - n)

/-! ## The nearest multiple -/

theorem divNearest_cases (n m : ℕ) :
    (divNearest n m = n / m + 1 ∧ m ≤ 2 * (n % m)) ∨ (divNearest n m = n / m ∧ 2 * (n % m) ≤ m) := by
  unfold divNearest
  split
  case isTrue h => exact .inl ⟨rfl, by omega⟩
  case isFalse h => exact .inr ⟨rfl, by omega⟩

/-- No multiple of `m` is nearer to `n`. -/
theorem dist_divNearest_le (hm : 0 < m) (k : ℕ) : dist (divNearest n m * m) n ≤ dist (k * m) n := by
  have hdiv : n / m * m + n % m = n := by
    rw [Nat.mul_comm]
    exact Nat.div_add_mod n m
  have hmod := Nat.mod_lt n hm
  -- the multiples below and above
  have hside : k * m ≤ n / m * m ∨ n / m * m + m ≤ k * m := by
    rcases Nat.lt_or_ge (n / m) k with hk | hk
    · right
      rw [← Nat.succ_mul]
      exact Nat.mul_le_mul_right m hk
    · exact .inl (Nat.mul_le_mul_right m hk)
  unfold dist
  rcases divNearest_cases n m with ⟨he, hle⟩ | ⟨he, hle⟩
  · rw [he, Nat.add_mul, Nat.one_mul]
    omega
  · rw [he]
    omega

theorem two_mul_dist_divNearest (hm : 0 < m) : 2 * dist (divNearest n m * m) n ≤ m := by
  have hdiv : n / m * m + n % m = n := by
    rw [Nat.mul_comm]
    exact Nat.div_add_mod n m
  have hmod := Nat.mod_lt n hm
  unfold dist
  rcases divNearest_cases n m with ⟨he, hle⟩ | ⟨he, hle⟩
  · rw [he, Nat.add_mul, Nat.one_mul]
    omega
  · rw [he]
    omega

/-! ## Values of the format -/

theorem ofNat_of_shift_eq_zero (h : shift n = 0) : ofNat n = n :=
  (ofNat_eq_self_iff n).mpr (by rw [h, Nat.pow_zero]; exact Nat.one_dvd n)

theorem log2_eq (h : shift n ≠ 0) : n.log2 = shift n + 23 := by
  unfold shift precision at *
  omega

theorem two_pow_le (h : shift n ≠ 0) : 2 ^ (shift n + 23) ≤ n := by
  have hn : n ≠ 0 := by
    rintro rfl
    exact h rfl
  rw [← log2_eq h]
  exact Nat.log2_self_le hn

theorem lt_two_pow (n : ℕ) : n < 2 ^ (shift n + 24) := by
  refine Nat.lt_of_lt_of_le Nat.lt_log2_self (Nat.pow_le_pow_right (by decide) ?_)
  unfold shift precision
  omega

theorem shift_le_of_lt (h : n < 2 ^ (k + 24)) : shift n ≤ k := by
  by_cases hn : n = 0
  · subst hn
    exact Nat.zero_le _
  · have hlog := (Nat.log2_lt hn).mpr h
    unfold shift precision
    omega

/-- Rounding ends at a value of the format. -/
theorem representable_ofNat (n : ℕ) : Representable (ofNat n) := by
  have hpos := Nat.two_pow_pos (shift n)
  have hquotient : divNearest n (2 ^ shift n) ≤ 2 ^ 24 := by
    have hlt : n / 2 ^ shift n < 2 ^ 24 := by
      rw [Nat.div_lt_iff_lt_mul hpos, ← Nat.pow_add, Nat.add_comm]
      exact lt_two_pow n
    rcases divNearest_cases n (2 ^ shift n) with ⟨he, -⟩ | ⟨he, -⟩ <;> omega
  unfold Representable ofNat
  rcases Nat.lt_or_eq_of_le hquotient with hlt | he
  · have hle : shift (divNearest n (2 ^ shift n) * 2 ^ shift n) ≤ shift n := by
      refine shift_le_of_lt ?_
      rw [Nat.pow_add, Nat.mul_comm]
      exact Nat.mul_lt_mul_of_pos_left hlt hpos
    exact (Nat.pow_dvd_pow 2 hle).trans (Nat.dvd_mul_left _ _)
  · -- the next power of two
    rw [he, ← Nat.pow_add]
    refine Nat.pow_dvd_pow 2 ?_
    rw [shift, Nat.log2_two_pow]
    unfold precision
    omega

/-- No value of the format is nearer. -/
theorem dist_ofNat_le (hm : Representable m) : dist (ofNat n) n ≤ dist m n := by
  have hpos := Nat.two_pow_pos (shift n)
  by_cases hs : shift n = 0
  · simp [dist, ofNat_of_shift_eq_zero hs]
  by_cases hle : shift n ≤ shift m
  · obtain ⟨k, hk⟩ := (Nat.pow_dvd_pow 2 hle).trans hm
    rw [hk, Nat.mul_comm]
    exact dist_divNearest_le hpos k
  · -- a value with fewer bits is below the power of two that starts those of `n`
    have hbelow : m < 2 ^ (shift n + 23) := by
      refine Nat.lt_of_lt_of_le (lt_two_pow m) (Nat.pow_le_pow_right (by decide) ?_)
      omega
    have hstart := dist_divNearest_le (n := n) hpos (2 ^ 23)
    rw [← Nat.pow_add, Nat.add_comm] at hstart
    have habove := two_pow_le hs
    unfold ofNat
    refine hstart.trans ?_
    unfold dist
    omega

/-- The error is at most one part in `2 ^ 24`. -/
theorem dist_ofNat_mul_le (n : ℕ) : dist (ofNat n) n * 2 ^ 24 ≤ n := by
  by_cases hs : shift n = 0
  · simp [dist, ofNat_of_shift_eq_zero hs]
  · have herror : 2 * dist (ofNat n) n ≤ 2 ^ shift n := two_mul_dist_divNearest (Nat.two_pow_pos _)
    calc dist (ofNat n) n * 2 ^ 24 = 2 * dist (ofNat n) n * 2 ^ 23 := by omega
      _ ≤ 2 ^ shift n * 2 ^ 23 := Nat.mul_le_mul_right _ herror
      _ = 2 ^ (shift n + 23) := (Nat.pow_add 2 (shift n) 23).symm
      _ ≤ n := two_pow_le hs

theorem ofNat_mono (h : x ≤ y) : ofNat x ≤ ofNat y := by
  have hx := dist_ofNat_le (n := x) (representable_ofNat y)
  have hy := dist_ofNat_le (n := y) (representable_ofNat x)
  by_contra hlt
  -- each value is the nearer one to its own integer
  have he : x = y := by
    unfold dist at hx hy
    omega
  subst he
  exact hlt le_rfl

/-! ## Signed integers -/

section Int

variable {x y : Int}

theorem natAbs_ofInt (x : Int) : (ofInt x).natAbs = ofNat x.natAbs := by
  by_cases hx : x = 0
  · subst hx
    decide
  · rw [ofInt, Int.natAbs_mul, Int.natAbs_sign_of_ne_zero hx, Nat.one_mul, Int.natAbs_natCast]

theorem exact_iff (x : Int) : Exact x ↔ Representable x.natAbs := by
  rw [Representable, ← ofNat_eq_self_iff, Exact]
  constructor
  · intro h
    rw [← natAbs_ofInt, h]
  · intro h
    rw [ofInt, h]
    exact Int.sign_mul_natAbs x

/-- The value lies on the side of the integer. -/
theorem ofInt_cases (x : Int) :
    (0 ≤ x ∧ ofInt x = ofNat x.natAbs) ∨ (x ≤ 0 ∧ ofInt x = -(ofNat x.natAbs : Int)) := by
  unfold ofInt
  rcases lt_trichotomy x 0 with hx | rfl | hx
  · right
    rw [Int.sign_eq_neg_one_of_neg hx]
    exact ⟨hx.le, by omega⟩
  · left
    decide
  · left
    rw [Int.sign_eq_one_of_pos hx, Int.one_mul]
    exact ⟨hx.le, rfl⟩

theorem natAbs_ofInt_sub (x : Int) : (ofInt x - x).natAbs = dist (ofNat x.natAbs) x.natAbs := by
  unfold dist
  rcases ofInt_cases x with ⟨hx, he⟩ | ⟨hx, he⟩ <;> rw [he] <;> omega

/-- No integer that is represented exactly is nearer. -/
theorem natAbs_ofInt_sub_le (hy : Exact y) (x : Int) : (ofInt x - x).natAbs ≤ (y - x).natAbs := by
  rw [natAbs_ofInt_sub]
  have hnearest := dist_ofNat_le (n := x.natAbs) ((exact_iff y).mp hy)
  refine hnearest.trans ?_
  unfold dist
  omega

theorem natAbs_ofInt_sub_mul_le (x : Int) : (ofInt x - x).natAbs * 2 ^ 24 ≤ x.natAbs := by
  rw [natAbs_ofInt_sub]
  exact dist_ofNat_mul_le x.natAbs

theorem ofInt_mono (h : x ≤ y) : ofInt x ≤ ofInt y := by
  rcases ofInt_cases x with ⟨hx, hx'⟩ | ⟨hx, hx'⟩ <;> rcases ofInt_cases y with ⟨hy, hy'⟩ | ⟨hy, hy'⟩ <;>
    rw [hx', hy']
  · have hmono := ofNat_mono (x := x.natAbs) (y := y.natAbs) (by omega)
    omega
  · obtain ⟨rfl, rfl⟩ : x = 0 ∧ y = 0 := by omega
    decide
  · omega
  · have hmono := ofNat_mono (x := y.natAbs) (y := x.natAbs) (by omega)
    omega

/-- The value of an integer is represented exactly. -/
theorem exact_ofInt (x : Int) : Exact (ofInt x) := by
  rw [exact_iff, natAbs_ofInt]
  exact representable_ofNat _

/-- Rounding does not go below an integer that is represented exactly. -/
theorem Exact.le_ofInt (hy : Exact y) (h : y ≤ x) : y ≤ ofInt x := by
  rw [← show ofInt y = y from hy]
  exact ofInt_mono h

theorem ofInt_nonneg (h : 0 ≤ x) : 0 ≤ ofInt x :=
  Exact.le_ofInt (y := 0) (by decide) h

end Int

end Binary32
