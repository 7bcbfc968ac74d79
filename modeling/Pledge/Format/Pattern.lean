import Mathlib.Computability.RegularExpressions

/-!
# Patterns

The usual notation for patterns, as regular expressions: a class of characters, one or more, and
between so many and so many. What each of them matches.
-/

namespace Pattern

open RegularExpression

variable {α : Type} {cs : List α} {s : List α} {p q : RegularExpression α}

/-- `[…]`. -/
def oneOf (cs : List α) : RegularExpression α := (cs.map char).foldr (· + ·) 0

/-- `p+`. -/
def oneOrMore (p : RegularExpression α) : RegularExpression α := p * p.star

/-- `p{min,max}`. -/
def between (min max : ℕ) (p : RegularExpression α) : RegularExpression α :=
  ((List.range (max + 1 - min)).map fun k => p ^ (min + k)).foldr (· + ·) 0

theorem mem_sum {ps : List (RegularExpression α)} :
    s ∈ (ps.foldr (· + ·) 0).matches' ↔ ∃ p ∈ ps, s ∈ p.matches' := by
  induction ps with
  | nil => simp [Language.notMem_zero]
  | cons p ps ih =>
    rw [List.foldr_cons, matches'_add, Language.mem_add, ih]
    simp

theorem mem_char {c : α} : s ∈ (char c).matches' ↔ s = [c] := Iff.rfl

theorem mem_oneOf : s ∈ (oneOf cs).matches' ↔ ∃ c ∈ cs, s = [c] := by
  rw [oneOf, mem_sum]
  constructor
  · rintro ⟨p, hp, hs⟩
    obtain ⟨c, hc, rfl⟩ := List.mem_map.mp hp
    exact ⟨c, hc, hs⟩
  · rintro ⟨c, hc, hs⟩
    exact ⟨char c, List.mem_map_of_mem hc, hs⟩

theorem mem_concat : s ∈ (p * q).matches' ↔ ∃ a ∈ p.matches', ∃ b ∈ q.matches', a ++ b = s :=
  Language.mem_mul

/-- Words of a class: all their characters are in it. -/
theorem mem_pow_oneOf {n : ℕ} : s ∈ (oneOf cs ^ n).matches' ↔ s.length = n ∧ ∀ c ∈ s, c ∈ cs := by
  rw [matches'_pow]
  induction n generalizing s with
  | zero =>
    rw [pow_zero, Language.mem_one]
    constructor
    · rintro rfl
      simp
    · rintro ⟨hlength, -⟩
      exact List.length_eq_zero_iff.mp hlength
  | succ n ih =>
    rw [pow_succ', Language.mem_mul]
    constructor
    · rintro ⟨a, ha, b, hb, rfl⟩
      obtain ⟨c, hc, rfl⟩ := mem_oneOf.mp ha
      obtain ⟨hlength, hall⟩ := ih.mp hb
      exact ⟨by simp [hlength], by simpa [hc] using hall⟩
    · rintro ⟨hlength, hall⟩
      cases s with
      | nil => cases hlength
      | cons c s =>
        rw [List.forall_mem_cons] at hall
        exact ⟨[c], mem_oneOf.mpr ⟨c, hall.1, rfl⟩, s, ih.mpr ⟨by simpa using hlength, hall.2⟩, rfl⟩

theorem mem_star_oneOf : s ∈ (oneOf cs).star.matches' ↔ ∀ c ∈ s, c ∈ cs := by
  rw [matches'_star, Language.kstar_eq_iSup_pow, Language.mem_iSup]
  simp only [← matches'_pow, mem_pow_oneOf]
  exact ⟨fun ⟨_, _, hall⟩ => hall, fun hall => ⟨s.length, rfl, hall⟩⟩

theorem mem_oneOrMore_oneOf : s ∈ (oneOrMore (oneOf cs)).matches' ↔ s ≠ [] ∧ ∀ c ∈ s, c ∈ cs := by
  rw [oneOrMore, mem_concat]
  constructor
  · rintro ⟨a, ha, b, hb, rfl⟩
    obtain ⟨c, hc, rfl⟩ := mem_oneOf.mp ha
    refine ⟨by simp, ?_⟩
    simpa [hc] using mem_star_oneOf.mp hb
  · rintro ⟨hne, hall⟩
    cases s with
    | nil => exact (hne rfl).elim
    | cons c s =>
      rw [List.forall_mem_cons] at hall
      exact ⟨[c], mem_oneOf.mpr ⟨c, hall.1, rfl⟩, s, mem_star_oneOf.mpr hall.2, rfl⟩

theorem mem_between_oneOf {min max : ℕ} : s ∈ (between min max (oneOf cs)).matches' ↔
    (min ≤ s.length ∧ s.length ≤ max) ∧ ∀ c ∈ s, c ∈ cs := by
  rw [between, mem_sum]
  constructor
  · rintro ⟨p, hp, hs⟩
    obtain ⟨k, hk, rfl⟩ := List.mem_map.mp hp
    rw [List.mem_range] at hk
    obtain ⟨hlength, hall⟩ := mem_pow_oneOf.mp hs
    exact ⟨by omega, hall⟩
  · rintro ⟨⟨hmin, hmax⟩, hall⟩
    have hk : s.length - min ∈ List.range (max + 1 - min) := List.mem_range.mpr (by omega)
    exact ⟨_, List.mem_map_of_mem hk, mem_pow_oneOf.mpr ⟨by omega, hall⟩⟩

/-! ## Dividing a word -/

/-- The first occurrence of a character divides a word in one way. -/
theorem eq_of_append_cons {x : α} {a a' b b' : List α} (h : a ++ x :: b = a' ++ x :: b') (ha : x ∉ a)
    (ha' : x ∉ a') : a = a' ∧ b = b' := by
  induction a generalizing a' with
  | nil =>
    cases a' with
    | nil => exact ⟨rfl, List.tail_eq_of_cons_eq h⟩
    | cons y a' =>
      obtain ⟨rfl, -⟩ := List.cons.inj h
      exact (ha' List.mem_cons_self).elim
  | cons y a ih =>
    cases a' with
    | nil =>
      obtain ⟨rfl, -⟩ := List.cons.inj h
      exact (ha List.mem_cons_self).elim
    | cons z a' =>
      obtain ⟨rfl, hrest⟩ := List.cons.inj h
      obtain ⟨rfl, rfl⟩ := ih hrest (fun hx => ha (List.mem_cons_of_mem _ hx))
        fun hx => ha' (List.mem_cons_of_mem _ hx)
      exact ⟨rfl, rfl⟩

/-- So does the last. -/
theorem eq_of_append_cons_last {x : α} {a a' b b' : List α} (h : a ++ x :: b = a' ++ x :: b') (hb : x ∉ b)
    (hb' : x ∉ b') : a = a' ∧ b = b' := by
  have hreverse : b.reverse ++ x :: a.reverse = b'.reverse ++ x :: a'.reverse := by
    simpa using congrArg List.reverse h
  obtain ⟨htail, hhead⟩ := eq_of_append_cons hreverse (by simpa using hb) (by simpa using hb')
  exact ⟨List.reverse_injective hhead, List.reverse_injective htail⟩

end Pattern
