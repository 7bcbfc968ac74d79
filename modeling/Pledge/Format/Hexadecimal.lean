import Mathlib.Data.Nat.Digits.Defs

/-!
# Hexadecimal

Digits in either case, the numbers that they write, and the bytes that pairs of them write.
-/

namespace Hexadecimal

def digit? (c : Char) : Option ℕ :=
  if '0' ≤ c ∧ c ≤ '9' then some (c.toNat - '0'.toNat)
  else if 'a' ≤ c ∧ c ≤ 'f' then some (c.toNat - 'a'.toNat + 10)
  else if 'A' ≤ c ∧ c ≤ 'F' then some (c.toNat - 'A'.toNat + 10)
  else none

/-- The byte that two digits write. -/
def byte? (h l : Char) : Option ℕ :=
  match digit? h, digit? l with
  | some h, some l => some (16 * h + l)
  | _, _ => none

/-- The digits that a text starts with. -/
def digits : List Char → List ℕ
  | [] => []
  | c :: cs =>
    match digit? c with
    | some d => d :: digits cs
    | none => []

/-- The number that digits write, the most significant first. -/
def number (ds : List ℕ) : ℕ := Nat.ofDigits 16 ds.reverse

variable {c h l : Char} {cs : List Char} {d n : ℕ} {ds : List ℕ}

/-! ## Digits -/

/-- The value of a digit, and where the digits lie among the characters. -/
theorem digit?_bounds (hd : digit? c = some d) : d < 16 ∧ 0x30 ≤ c.toNat ∧ c.toNat ≤ 0x66 := by
  unfold digit? at hd
  split_ifs at hd with hten hlower hupper
  · cases hd
    have hfirst : '0'.toNat = 0x30 := rfl
    have hmin : 0x30 ≤ c.toNat := hten.1
    have hmax : c.toNat ≤ 0x39 := hten.2
    rw [hfirst]
    exact ⟨by omega, hmin, by omega⟩
  · cases hd
    have hfirst : 'a'.toNat = 0x61 := rfl
    have hmin : 0x61 ≤ c.toNat := hlower.1
    have hmax : c.toNat ≤ 0x66 := hlower.2
    rw [hfirst]
    exact ⟨by omega, by omega, hmax⟩
  · cases hd
    have hfirst : 'A'.toNat = 0x41 := rfl
    have hmin : 0x41 ≤ c.toNat := hupper.1
    have hmax : c.toNat ≤ 0x46 := hupper.2
    rw [hfirst]
    exact ⟨by omega, by omega, by omega⟩

theorem byte?_eq_some_iff :
    byte? h l = some n ↔ ∃ x y, digit? h = some x ∧ digit? l = some y ∧ 16 * x + y = n := by
  unfold byte?
  cases digit? h <;> cases digit? l <;> simp

/-- A text that consists of digits is read to its end. -/
theorem digits_of_map (hcs : cs.map digit? = ds.map some) : digits cs = ds := by
  induction cs generalizing ds with
  | nil =>
    cases ds with
    | nil => rfl
    | cons d ds => cases hcs
  | cons c cs ih =>
    cases ds with
    | nil => cases hcs
    | cons d ds =>
      obtain ⟨hc, hcs⟩ := List.cons.inj hcs
      rw [digits, hc, ih hcs]

theorem exists_digit?_of_map (hcs : cs.map digit? = ds.map some) (hc : c ∈ cs) : ∃ d, digit? c = some d := by
  have hmem : digit? c ∈ ds.map some := hcs ▸ List.mem_map_of_mem hc
  obtain ⟨d, -, hd⟩ := List.mem_map.mp hmem
  exact ⟨d, hd.symm⟩

theorem lt_of_map (hcs : cs.map digit? = ds.map some) : ∀ d ∈ ds, d < 16 := by
  intro d hd
  have hmem : some d ∈ cs.map digit? := hcs ▸ List.mem_map_of_mem hd
  obtain ⟨c, -, hc⟩ := List.mem_map.mp hmem
  exact (digit?_bounds hc).1

theorem exists_map_digit? (h : ∀ c ∈ cs, digit? c ≠ none) : ∃ ds : List ℕ, cs.map digit? = ds.map some := by
  refine ⟨cs.map fun c => (digit? c).getD 0, ?_⟩
  rw [List.map_map]
  refine List.map_congr_left fun c hc => ?_
  obtain ⟨d, hd⟩ := Option.ne_none_iff_exists'.mp (h c hc)
  rw [Function.comp_apply, hd, Option.getD_some]

/-! ## Numbers -/

theorem number_lt (h : ∀ d ∈ ds, d < 16) : number ds < 16 ^ ds.length := by
  rw [number, ← ds.length_reverse]
  exact Nat.ofDigits_lt_base_pow_length (by decide) fun d hd => h d (List.mem_reverse.mp hd)

/-- Two digits anywhere in a number are one of its bytes. -/
theorem byte_of_number (pre post : List ℕ) {x y k : ℕ} (hx : x < 16) (hy : y < 16)
    (hpost : ∀ d ∈ post, d < 16) (hk : k = 4 * post.length) :
    number (pre ++ x :: y :: post) / 2 ^ k % 256 = 16 * x + y := by
  have hpow : 2 ^ k = 16 ^ post.length := by
    rw [hk, pow_mul]
    rfl
  have hreverse : (pre ++ x :: y :: post).reverse = post.reverse ++ (y :: x :: pre.reverse) := by simp
  have hlt : Nat.ofDigits 16 post.reverse < 16 ^ post.length := number_lt hpost
  rw [hpow, number, hreverse, Nat.ofDigits_append, List.length_reverse,
    Nat.add_mul_div_left _ _ (by positivity), Nat.div_eq_of_lt hlt, Nat.ofDigits_cons, Nat.ofDigits_cons]
  omega

/-- A byte of a number, cut out of the word that holds it and moved to the right. -/
theorem toNat_masked (pre post : List ℕ) {x y : ℕ} (hx : x < 16) (hy : y < 16)
    (hpost : ∀ d ∈ post, d < 16) {w : UInt64} (hw : w.toNat = number (pre ++ x :: y :: post))
    (mask shift : UInt64) (hmask : mask.toNat = 255 <<< shift.toNat)
    (hshift : shift.toNat = 4 * post.length) (hlt : shift.toNat < 64) :
    ((w &&& mask) >>> shift).toNat = 16 * x + y := by
  rw [UInt64.toNat_shiftRight, UInt64.toNat_and, hmask, Nat.mod_eq_of_lt hlt,
    Nat.shiftRight_and_distrib, Nat.shiftLeft_shiftRight, Nat.shiftRight_eq_div_pow, hw,
    ← byte_of_number pre post hx hy hpost hshift]
  exact Nat.and_two_pow_sub_one_eq_mod _ 8

/-- The last byte needs no move. -/
theorem toNat_masked_last (pre : List ℕ) {x y : ℕ} (hx : x < 16) (hy : y < 16) {w : UInt64}
    (hw : w.toNat = number (pre ++ [x, y])) : (w &&& 255).toNat = 16 * x + y := by
  have hmoved := toNat_masked pre [] hx hy (by simp) hw 255 0 rfl rfl (by decide)
  rwa [UInt64.shiftRight_zero] at hmoved

end Hexadecimal
