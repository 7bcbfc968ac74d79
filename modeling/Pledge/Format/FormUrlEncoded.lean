import Mathlib.Algebra.Order.Group.Nat
import Mathlib.Algebra.Order.Ring.Int
import Mathlib.Algebra.Order.BigOperators.Group.List

/-!
# application/x-www-form-urlencoded

Parsing a form body, and when a body that was put together without escaping its values
still parses to them.
-/

namespace FormUrlEncoded

abbrev Bytes : Type := List UInt8

def ampersand : UInt8 := 0x26
def equals : UInt8 := 0x3D
def plus : UInt8 := 0x2B
def percent : UInt8 := 0x25
def space : UInt8 := 0x20

def hexDigit? (b : UInt8) : Option UInt8 :=
  if 0x30 ≤ b ∧ b ≤ 0x39 then some (b - 0x30)
  else if 0x41 ≤ b ∧ b ≤ 0x46 then some (b - 0x37)
  else if 0x61 ≤ b ∧ b ≤ 0x66 then some (b - 0x57)
  else none

/-- The byte named by two hexadecimal digits. -/
def hexByte? (h l : UInt8) : Option UInt8 :=
  match hexDigit? h, hexDigit? l with
  | some x, some y => some (16 * x + y)
  | _, _ => none

/-- A plus sign stands for a space and `%HH` for the byte it names. -/
def decode : Bytes → Bytes
  | [] => []
  | b :: rest =>
    if b = percent then
      match rest with
      | h :: l :: rest' =>
        match hexByte? h l with
        | some x => x :: decode rest'
        | none => b :: decode (h :: l :: rest')
      | rest => b :: decode rest
    else (if b = plus then space else b) :: decode rest

/-- The name and the value of one sequence, parted at its first equals sign. -/
def pair (sequence : Bytes) : Bytes × Bytes :=
  (decode (sequence.takeWhile (· != equals)), decode ((sequence.dropWhile (· != equals)).drop 1))

def parse (body : Bytes) : List (Bytes × Bytes) :=
  ((body.splitOn ampersand).filter (· ≠ [])).map pair

/-- A body whose names and values are written as they are. -/
def join (pairs : List (Bytes × Bytes)) : Bytes :=
  [ampersand].intercalate (pairs.map fun p => p.1 ++ equals :: p.2)

/-- A name without any byte that has a meaning in a body. -/
def Name (k : Bytes) : Prop := ampersand ∉ k ∧ equals ∉ k ∧ plus ∉ k ∧ percent ∉ k

instance (k : Bytes) : Decidable (Name k) := inferInstanceAs (Decidable (_ ∧ _ ∧ _ ∧ _))

def Escaped (v : Bytes) : Prop :=
  ∃ a h l b, v = a ++ percent :: h :: l :: b ∧ hexByte? h l ≠ none

/-- Nothing in `v` has a meaning of its own. -/
structure Plain (v : Bytes) : Prop where
  ampersand : ampersand ∉ v
  plus : plus ∉ v
  escaped : ¬ Escaped v

theorem escaped_cons {b : UInt8} {v : Bytes} :
    Escaped (b :: v) ↔
      (b = percent ∧ ∃ h l r, v = h :: l :: r ∧ hexByte? h l ≠ none) ∨ Escaped v := by
  constructor
  · rintro ⟨a, h, l, r, hv, hx⟩
    cases a with
    | nil =>
      obtain ⟨rfl, rfl⟩ := List.cons.inj hv
      exact .inl ⟨rfl, h, l, r, rfl, hx⟩
    | cons a as =>
      obtain ⟨-, rfl⟩ := List.cons.inj hv
      exact .inr ⟨as, h, l, r, rfl, hx⟩
  · rintro (⟨rfl, h, l, r, rfl, hx⟩ | ⟨a, h, l, r, rfl, hx⟩)
    · exact ⟨[], h, l, r, rfl, hx⟩
    · exact ⟨b :: a, h, l, r, rfl, hx⟩

theorem not_escaped_of_not_mem {v : Bytes} (h : percent ∉ v) : ¬ Escaped v := by
  rintro ⟨a, _, _, b, rfl, -⟩
  simp at h

theorem decode_eq_self {v : Bytes} (hp : plus ∉ v) (he : ¬ Escaped v) : decode v = v := by
  fun_induction decode v with
  | case1 => rfl
  | case2 h l rest x hx ih =>
    exact absurd (escaped_cons.mpr (.inl ⟨rfl, h, l, rest, rfl, by simp [hx]⟩)) he
  | case3 h l rest hx ih =>
    rw [ih (fun hm => hp (by simp [hm])) (fun h' => he (escaped_cons.mpr (.inr h')))]
  | case4 rest h ih =>
    rw [ih (fun hm => hp (by simp [hm])) (fun h' => he (escaped_cons.mpr (.inr h')))]
  | case5 b rest hb ih =>
    have hne : b ≠ plus := by
      rintro rfl
      simp at hp
    rw [if_neg hne, ih (fun hm => hp (by simp [hm])) (fun h' => he (escaped_cons.mpr (.inr h')))]

/-! ## Weight -/

/-- Decoding never adds weight, and loses some wherever it changes anything. -/
def weight (v : Bytes) : ℕ := v.length + v.count plus

theorem weight_cons (b : UInt8) (v : Bytes) :
    weight (b :: v) = weight v + 1 + if b = plus then 1 else 0 := by
  by_cases h : b = plus <;> simp [weight, h] <;> omega

theorem weight_append (a b : Bytes) : weight (a ++ b) = weight a + weight b := by
  simp [weight]
  omega

theorem weight_decode_le (v : Bytes) : weight (decode v) ≤ weight v := by
  fun_induction decode v with
  | case1 => rfl
  | case2 h l rest x hx ih =>
    simp only [weight_cons]
    split <;> split <;> omega
  | case3 h l rest hx ih | case4 rest h ih =>
    simp only [weight_cons] at ih ⊢
    omega
  | case5 b rest hb ih =>
    by_cases hp : b = plus
    · simp only [hp, if_true, weight_cons]
      split <;> omega
    · simp only [hp, if_false, weight_cons]
      omega

theorem weight_decode_lt {v : Bytes} (h : plus ∈ v ∨ Escaped v) : weight (decode v) < weight v := by
  fun_induction decode v with
  | case1 =>
    rcases h with h | ⟨a, _, _, b, h, -⟩
    · cases h
    · simp at h
  | case2 h l rest x hx ih =>
    have hle := weight_decode_le rest
    simp only [weight_cons]
    split <;> split <;> omega
  | case3 h' l rest hx ih =>
    have hrest : plus ∈ h' :: l :: rest ∨ Escaped (h' :: l :: rest) := by
      rcases h with h | h
      · exact .inl ((List.mem_cons.mp h).resolve_left (by decide))
      · refine .inr ((escaped_cons.mp h).resolve_left ?_)
        rintro ⟨-, _, _, _, he, hn⟩
        obtain ⟨rfl, rfl, -⟩ := by simpa using he
        exact hn hx
    have := ih hrest
    simp only [weight_cons] at this ⊢
    omega
  | case4 rest hshort ih =>
    have hrest : plus ∈ rest ∨ Escaped rest := by
      rcases h with h | h
      · exact .inl ((List.mem_cons.mp h).resolve_left (by decide))
      · refine .inr ((escaped_cons.mp h).resolve_left ?_)
        rintro ⟨-, x, y, r, he, -⟩
        exact hshort x y r he
    have := ih hrest
    simp only [weight_cons]
    omega
  | case5 b rest hb ih =>
    by_cases hp : b = plus
    · have hle := weight_decode_le rest
      have hs : space ≠ plus := by decide
      simp only [hp, if_true, weight_cons, if_neg hs]
      omega
    · have hrest : plus ∈ rest ∨ Escaped rest := by
        rcases h with h | h
        · exact .inl ((List.mem_cons.mp h).resolve_left (Ne.symm hp))
        · exact .inr ((escaped_cons.mp h).resolve_left fun h' => hb h'.1)
      have := ih hrest
      simp only [hp, if_false, weight_cons]
      omega

/-! ## Sequences -/

theorem parse_append (a b : Bytes) : parse (a ++ ampersand :: b) = parse a ++ parse b := by
  rw [parse, List.splitOn_append_cons_self, List.filter_append, List.map_append]
  rfl

theorem parse_of_not_mem {v : Bytes} (h : ampersand ∉ v) (hne : v ≠ []) : parse v = [pair v] := by
  rw [parse, List.splitOn_eq_singleton h]
  simp [hne]

theorem parse_intercalate (l : List Bytes) : parse ([ampersand].intercalate l) = l.flatMap parse := by
  induction l with
  | nil => rfl
  | cons a l ih =>
    cases l with
    | nil => simp
    | cons b l =>
      rw [List.intercalate_cons_cons, List.append_assoc, List.singleton_append, parse_append, ih]
      rfl

def totalWeight (pairs : List (Bytes × Bytes)) : ℕ :=
  (pairs.map fun p => weight p.1 + weight p.2).sum

theorem totalWeight_append (l l' : List (Bytes × Bytes)) :
    totalWeight (l ++ l') = totalWeight l + totalWeight l' := by
  simp [totalWeight]

theorem totalWeight_flatMap {α : Type} (f : α → List (Bytes × Bytes)) (l : List α) :
    totalWeight (l.flatMap f) = (l.map fun a => totalWeight (f a)).sum := by
  induction l with
  | nil => rfl
  | cons a l ih => rw [List.flatMap_cons, totalWeight_append, ih, List.map_cons, List.sum_cons]

theorem totalWeight_pair_le (v : Bytes) : totalWeight [pair v] ≤ weight v := by
  have hname := weight_decode_le (v.takeWhile (· != equals))
  have hvalue := weight_decode_le ((v.dropWhile (· != equals)).drop 1)
  have hdrop : weight ((v.dropWhile (· != equals)).drop 1) ≤ weight (v.dropWhile (· != equals)) := by
    cases v.dropWhile (· != equals) with
    | nil => exact le_rfl
    | cons b rest =>
      rw [List.drop_one, List.tail_cons, weight_cons]
      omega
  have hv : weight v = weight (v.takeWhile (· != equals)) + weight (v.dropWhile (· != equals)) := by
    rw [← weight_append, List.takeWhile_append_dropWhile]
  simp only [totalWeight, pair, List.map_cons, List.map_nil, List.sum_cons, List.sum_nil]
  omega

theorem totalWeight_parse_le (v : Bytes) : totalWeight (parse v) ≤ weight v := by
  induction hn : v.length using Nat.strong_induction_on generalizing v with
  | _ n ih =>
    by_cases hv : ampersand ∈ v
    · obtain ⟨a, b, rfl⟩ := List.append_of_mem hv
      simp only [List.length_append, List.length_cons] at hn
      have ha := ih a.length (by omega) a rfl
      have hb := ih b.length (by omega) b rfl
      rw [parse_append, totalWeight_append, weight_append, weight_cons]
      omega
    · by_cases hne : v = []
      · rw [hne]
        exact Nat.zero_le _
      · rw [parse_of_not_mem hv hne]
        exact totalWeight_pair_le v

/-! ## Names and values -/

section Item

variable {k v : Bytes}

theorem pair_item (hk : Name k) (v : Bytes) : pair (k ++ equals :: v) = (k, decode v) := by
  obtain ⟨-, heq, hplus, hpercent⟩ := hk
  have hall : ∀ b ∈ k, (b != equals) = true := by
    intro b hb
    simpa using ne_of_mem_of_not_mem hb heq
  rw [pair, List.takeWhile_append_of_pos hall, List.dropWhile_append_of_pos hall]
  simp [decode_eq_self hplus (not_escaped_of_not_mem hpercent)]

theorem parse_item (hk : Name k) (hv : ampersand ∉ v) :
    parse (k ++ equals :: v) = [(k, decode v)] := by
  have hmem : ampersand ∉ k ++ equals :: v := by
    have hne : ampersand ≠ equals := by decide
    simp [hk.1, hv, hne]
  rw [parse_of_not_mem hmem (by simp), pair_item hk]

theorem parse_item_of_plain (hk : Name k) (hv : Plain v) : parse (k ++ equals :: v) = [(k, v)] := by
  rw [parse_item hk hv.ampersand, decode_eq_self hv.plus hv.escaped]

theorem totalWeight_item_le (hk : Name k) (v : Bytes) :
    totalWeight (parse (k ++ equals :: v)) ≤ weight k + weight v := by
  by_cases hv : ampersand ∈ v
  · obtain ⟨a, b, rfl, ha⟩ := List.eq_append_cons_of_mem hv
    have hrest := totalWeight_parse_le b
    have hdecode := weight_decode_le a
    rw [← List.cons_append, ← List.append_assoc, parse_append, parse_item hk ha, totalWeight_append,
      weight_append, weight_cons]
    simp only [totalWeight, List.map_cons, List.map_nil, List.sum_cons, List.sum_nil] at hrest ⊢
    omega
  · have hdecode := weight_decode_le v
    rw [parse_item hk hv]
    simpa [totalWeight] using hdecode

theorem totalWeight_item_lt (hk : Name k) (hv : ¬ Plain v) :
    totalWeight (parse (k ++ equals :: v)) < weight k + weight v := by
  by_cases hamp : ampersand ∈ v
  · obtain ⟨a, b, rfl, ha⟩ := List.eq_append_cons_of_mem hamp
    have hitem := totalWeight_item_le hk a
    have hrest := totalWeight_parse_le b
    rw [← List.cons_append, ← List.append_assoc, parse_append, totalWeight_append, weight_append,
      weight_cons]
    omega
  · have hbad : plus ∈ v ∨ Escaped v := by
      by_contra hgood
      rw [not_or] at hgood
      exact hv ⟨hamp, hgood.1, not_not.mp fun h => h hgood.2⟩
    have hdecode := weight_decode_lt hbad
    rw [parse_item hk hamp]
    simpa [totalWeight] using hdecode

end Item

theorem parse_join_eq (pairs : List (Bytes × Bytes)) :
    parse (join pairs) = pairs.flatMap fun p => parse (p.1 ++ equals :: p.2) := by
  rw [join, parse_intercalate, List.flatMap_map]

/-- A body joined without escaping parses to what it was joined from exactly when no value
holds anything that would have needed escaping. -/
theorem parse_join_perm_iff {pairs : List (Bytes × Bytes)} (hk : ∀ p ∈ pairs, Name p.1) :
    (parse (join pairs)).Perm pairs ↔ ∀ p ∈ pairs, Plain p.2 := by
  constructor
  · intro hperm p hp
    by_contra hv
    have hsum : totalWeight (parse (join pairs)) = totalWeight pairs := (hperm.map _).sum_eq
    rw [parse_join_eq, totalWeight_flatMap] at hsum
    exact absurd hsum (List.sum_lt_sum _ _ (fun q hq => totalWeight_item_le (hk q hq) q.2)
      ⟨p, hp, totalWeight_item_lt (hk p hp) hv⟩).ne
  · intro hv
    have hitem : ∀ p ∈ pairs, parse (p.1 ++ equals :: p.2) = [p] :=
      fun p hp => parse_item_of_plain (hk p hp) (hv p hp)
    rw [parse_join_eq, List.flatMap_congr hitem]
    simp

example : decode [0x61, 0x25, 0x32, 0x42] = [0x61, 0x2B] := by decide
example : parse [0x61, 0x3D, 0x62, 0x26, 0x26, 0x63] = [([0x61], [0x62]), ([0x63], [])] := by decide

/-! ## Text -/

/-- The UTF-8 bytes of a string. -/
def utf8 (s : String) : Bytes := s.toList.flatMap String.utf8EncodeChar

theorem utf8_append (s t : String) : utf8 (s ++ t) = utf8 s ++ utf8 t := by
  simp [utf8]

theorem utf8_intercalate (s : String) (l : List String) :
    utf8 (s.intercalate l) = (utf8 s).intercalate (l.map utf8) := by
  induction l with
  | nil => simp [utf8]
  | cons a l ih =>
    cases l with
    | nil => simp
    | cons b l =>
      simp only [List.map_cons] at ih ⊢
      rw [String.intercalate_cons_cons, utf8_append, utf8_append, ih, List.intercalate_cons_cons]

/-- No byte of the character means anything in a body. -/
def PlainChar (c : Char) : Prop :=
  ampersand ∉ String.utf8EncodeChar c ∧ plus ∉ String.utf8EncodeChar c ∧
    percent ∉ String.utf8EncodeChar c

instance (c : Char) : Decidable (PlainChar c) := inferInstanceAs (Decidable (_ ∧ _ ∧ _))

theorem plain_utf8 {s : String} (h : ∀ c ∈ s.toList, PlainChar c) : Plain (utf8 s) := by
  refine ⟨fun hm => ?_, fun hm => ?_, not_escaped_of_not_mem fun hm => ?_⟩ <;>
    obtain ⟨c, hc, hb⟩ := List.mem_flatMap.mp hm
  · exact (h c hc).1 hb
  · exact (h c hc).2.1 hb
  · exact (h c hc).2.2 hb

theorem toNat_of_mem_utf8EncodeChar {c : Char} {b : UInt8} (hc : c.val ≤ 127)
    (hb : b ∈ String.utf8EncodeChar c) : c.toNat = b.toNat := by
  rw [String.utf8EncodeChar_eq_singleton (Char.utf8Size_eq_one_iff.mpr hc),
    List.mem_singleton] at hb
  have hlt : c.val.toNat ≤ 127 := hc
  rw [hb, UInt32.toNat_toUInt8, Nat.mod_eq_of_lt (by omega)]
  rfl

theorem plainChar_of_isAlphanum {c : Char} (h : c.isAlphanum = true) : PlainChar c := by
  have hc : 48 ≤ c.toNat ∧ c.val ≤ 127 := by
    unfold Char.isAlphanum Char.isAlpha Char.isUpper Char.isLower Char.isDigit at h
    simp only [Bool.or_eq_true, Bool.and_eq_true, decide_eq_true_eq, ge_iff_le,
      UInt32.le_iff_toNat_le, Char.reduceVal, UInt32.reduceToNat] at h
    simp only [UInt32.le_iff_toNat_le, UInt32.reduceToNat, Char.toNat]
    omega
  refine ⟨fun hb => ?_, fun hb => ?_, fun hb => ?_⟩ <;>
    have := toNat_of_mem_utf8EncodeChar hc.2 hb
  · simp [ampersand] at this
    omega
  · simp [plus] at this
    omega
  · simp [percent] at this
    omega

end FormUrlEncoded
