import Pledge.Format.Hexadecimal
import Pledge.Model

/-!
# UIColor

`UIColor(hexString:)` reads the colours of filters. It tests the length of the text, but takes the
number from a scanner that may stop before its end.
-/

namespace Pledge

open Hexadecimal

/-! ## Texts and scanners -/

/-- How a text splits into the characters that `count` counts. Printable ASCII does not combine. -/
structure Graphemes where
  characters : List Char → List (List Char)
  flatten_characters : ∀ text, (characters text).flatten = text
  characters_ascii : ∀ text : List Char, (∀ c ∈ text, 0x20 ≤ c.toNat ∧ c.toNat ≤ 0x7E) →
    characters text = text.map fun c => [c]

/-- Each scalar on its own, as where nothing combines. -/
def Graphemes.scalars : Graphemes where
  characters text := text.map fun c => [c]
  flatten_characters text := by induction text <;> simp_all
  characters_ascii _ _ := rfl

namespace Scanner

/-- What `whitespacesAndNewlines` contains. -/
def skips (c : Char) : Bool :=
  c.toNat ∈ [0x09, 0x0A, 0x0B, 0x0C, 0x0D, 0x20, 0x85, 0xA0, 0x1680, 0x2028, 0x2029, 0x202F, 0x205F, 0x3000] ||
    (0x2000 ≤ c.toNat && c.toNat ≤ 0x200A)

/-- What follows a `0x`. -/
def afterMarker? : List Char → Option (List Char)
  | zero :: x :: text => if zero = '0' ∧ (x = 'x' ∨ x = 'X') then some text else none
  | _ => none

/-- The digits that are read after white space and one `0x`. A `0x` without digits may be read as
its zero; `bare` says whether it is. -/
def digitsRead (bare : Bool) (text : List Char) : List ℕ :=
  match afterMarker? (text.dropWhile skips) with
  | some text => if bare ∧ digits text = [] then [0] else digits text
  | none => digits (text.dropWhile skips)

/-- `scanHexInt64`, which reads the largest number where it overflows. -/
def scanHexInt64 (bare : Bool) (text : List Char) : Option UInt64 :=
  match digitsRead bare text with
  | [] => none
  | d :: ds => some (UInt64.ofNat (min (number (d :: ds)) (2 ^ 64 - 1)))

variable {bare : Bool} {c : Char} {cs : List Char} {d : ℕ} {ds : List ℕ}

theorem scanHexInt64_isSome_iff : (scanHexInt64 bare cs).isSome ↔ digitsRead bare cs ≠ [] := by
  unfold scanHexInt64
  split <;> simp_all

theorem skips_of_digit? (hd : digit? c = some d) : skips c = false := by
  obtain ⟨-, hmin, hmax⟩ := digit?_bounds hd
  simp only [skips, List.mem_cons, List.not_mem_nil, or_false, Bool.or_eq_false_iff,
    Bool.and_eq_false_iff, decide_eq_false_iff_not]
  omega

/-- A text of digits has no white space and no `0x` to skip. -/
theorem digitsRead_of_map (hcs : cs.map digit? = ds.map some) : digitsRead bare cs = ds := by
  have hskip : cs.dropWhile skips = cs := by
    cases cs with
    | nil => rfl
    | cons c cs =>
      obtain ⟨d, hd⟩ := exists_digit?_of_map hcs List.mem_cons_self
      rw [List.dropWhile_cons_of_neg (by simp [skips_of_digit? hd])]
  have hmarker : afterMarker? cs = none := by
    unfold afterMarker?
    split
    · rename_i zero x text
      obtain ⟨d, hd⟩ := exists_digit?_of_map hcs (List.mem_cons_of_mem zero List.mem_cons_self)
      rw [if_neg]
      rintro ⟨-, rfl | rfl⟩
      · cases hd
      · cases hd
    · rfl
  rw [digitsRead, hskip, hmarker]
  exact digits_of_map hcs

theorem scanHexInt64_of_map (hcs : cs.map digit? = ds.map some) (hne : ds ≠ []) (hlength : ds.length ≤ 8) :
    ∃ hexNumber, scanHexInt64 bare cs = some hexNumber ∧ hexNumber.toNat = number ds := by
  have hlt : number ds < 2 ^ 64 - 1 := by
    calc number ds < 16 ^ ds.length := number_lt (lt_of_map hcs)
      _ ≤ 16 ^ 8 := Nat.pow_le_pow_right (by decide) hlength
      _ ≤ 2 ^ 64 - 1 := by decide
  obtain ⟨d, ds, rfl⟩ := List.exists_cons_of_ne_nil hne
  refine ⟨_, by rw [scanHexInt64, digitsRead_of_map hcs], ?_⟩
  rw [Nat.min_eq_left hlt.le, UInt64.toNat_ofNat']
  exact Nat.mod_eq_of_lt (by omega)

end Scanner

/-! ## The colour of a text -/

structure UIColor (CGFloat : Type) where
  red : CGFloat
  green : CGFloat
  blue : CGFloat
  alpha : CGFloat
deriving DecidableEq, Repr

namespace UIColor

variable {CGFloat : Type} [NatCast CGFloat] [Div CGFloat]

/-- `CGFloat(n) / 255`. -/
def fraction (n : ℕ) : CGFloat := (n : CGFloat) / ((255 : ℕ) : CGFloat)

/-- The closure of `getrgbaData`, for the number that was scanned in a text of `count` characters. -/
def components (count : ℕ) (hexNumber : UInt64) : Option (CGFloat × CGFloat × CGFloat × CGFloat) :=
  match count with
  | 8 => some (fraction ((hexNumber &&& 0xff000000) >>> 24).toNat,
      fraction ((hexNumber &&& 0x00ff0000) >>> 16).toNat,
      fraction ((hexNumber &&& 0x0000ff00) >>> 8).toNat,
      fraction (hexNumber &&& 0x000000ff).toNat)
  | 6 => some (fraction ((hexNumber &&& 0xff0000) >>> 16).toNat,
      fraction ((hexNumber &&& 0x00ff00) >>> 8).toNat,
      fraction (hexNumber &&& 0x0000ff).toNat,
      ((1 : ℕ) : CGFloat))
  | _ => none

section Text

variable (g : Graphemes) (bare : Bool)

/-- `hasPrefix("#")`. -/
def hasPrefix (hexString : String) : Bool := (g.characters hexString.toList).head? == some ['#']

/-- All characters but the first. -/
def hexColor (hexString : String) : List Char := (g.characters hexString.toList).tail.flatten

def getrgbaData (hexString : String) : Option (CGFloat × CGFloat × CGFloat × CGFloat) :=
  if hasPrefix g hexString then
    (Scanner.scanHexInt64 bare (hexColor g hexString)).bind
      (components (g.characters (hexColor g hexString)).length)
  else none

/-- `UIColor(hexString:)`. -/
def init? (hexString : String) : Option (UIColor CGFloat) :=
  (getrgbaData g bare hexString).map fun rgbaData =>
    { red := rgbaData.1, green := rgbaData.2.1, blue := rgbaData.2.2.1, alpha := rgbaData.2.2.2 }

end Text

/-- `#RRGGBB` and `#RRGGBBAA`, two digits for each component. -/
inductive Denotes : List Char → UIColor CGFloat → Prop
  | rgb {r r' g g' b b' : Char} {red green blue : ℕ} (hr : byte? r r' = some red)
      (hg : byte? g g' = some green) (hb : byte? b b' = some blue) :
      Denotes ['#', r, r', g, g', b, b']
        { red := fraction red, green := fraction green, blue := fraction blue, alpha := ((1 : ℕ) : CGFloat) }
  | rgba {r r' g g' b b' a a' : Char} {red green blue alpha : ℕ} (hr : byte? r r' = some red)
      (hg : byte? g g' = some green) (hb : byte? b b' = some blue) (ha : byte? a a' = some alpha) :
      Denotes ['#', r, r', g, g', b, b', a, a']
        { red := fraction red, green := fraction green, blue := fraction blue, alpha := fraction alpha }

/-! ## Texts of digits -/

section Digits

variable {g : Graphemes} {bare : Bool} {hexString : String} {cs : List Char} {ds : List ℕ}

/-- A mark and digits are characters of their own. -/
theorem characters_of_map (hcs : cs.map digit? = ds.map some) :
    g.characters cs = cs.map (fun c => [c]) ∧ g.characters ('#' :: cs) = ['#'] :: cs.map fun c => [c] := by
  have hascii : ∀ c ∈ cs, 0x20 ≤ c.toNat ∧ c.toNat ≤ 0x7E := by
    intro c hc
    obtain ⟨d, hd⟩ := exists_digit?_of_map hcs hc
    obtain ⟨-, hmin, hmax⟩ := digit?_bounds hd
    omega
  exact ⟨g.characters_ascii cs hascii,
    g.characters_ascii ('#' :: cs) (List.forall_mem_cons.mpr ⟨by decide, hascii⟩)⟩

/-- What is read of a mark and digits. -/
theorem getrgbaData_of_map (htext : hexString.toList = '#' :: cs) (hcs : cs.map digit? = ds.map some)
    (hne : ds ≠ []) (hlength : ds.length ≤ 8) :
    ∃ hexNumber : UInt64, hexNumber.toNat = number ds ∧
      (getrgbaData g bare hexString : Option (CGFloat × CGFloat × CGFloat × CGFloat)) =
        components ds.length hexNumber := by
  obtain ⟨hdigits, hmarked⟩ := @characters_of_map g cs ds hcs
  obtain ⟨hexNumber, hscan, hnumber⟩ := @Scanner.scanHexInt64_of_map bare cs ds hcs hne hlength
  have hmark : hasPrefix g hexString = true := by
    rw [hasPrefix, htext, hmarked]
    rfl
  have hcolor : hexColor g hexString = cs := by
    rw [hexColor, htext, hmarked, List.tail_cons, ← hdigits, g.flatten_characters]
  have hcount : (g.characters cs).length = ds.length := by
    have hmap := congrArg List.length hcs
    rw [List.length_map, List.length_map] at hmap
    rw [hdigits, List.length_map, hmap]
  refine ⟨hexNumber, hnumber, ?_⟩
  rw [getrgbaData, if_pos hmark, hcolor, hscan, hcount]
  rfl

theorem components_six {x₁ y₁ x₂ y₂ x₃ y₃ : ℕ} (hds : ∀ d ∈ [x₁, y₁, x₂, y₂, x₃, y₃], d < 16)
    {hexNumber : UInt64} (hn : hexNumber.toNat = number [x₁, y₁, x₂, y₂, x₃, y₃]) :
    (components 6 hexNumber : Option (CGFloat × CGFloat × CGFloat × CGFloat)) =
      some (fraction (16 * x₁ + y₁), fraction (16 * x₂ + y₂), fraction (16 * x₃ + y₃), ((1 : ℕ) : CGFloat)) := by
  simp only [List.forall_mem_cons, List.not_mem_nil, false_implies, implies_true, and_true] at hds
  obtain ⟨hx₁, hy₁, hx₂, hy₂, hx₃, hy₃⟩ := hds
  have hred := toNat_masked [] [x₂, y₂, x₃, y₃] hx₁ hy₁ (by simp [*]) hn 0xff0000 16
    rfl rfl (by decide)
  have hgreen := toNat_masked [x₁, y₁] [x₃, y₃] hx₂ hy₂ (by simp [*]) hn 0x00ff00 8
    rfl rfl (by decide)
  have hblue := toNat_masked_last [x₁, y₁, x₂, y₂] hx₃ hy₃ hn
  rw [components, hred, hgreen, hblue]

theorem components_eight {x₁ y₁ x₂ y₂ x₃ y₃ x₄ y₄ : ℕ}
    (hds : ∀ d ∈ [x₁, y₁, x₂, y₂, x₃, y₃, x₄, y₄], d < 16)
    {hexNumber : UInt64} (hn : hexNumber.toNat = number [x₁, y₁, x₂, y₂, x₃, y₃, x₄, y₄]) :
    (components 8 hexNumber : Option (CGFloat × CGFloat × CGFloat × CGFloat)) =
      some (fraction (16 * x₁ + y₁), fraction (16 * x₂ + y₂), fraction (16 * x₃ + y₃),
        fraction (16 * x₄ + y₄)) := by
  simp only [List.forall_mem_cons, List.not_mem_nil, false_implies, implies_true, and_true] at hds
  obtain ⟨hx₁, hy₁, hx₂, hy₂, hx₃, hy₃, hx₄, hy₄⟩ := hds
  have hred := toNat_masked [] [x₂, y₂, x₃, y₃, x₄, y₄] hx₁ hy₁ (by simp [*]) hn 0xff000000 24
    rfl rfl (by decide)
  have hgreen := toNat_masked [x₁, y₁] [x₃, y₃, x₄, y₄] hx₂ hy₂ (by simp [*]) hn 0x00ff0000 16
    rfl rfl (by decide)
  have hblue := toNat_masked [x₁, y₁, x₂, y₂] [x₄, y₄] hx₃ hy₃ (by simp [*]) hn 0x0000ff00 8
    rfl rfl (by decide)
  have halpha := toNat_masked_last [x₁, y₁, x₂, y₂, x₃, y₃] hx₄ hy₄ hn
  rw [components, hred, hgreen, hblue, halpha]

end Digits

/-! ## What is accepted -/

/-- Where the scanner reads anything, a marked text of one of the two lengths consists of digits. -/
def ReadsWhole (g : Graphemes) (bare : Bool) (hexString : String) : Prop :=
  hasPrefix g hexString → (g.characters (hexColor g hexString)).length ∈ [6, 8] →
    Scanner.digitsRead bare (hexColor g hexString) ≠ [] → ∀ c ∈ hexColor g hexString, digit? c ≠ none

section Grammar

variable {g : Graphemes} {bare : Bool} {hexString : String} {text cs : List Char} {n : ℕ}
  {color : UIColor CGFloat}

theorem toList_of_hasPrefix (h : hasPrefix g hexString) : hexString.toList = '#' :: hexColor g hexString := by
  have hhead : (g.characters hexString.toList).head? = some ['#'] := beq_iff_eq.mp h
  obtain ⟨rest, hrest⟩ := List.head?_eq_some_iff.mp hhead
  have hflatten := g.flatten_characters hexString.toList
  rw [hrest, List.flatten_cons] at hflatten
  rw [hexColor, hrest, List.tail_cons]
  exact hflatten.symm

theorem components_isSome_iff {count : ℕ} {hexNumber : UInt64} :
    (components count hexNumber : Option (CGFloat × CGFloat × CGFloat × CGFloat)).isSome ↔ count ∈ [6, 8] := by
  unfold components
  split <;> simp_all

/-- What the code accepts. -/
theorem init?_isSome_iff : (init? g bare hexString : Option (UIColor CGFloat)).isSome ↔
    hasPrefix g hexString ∧ (g.characters (hexColor g hexString)).length ∈ [6, 8] ∧
      Scanner.digitsRead bare (hexColor g hexString) ≠ [] := by
  rw [init?, Option.isSome_map, getrgbaData]
  by_cases hmark : hasPrefix g hexString = true
  · rw [if_pos hmark, ← Scanner.scanHexInt64_isSome_iff]
    cases hscan : Scanner.scanHexInt64 bare (hexColor g hexString) with
    | none => simp
    | some hexNumber =>
      rw [Option.bind_some, components_isSome_iff]
      simp [hmark]
  · rw [if_neg hmark]
    simp [hmark]

/-! ## What the grammar has -/

/-- The digits of a text in the grammar, and the components that their number has. -/
theorem components_of_denotes (h : Denotes text color) :
    ∃ cs ds, text = '#' :: cs ∧ cs.map digit? = ds.map some ∧ ds ≠ [] ∧ ds.length ≤ 8 ∧
      ∀ hexNumber : UInt64, hexNumber.toNat = number ds →
        components ds.length hexNumber = some (color.red, color.green, color.blue, color.alpha) := by
  cases h with
  | rgb hr hg hb =>
    obtain ⟨x₁, y₁, hx₁, hy₁, rfl⟩ := byte?_eq_some_iff.mp hr
    obtain ⟨x₂, y₂, hx₂, hy₂, rfl⟩ := byte?_eq_some_iff.mp hg
    obtain ⟨x₃, y₃, hx₃, hy₃, rfl⟩ := byte?_eq_some_iff.mp hb
    refine ⟨_, [x₁, y₁, x₂, y₂, x₃, y₃], rfl, ?hcs, List.cons_ne_nil _ _, by simp, fun hexNumber hn => ?_⟩
    case hcs => simp [hx₁, hy₁, hx₂, hy₂, hx₃, hy₃]
    refine components_six ?_ hn
    simp [digit?_bounds hx₁, digit?_bounds hy₁, digit?_bounds hx₂, digit?_bounds hy₂, digit?_bounds hx₃,
      digit?_bounds hy₃]
  | rgba hr hg hb ha =>
    obtain ⟨x₁, y₁, hx₁, hy₁, rfl⟩ := byte?_eq_some_iff.mp hr
    obtain ⟨x₂, y₂, hx₂, hy₂, rfl⟩ := byte?_eq_some_iff.mp hg
    obtain ⟨x₃, y₃, hx₃, hy₃, rfl⟩ := byte?_eq_some_iff.mp hb
    obtain ⟨x₄, y₄, hx₄, hy₄, rfl⟩ := byte?_eq_some_iff.mp ha
    refine ⟨_, [x₁, y₁, x₂, y₂, x₃, y₃, x₄, y₄], rfl, ?hcs, List.cons_ne_nil _ _, by simp,
      fun hexNumber hn => ?_⟩
    case hcs => simp [hx₁, hy₁, hx₂, hy₂, hx₃, hy₃, hx₄, hy₄]
    refine components_eight ?_ hn
    simp [digit?_bounds hx₁, digit?_bounds hy₁, digit?_bounds hx₂, digit?_bounds hy₂, digit?_bounds hx₃,
      digit?_bounds hy₃, digit?_bounds hx₄, digit?_bounds hy₄]

theorem digits_of_denotes (h : Denotes text color) : ∃ cs, text = '#' :: cs ∧ ∀ c ∈ cs, digit? c ≠ none := by
  obtain ⟨cs, ds, htext, hcs, -⟩ := components_of_denotes h
  refine ⟨cs, htext, fun c hc => ?_⟩
  obtain ⟨d, hd⟩ := exists_digit?_of_map hcs hc
  rw [hd]
  exact Option.some_ne_none d

/-- Two more digits are one more byte. -/
theorem exists_byte? (hdigits : ∀ c ∈ cs, digit? c ≠ none) (hlength : cs.length = n + 2) :
    ∃ h l rest value, cs = h :: l :: rest ∧ byte? h l = some value ∧
      (∀ c ∈ rest, digit? c ≠ none) ∧ rest.length = n := by
  obtain ⟨h, rest, rfl⟩ := List.exists_cons_of_length_eq_add_one hlength
  obtain ⟨l, rest, rfl⟩ := List.exists_cons_of_length_eq_add_one (Nat.succ.inj hlength)
  obtain ⟨hh, hdigits⟩ := List.forall_mem_cons.mp hdigits
  obtain ⟨hl, hdigits⟩ := List.forall_mem_cons.mp hdigits
  obtain ⟨x, hx⟩ := Option.ne_none_iff_exists'.mp hh
  obtain ⟨y, hy⟩ := Option.ne_none_iff_exists'.mp hl
  exact ⟨h, l, rest, _, rfl, byte?_eq_some_iff.mpr ⟨x, y, hx, hy, rfl⟩, hdigits,
    Nat.succ.inj (Nat.succ.inj hlength)⟩

theorem exists_denotes (hdigits : ∀ c ∈ cs, digit? c ≠ none) (hlength : cs.length ∈ [6, 8]) :
    ∃ color : UIColor CGFloat, Denotes ('#' :: cs) color := by
  have hcases : cs.length = 6 ∨ cs.length = 8 := by simpa using hlength
  rcases hcases with hlength | hlength
  · obtain ⟨r, r', cs, red, rfl, hr, hdigits, hlength⟩ := exists_byte? hdigits hlength
    obtain ⟨g, g', cs, green, rfl, hg, hdigits, hlength⟩ := exists_byte? hdigits hlength
    obtain ⟨b, b', cs, blue, rfl, hb, -, hlength⟩ := exists_byte? hdigits hlength
    obtain rfl := List.eq_nil_of_length_eq_zero hlength
    exact ⟨_, .rgb hr hg hb⟩
  · obtain ⟨r, r', cs, red, rfl, hr, hdigits, hlength⟩ := exists_byte? hdigits hlength
    obtain ⟨g, g', cs, green, rfl, hg, hdigits, hlength⟩ := exists_byte? hdigits hlength
    obtain ⟨b, b', cs, blue, rfl, hb, hdigits, hlength⟩ := exists_byte? hdigits hlength
    obtain ⟨a, a', cs, alpha, rfl, ha, -, hlength⟩ := exists_byte? hdigits hlength
    obtain rfl := List.eq_nil_of_length_eq_zero hlength
    exact ⟨_, .rgba hr hg hb ha⟩

/-- What the grammar has is read, and read as it says. -/
theorem init?_of_denotes (h : Denotes hexString.toList color) : init? g bare hexString = some color := by
  obtain ⟨cs, ds, htext, hcs, hne, hlength, hcomponents⟩ := components_of_denotes h
  obtain ⟨hexNumber, hnumber, hread⟩ :=
    @getrgbaData_of_map CGFloat _ _ g bare hexString cs ds htext hcs hne hlength
  rw [init?, hread, hcomponents hexNumber hnumber]
  rfl

/-- Read to its end, a text is accepted exactly when it is in the grammar. -/
theorem init?_eq_some_iff (h : ReadsWhole g bare hexString) :
    init? g bare hexString = some color ↔ Denotes hexString.toList color := by
  refine ⟨fun hinit => ?_, init?_of_denotes⟩
  have haccepts : (init? g bare hexString : Option (UIColor CGFloat)).isSome := by simp [hinit]
  obtain ⟨hmark, hcount, hread⟩ := init?_isSome_iff.mp haccepts
  have hdigits := h hmark hcount hread
  obtain ⟨ds, hds⟩ := exists_map_digit? hdigits
  rw [(@characters_of_map g _ _ hds).1, List.length_map] at hcount
  obtain ⟨color', hdenotes⟩ := @exists_denotes CGFloat _ _ _ hdigits hcount
  rw [← toList_of_hasPrefix hmark] at hdenotes
  have hsame : some color' = some color := (init?_of_denotes hdenotes).symm.trans hinit
  exact Option.some.inj hsame ▸ hdenotes

/-- The parser accepts its grammar, and nothing else, exactly on the texts that are read to their end
where they are read at all. -/
theorem accepts_grammar_iff :
    (∀ color : UIColor CGFloat, init? g bare hexString = some color ↔ Denotes hexString.toList color) ↔
      ReadsWhole g bare hexString := by
  refine ⟨fun h hmark hcount hread => ?_, fun h color => init?_eq_some_iff h⟩
  obtain ⟨color, hinit⟩ := Option.isSome_iff_exists.mp
    (init?_isSome_iff.mpr ⟨hmark, hcount, hread⟩ : (init? g bare hexString : Option (UIColor CGFloat)).isSome)
  obtain ⟨cs, hcs, hdigits⟩ := digits_of_denotes ((h color).mp hinit)
  obtain ⟨-, rfl⟩ := List.cons.inj ((toList_of_hasPrefix hmark).symm.trans hcs)
  exact hdigits

end Grammar

/-- The scanner stops before the last character, which is no digit. -/
theorem not_accepts_grammar :
    ¬ ∀ (g : Graphemes) (bare : Bool) (hexString : String) (color : UIColor ℚ),
      init? g bare hexString = some color ↔ Denotes hexString.toList color := by
  intro h
  have haccepts : (init? .scalars false "#12345g" : Option (UIColor ℚ)).isSome :=
    init?_isSome_iff.mpr (by decide)
  obtain ⟨color, hinit⟩ := Option.isSome_iff_exists.mp haccepts
  obtain ⟨cs, hcs, hdigits⟩ := digits_of_denotes ((h .scalars false "#12345g" color).mp hinit)
  obtain ⟨-, rfl⟩ : '#' = '#' ∧ ['1', '2', '3', '4', '5', 'g'] = cs := List.cons.inj hcs
  exact hdigits 'g' (by decide) (by decide)

end UIColor

/-! ## The colour of a filter -/

section Filter

variable {CGFloat : Type} [NatCast CGFloat] [Div CGFloat] {g : Graphemes} {bare : Bool}
  {colorString : String} {pinkBg2 : UIColor CGFloat}

/-- `color` of a filter, from that field of its document. -/
def FilterItem.color (g : Graphemes) (bare : Bool) (pinkBg2 : UIColor CGFloat)
    (colorString : Option String) : UIColor CGFloat :=
  (UIColor.init? g bare (colorString.getD "")).getD pinkBg2

/-- A filter has the colour that its text denotes, and the fallback where the text denotes none. -/
theorem color_of_readsWhole (h : UIColor.ReadsWhole g bare colorString) :
    UIColor.Denotes colorString.toList (FilterItem.color g bare pinkBg2 (some colorString)) ∨
      ((∀ color : UIColor CGFloat, ¬ UIColor.Denotes colorString.toList color) ∧
        FilterItem.color g bare pinkBg2 (some colorString) = pinkBg2) := by
  rw [FilterItem.color, Option.getD_some]
  cases hinit : (UIColor.init? g bare colorString : Option (UIColor CGFloat)) with
  | some color => exact .inl ((UIColor.init?_eq_some_iff h).mp hinit)
  | none =>
    refine .inr ⟨fun color hdenotes => ?_, rfl⟩
    cases hinit.symm.trans ((UIColor.init?_eq_some_iff h).mpr hdenotes)

end Filter

end Pledge
