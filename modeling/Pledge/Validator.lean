import Pledge.Format.Pattern
import Pledge.NetworkManager

/-!
# Validator

The regular expression of an e-mail address, and the parts of an address that matches it.
-/

namespace Pledge

open RegularExpression Pattern

namespace Validator

/-- `lo-hi` within a class. -/
def range (lo hi : Char) : List Char :=
  (List.range (hi.toNat + 1 - lo.toNat)).map fun k => Char.ofNat (lo.toNat + k)

def localClass : List Char := range 'A' 'Z' ++ range '0' '9' ++ range 'a' 'z' ++ ['.', '_', '%', '+', '-']

def hostClass : List Char := range 'A' 'Z' ++ range 'a' 'z' ++ range '0' '9' ++ ['.', '-']

def letterClass : List Char := range 'A' 'Z' ++ range 'a' 'z'

/-- `[A-Z0-9a-z._%+-]+@[A-Za-z0-9.-]+\.[A-Za-z]{2,64}`. -/
def emailRegEx : RegularExpression Char :=
  Pattern.oneOrMore (oneOf localClass) *
    (char '@' * (Pattern.oneOrMore (oneOf hostClass) * (char '.' * Pattern.between 2 64 (oneOf letterClass))))

/-- An address in parts. -/
structure Address where
  mailbox : List Char
  host : List Char
  topLevel : List Char
  mailbox_ne : mailbox ≠ []
  mailbox_mem : ∀ c ∈ mailbox, c ∈ localClass
  host_ne : host ≠ []
  host_mem : ∀ c ∈ host, c ∈ hostClass
  topLevel_length : 2 ≤ topLevel.length ∧ topLevel.length ≤ 64
  topLevel_mem : ∀ c ∈ topLevel, c ∈ letterClass

def Address.text (a : Address) : List Char := a.mailbox ++ '@' :: (a.host ++ '.' :: a.topLevel)

/-! ## Classes -/

theorem mem_range {lo hi c : Char} (hhi : hi.toNat < 128) :
    c ∈ range lo hi ↔ lo.toNat ≤ c.toNat ∧ c.toNat ≤ hi.toNat := by
  unfold range
  rw [List.mem_map]
  constructor
  · rintro ⟨k, hk, rfl⟩
    rw [List.mem_range] at hk
    have hvalid : (lo.toNat + k).isValidChar := .inl (by omega)
    have htoNat : (Char.ofNat (lo.toNat + k)).toNat = lo.toNat + k := by
      unfold Char.ofNat
      rw [dif_pos hvalid]
      rfl
    omega
  · rintro ⟨hlo, hc⟩
    refine ⟨c.toNat - lo.toNat, List.mem_range.mpr (by omega), ?_⟩
    rw [Nat.add_sub_cancel' hlo]
    exact Char.ofNat_toNat c

theorem mem_letterClass {c : Char} : c ∈ letterClass ↔ c.isAlpha = true := by
  have halpha : c.isAlpha = (c.isUpper || c.isLower) := rfl
  have hupper : c.isUpper = decide ('A'.val ≤ c.val ∧ c.val ≤ 'Z'.val) := rfl
  have hlower : c.isLower = (decide ('a'.val ≤ c.val) && decide (c.val ≤ 'z'.val)) := rfl
  rw [letterClass, List.mem_append, mem_range (by decide), mem_range (by decide)]
  simp only [halpha, hupper, hlower, Bool.or_eq_true, Bool.and_eq_true, decide_eq_true_eq,
    UInt32.le_iff_toNat_le]
  exact Iff.rfl

theorem mem_digits {c : Char} : c ∈ range '0' '9' ↔ c.isDigit = true := by
  rw [mem_range (by decide)]
  simp only [Char.isDigit, Bool.and_eq_true, decide_eq_true_eq, ge_iff_le, UInt32.le_iff_toNat_le]
  exact Iff.rfl

theorem mem_localClass {c : Char} :
    c ∈ localClass ↔ (c.isAlphanum || ['.', '_', '%', '+', '-'].contains c) = true := by
  have hletter : c ∈ range 'A' 'Z' ∨ c ∈ range 'a' 'z' ↔ c.isAlpha = true :=
    List.mem_append.symm.trans mem_letterClass
  rw [localClass, List.mem_append, List.mem_append, List.mem_append, mem_digits, Bool.or_eq_true,
    Char.isAlphanum, Bool.or_eq_true, ← hletter, List.contains_iff_mem]
  tauto

theorem mem_hostClass {c : Char} : c ∈ hostClass ↔ (c.isAlphanum || ['.', '-'].contains c) = true := by
  have hletter : c ∈ range 'A' 'Z' ∨ c ∈ range 'a' 'z' ↔ c.isAlpha = true :=
    List.mem_append.symm.trans mem_letterClass
  rw [hostClass, List.mem_append, List.mem_append, List.mem_append, mem_digits, Bool.or_eq_true,
    Char.isAlphanum, Bool.or_eq_true, ← hletter, List.contains_iff_mem]

/-! ## What is accepted -/

theorem sequence_iff {p q : List Char → Bool} {s : List Char} :
    sequence p q s = true ↔ ∃ a b, a ++ b = s ∧ p a = true ∧ q b = true := by
  unfold sequence
  rw [List.any_eq_true]
  constructor
  · rintro ⟨i, -, h⟩
    rw [Bool.and_eq_true] at h
    exact ⟨_, _, List.take_append_drop i s, h.1, h.2⟩
  · rintro ⟨a, b, rfl, ha, hb⟩
    refine ⟨a.length, List.mem_range.mpr (Nat.lt_succ_of_le ?_), ?_⟩
    · rw [List.length_append]
      exact Nat.le_add_right _ _
    · rw [List.take_left, List.drop_left, ha, hb]
      rfl

theorem oneOrMore_iff {cs : List Char} {p : Char → Bool} (hp : ∀ c, c ∈ cs ↔ p c = true) {s : List Char} :
    oneOrMore p s = true ↔ s ≠ [] ∧ ∀ c ∈ s, c ∈ cs := by
  simp [oneOrMore, hp]

theorem between_iff {cs : List Char} {p : Char → Bool} (hp : ∀ c, c ∈ cs ↔ p c = true) {min max : ℕ}
    {s : List Char} :
    between min max p s = true ↔ (min ≤ s.length ∧ s.length ≤ max) ∧ ∀ c ∈ s, c ∈ cs := by
  simp [between, hp]

theorem isEmailValid_iff_exists {email : String} :
    isEmailValid email = true ↔ ∃ a : Address, a.text = email.toList := by
  unfold isEmailValid
  simp only [sequence_iff, oneOrMore_iff fun _ => mem_localClass, oneOrMore_iff fun _ => mem_hostClass,
    between_iff fun _ => mem_letterClass, literal, beq_iff_eq]
  constructor
  · rintro ⟨m, _, he, ⟨hm, hms⟩, _, _, rfl, rfl, h, _, rfl, ⟨hh, hhs⟩, _, t, rfl, rfl, ht, hts⟩
    exact ⟨⟨m, h, t, hm, hms, hh, hhs, ht, hts⟩, he⟩
  · rintro ⟨⟨m, h, t, hm, hms, hh, hhs, ht, hts⟩, he⟩
    exact ⟨m, _, he, ⟨hm, hms⟩, ['@'], _, rfl, rfl, h, _, rfl, ⟨hh, hhs⟩, ['.'], t, rfl, rfl, ht, hts⟩

/-- The regular expression matches the addresses. -/
theorem mem_emailRegEx {s : List Char} : s ∈ emailRegEx.matches' ↔ ∃ a : Address, a.text = s := by
  unfold emailRegEx
  simp only [mem_concat, mem_oneOrMore_oneOf, mem_between_oneOf, mem_char]
  constructor
  · rintro ⟨m, ⟨hm, hms⟩, _, ⟨_, rfl, _, ⟨h, ⟨hh, hhs⟩, _, ⟨_, rfl, t, ⟨ht, hts⟩, rfl⟩, rfl⟩, rfl⟩, he⟩
    exact ⟨⟨m, h, t, hm, hms, hh, hhs, ht, hts⟩, he⟩
  · rintro ⟨⟨m, h, t, hm, hms, hh, hhs, ht, hts⟩, he⟩
    exact ⟨m, ⟨hm, hms⟩, _, ⟨_, rfl, _, ⟨h, ⟨hh, hhs⟩, _, ⟨_, rfl, t, ⟨ht, hts⟩, rfl⟩, rfl⟩, rfl⟩, he⟩

/-! ## The parts of an address -/

theorem at_notMem_mailbox (a : Address) : '@' ∉ a.mailbox := by
  intro h
  have hclass := mem_localClass.mp (a.mailbox_mem _ h)
  revert hclass
  decide

theorem dot_notMem_topLevel (a : Address) : '.' ∉ a.topLevel := by
  intro h
  have hclass := mem_letterClass.mp (a.topLevel_mem _ h)
  revert hclass
  decide

/-- The first `@` and the last dot divide an address. -/
theorem Address.text_injective : Function.Injective Address.text := by
  intro a b h
  obtain ⟨hmailbox, hrest⟩ := eq_of_append_cons h (at_notMem_mailbox a) (at_notMem_mailbox b)
  obtain ⟨hhost, htop⟩ := eq_of_append_cons_last hrest (dot_notMem_topLevel a) (dot_notMem_topLevel b)
  cases a
  cases b
  cases hmailbox
  cases hhost
  cases htop
  rfl

/-- The validator matches the regular expression, and what it accepts has its parts in one way. -/
theorem isEmailValid_iff (email : String) :
    (isEmailValid email = true ↔ email.toList ∈ emailRegEx.matches') ∧
      (isEmailValid email = true ↔ ∃! a : Address, a.text = email.toList) := by
  refine ⟨isEmailValid_iff_exists.trans mem_emailRegEx.symm, ?_⟩
  rw [isEmailValid_iff_exists]
  constructor
  · rintro ⟨a, ha⟩
    exact ⟨a, ha, fun b hb => Address.text_injective (hb.trans ha.symm)⟩
  · exact ExistsUnique.exists

end Validator

end Pledge
