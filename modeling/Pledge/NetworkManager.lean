import Pledge.Format.Binary32
import Pledge.Format.FormUrlEncoded
import Pledge.Model

/-!
# NetworkManager

The body of a payment request, what the reply to it completes, and the check of e-mail
addresses at sign-up.
-/

namespace Pledge

open FormUrlEncoded

namespace Validator

/-- A part matched by `p` and then one matched by `q`. -/
def sequence (p q : List Char → Bool) (s : List Char) : Bool :=
  (List.range (s.length + 1)).any fun i => p (s.take i) && q (s.drop i)

def literal (c : Char) (s : List Char) : Bool := s == [c]

def oneOrMore (p : Char → Bool) (s : List Char) : Bool := !s.isEmpty && s.all p

def between (min max : ℕ) (p : Char → Bool) (s : List Char) : Bool :=
  decide (min ≤ s.length ∧ s.length ≤ max) && s.all p

/-- `[A-Z0-9a-z._%+-]+@[A-Za-z0-9.-]+\.[A-Za-z]{2,64}`. -/
def isEmailValid (email : String) : Bool :=
  (sequence (oneOrMore fun c => c.isAlphanum || ['.', '_', '%', '+', '-'].contains c) <|
    sequence (literal '@') <|
      sequence (oneOrMore fun c => c.isAlphanum || ['.', '-'].contains c) <|
        sequence (literal '.') (between 2 64 Char.isAlpha)) email.toList

section Characters

variable {P : Char → Prop} {p q : List Char → Bool} {s : List Char}

theorem forall_of_sequence (hp : ∀ s, p s = true → ∀ c ∈ s, P c) (hq : ∀ s, q s = true → ∀ c ∈ s, P c)
    (h : sequence p q s = true) : ∀ c ∈ s, P c := by
  intro c hc
  obtain ⟨i, -, hi⟩ := List.any_eq_true.mp h
  obtain ⟨hpi, hqi⟩ := Bool.and_eq_true_iff.mp hi
  rw [← List.take_append_drop i s, List.mem_append] at hc
  rcases hc with hc | hc
  · exact hp _ hpi c hc
  · exact hq _ hqi c hc

theorem forall_of_literal {c : Char} (hc : P c) (h : literal c s = true) : ∀ c ∈ s, P c := by
  obtain rfl : s = [c] := by simpa [literal] using h
  simpa using hc

theorem forall_of_all {f : Char → Bool} (hf : ∀ c, f c = true → P c) (h : s.all f = true) :
    ∀ c ∈ s, P c :=
  fun c hc => hf c (List.all_eq_true.mp h c hc)

/-- What holds of letters, digits and the marks of an address holds of all its characters. -/
theorem forall_of_isEmailValid {email : String} (h : isEmailValid email = true)
    (halnum : ∀ c, c.isAlphanum = true → P c) (hmark : ∀ c ∈ ['.', '_', '%', '+', '-', '@'], P c) :
    ∀ c ∈ email.toList, P c := by
  have hmarks : ∀ l : List Char, l ⊆ ['.', '_', '%', '+', '-', '@'] →
      ∀ c, (c.isAlphanum || l.contains c) = true → P c := by
    intro l hl c hc
    rcases Bool.or_eq_true_iff.mp hc with hc | hc
    · exact halnum c hc
    · exact hmark c (hl (by simpa using hc))
  refine forall_of_sequence (fun s hs => ?_) (fun s hs => ?_) h
  · exact forall_of_all (hmarks _ (by simp)) (Bool.and_eq_true_iff.mp hs).2
  refine forall_of_sequence (fun s hs => forall_of_literal (hmark _ (by simp)) hs) (fun s hs => ?_) hs
  refine forall_of_sequence (fun s hs => ?_) (fun s hs => ?_) hs
  · exact forall_of_all (hmarks _ (by simp)) (Bool.and_eq_true_iff.mp hs).2
  refine forall_of_sequence (fun s hs => forall_of_literal (hmark _ (by simp)) hs) (fun s hs => ?_) hs
  refine forall_of_all (fun c hc => halnum c ?_) (Bool.and_eq_true_iff.mp hs).2
  simp [Char.isAlphanum, hc]

end Characters

end Validator

namespace NetworkManager

inductive Result
  | success (message : String)
  | failure (error : String)
deriving DecidableEq, Repr

def internalError : String := "Network error"

/-! ## The reply -/

/-- What `dataTask` hands over: an error, no data, or data with what its JSON holds. The
fields of an object are the casts `json["success"] as? Int` and `json["message"] as? String`. -/
inductive Reply
  | error (localizedDescription : String)
  | noData
  | notJson (localizedDescription : String)
  | otherJson
  | object (success : Option Int) (message : Option String)
deriving DecidableEq, Repr

/-- The completion handler of `dataTask`; for JSON other than an object it completes nothing. -/
def Reply.completion : Reply → Option Result
  | .error localizedDescription => some (.failure localizedDescription)
  | .noData => some (.failure internalError)
  | .notJson localizedDescription => some (.failure localizedDescription)
  | .otherJson => none
  | .object success message =>
    if success = some 1 then some (.success (message.getD "")) else some (.failure internalError)

def Reply.accepts (reply : Reply) : Bool :=
  match reply.completion with
  | some (.success _) => true
  | _ => false

/-! ## The request -/

/-- The values of `parameters`; `float` is one with an integer value. -/
inductive ParameterValue
  | string (s : String)
  | float (x : Int)
deriving DecidableEq, Repr

/-- `"\(value)"`. -/
def ParameterValue.description : ParameterValue → String
  | string s => s
  | float x => Binary32.description x

@[simp] theorem description_string (s : String) : (ParameterValue.string s).description = s := rfl

@[simp] theorem description_float (x : Int) :
    (ParameterValue.float x).description = Binary32.description x := rfl

/-- The dictionary built by `subscriptionPayment`; `uid` is that of `currentUser`. -/
def parameters (user : LendUser) (uid : Option String) (amount : Int) (token : String) :
    List (String × ParameterValue) :=
  [("email", .string user.email), ("amount", .float amount), ("currency", .string "USD"),
      ("source", .string token), ("organization", .string (uid.getD "NULL"))] ++
    (user.firstName.map fun firstName => ("first_name", ParameterValue.string firstName)).toList ++
    (user.lastName.map fun lastName => ("last_name", ParameterValue.string lastName)).toList

/-- `params` in the order of the iteration. -/
def getPostString (params : List (String × ParameterValue)) : String :=
  "&".intercalate (params.map fun p => p.1 ++ "=" ++ p.2.description)

/-- A form parser reads from the body the keys and values of `params`, each once. -/
def Decodes (params : List (String × ParameterValue)) : Prop :=
  (parse (utf8 (getPostString params))).Perm
    (params.map fun p => (utf8 p.1, utf8 p.2.description))

theorem utf8_getPostString (params : List (String × ParameterValue)) :
    utf8 (getPostString params) = join (params.map fun p => (utf8 p.1, utf8 p.2.description)) := by
  rw [getPostString, utf8_intercalate, join, List.map_map, List.map_map]
  congr 1
  refine List.map_congr_left fun p _ => ?_
  simp [utf8_append]
  rfl

section Parameters

variable {user : LendUser} {uid : Option String} {amount : Int} {token : String}

theorem name_of_mem_parameters {p : String × ParameterValue}
    (hp : p ∈ parameters user uid amount token) : Name (utf8 p.1) := by
  have hkeys : ∀ k ∈ ["email", "amount", "currency", "source", "organization", "first_name",
      "last_name"], Name (utf8 k) := by decide
  refine hkeys p.1 ?_
  simp only [parameters, List.mem_append, List.mem_cons, Option.mem_toList, Option.map_eq_some_iff,
    List.not_mem_nil, or_false] at hp
  rcases hp with ((rfl | rfl | rfl | rfl | rfl) | ⟨_, -, rfl⟩) | ⟨_, -, rfl⟩ <;> simp

/-- The texts of a request that the app does not choose itself. -/
def texts (user : LendUser) (uid : Option String) (token : String) : List String :=
  [user.email, token, uid.getD "NULL"] ++ user.firstName.toList ++ user.lastName.toList

theorem plain_description_iff (x : Int) :
    Plain (utf8 (Binary32.description x)) ↔ x.natAbs ≤ 2 ^ Binary32.precision := by
  constructor
  · intro h
    by_contra hx
    refine h.plus (List.mem_flatMap.mpr ⟨'+', ?_, by decide⟩)
    simp [Binary32.description, if_neg hx, Binary32.plus_mem_exponential]
  · intro hx
    have hdigits : ∀ c ∈ Nat.toDigits 10 x.natAbs, PlainChar c := fun c hc =>
      plainChar_of_isAlphanum (by simp [Char.isAlphanum, Nat.isDigit_of_mem_toDigits (by decide) le_rfl hc])
    have hsign : ∀ c ∈ (if x < 0 then ['-'] else []), PlainChar c := by
      split <;> simp
      decide
    have hpoint : ∀ c ∈ ['.', '0'], PlainChar c := by simp; decide
    refine plain_utf8 fun c hc => ?_
    rw [Binary32.description, String.toList_ofList, if_pos hx, List.mem_append, List.mem_append] at hc
    rcases hc with hc | hc | hc
    · exact hsign c hc
    · exact hdigits c hc
    · exact hpoint c hc

theorem plain_parameters_iff :
    (∀ p ∈ parameters user uid amount token, Plain (utf8 p.2.description)) ↔
      (∀ s ∈ texts user uid token, Plain (utf8 s)) ∧ amount.natAbs ≤ 2 ^ Binary32.precision := by
  have hcurrency : Plain (utf8 "USD") := plain_utf8 (by simp; decide)
  rw [← plain_description_iff]
  have hname : ∀ (k : String) (o : Option String), (∀ p ∈ (o.map fun s =>
      (k, ParameterValue.string s)).toList, Plain (utf8 p.2.description)) ↔
      ∀ s ∈ o.toList, Plain (utf8 s) := by
    rintro k (_ | s) <;> simp
  simp only [parameters, texts, List.forall_mem_append, List.forall_mem_cons, hname,
    description_string, description_float, hcurrency, List.not_mem_nil, false_imp_iff, implies_true]
  constructor
  · rintro ⟨⟨⟨he, ha, -, ht, hu, -⟩, hf⟩, hl⟩
    exact ⟨⟨⟨⟨he, ht, hu, trivial⟩, hf⟩, hl⟩, ha⟩
  · rintro ⟨⟨⟨⟨he, ht, hu, -⟩, hf⟩, hl⟩, ha⟩
    exact ⟨⟨⟨he, ha, trivial, ht, hu, trivial⟩, hf⟩, hl⟩

theorem decodes_iff {params : List (String × ParameterValue)}
    (hperm : params.Perm (parameters user uid amount token)) :
    Decodes params ↔ ∀ p ∈ parameters user uid amount token, Plain (utf8 p.2.description) := by
  rw [Decodes, utf8_getPostString, parse_join_perm_iff]
  · simp only [List.forall_mem_map, hperm.mem_iff]
  · simp only [List.forall_mem_map, hperm.mem_iff]
    exact fun p hp => name_of_mem_parameters hp

/-- The body of every iteration order decodes to its parameters exactly when no text in it
holds an ampersand, a plus sign or a percent escape, and the amount is printed without an
exponent. -/
theorem postString_decodes_iff (user : LendUser) (uid : Option String) (amount : Int) (token : String) :
    (∀ params, params.Perm (parameters user uid amount token) → Decodes params) ↔
      (∀ s ∈ texts user uid token, Plain (utf8 s)) ∧ amount.natAbs ≤ 2 ^ Binary32.precision := by
  rw [← plain_parameters_iff]
  constructor
  · intro h
    have hself : (parameters user uid amount token).Perm (parameters user uid amount token) := .refl _
    exact (decodes_iff hself).mp (h _ hself)
  · intro h params hperm
    exact (decodes_iff hperm).mpr h

/-- An accepted e-mail address cannot end its own field. -/
theorem ampersand_not_mem_email {email : String} (h : Validator.isEmailValid email = true) :
    ampersand ∉ utf8 email := by
  intro hm
  obtain ⟨c, hc, hb⟩ := List.mem_flatMap.mp hm
  exact Validator.forall_of_isEmailValid (P := fun c => ampersand ∉ String.utf8EncodeChar c) h
    (fun c hc => (plainChar_of_isAlphanum hc).1) (by simp; decide) c hc hb

end Parameters

/-- A name that adds a second amount to the body. -/
def annForOne : LendUser := { email := "ann@mail.com", displayName := some "Ann Lee&amount=1" }

theorem not_postString_decodes :
    Validator.isEmailValid annForOne.email = true ∧
      ¬ ∀ params, params.Perm (parameters annForOne (some "ann") 13 "token") → Decodes params := by
  refine ⟨by decide, fun h => ?_⟩
  have hplain := (decodes_iff (List.Perm.refl _)).mp (h _ (List.Perm.refl _))
  have hmem : ("last_name", ParameterValue.string "Lee&amount=1") ∈
      parameters annForOne (some "ann") 13 "token" := by decide
  exact (hplain _ hmem).ampersand (by decide)

end NetworkManager

end Pledge
