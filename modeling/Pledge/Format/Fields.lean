import Mathlib.Data.List.AList
import Mathlib.Data.List.Perm.Basic
import Mathlib.Data.Rat.Defs
import Pledge.Format.MachineInt

/-!
# Documents of named fields

Values of a document database, dictionaries of them, and what a reader gets that asks for a field
of one type. A writer replaces the fields that it names and keeps the others.
-/

namespace Fields

inductive Value
  | null
  | bool (b : Bool)
  | number (q : ℚ)
  | string (s : String)
  | timestamp (t : ℕ)
  | array (values : List Value)
  | map (entries : List (String × Value))

abbrev Dictionary : Type := AList fun _ : String => Value

namespace Value

def ofInt (x : Int) : Value := number x

def asString? : Value → Option String
  | string s => some s
  | _ => none

/-- Numbers that are 64-bit integers, and truth values as one and zero. -/
def asInt? : Value → Option Int
  | number q => if q.den = 1 ∧ MachineInt.InRange q.num then some q.num else none
  | bool b => some (if b then 1 else 0)
  | _ => none

/-- Numbers that a `Double` holds exactly, and truth values as one and zero. -/
def asDouble? : Value → Option ℚ
  | number q => if 2 ^ (q.num.natAbs.log2 + 1 - 53) ∣ q.num.natAbs then some q else none
  | bool b => some (if b then 1 else 0)
  | _ => none

def asTimestamp? : Value → Option ℕ
  | timestamp t => some t
  | _ => none

def asArray? : Value → Option (List Value)
  | array values => some values
  | _ => none

def asDictionary? : Value → Option (List (String × Value))
  | map entries => some entries
  | _ => none

@[simp] theorem asString?_string (s : String) : (string s).asString? = some s := rfl

@[simp] theorem asTimestamp?_timestamp (t : ℕ) : (timestamp t).asTimestamp? = some t := rfl

theorem asInt?_ofInt {x : Int} (hx : MachineInt.InRange x) : (ofInt x).asInt? = some x := by
  have hint : ((x : ℚ).den = 1 ∧ MachineInt.InRange (x : ℚ).num) := ⟨rfl, hx⟩
  exact if_pos hint

end Value

/-! ## Fields of a dictionary -/

section Read

variable {α : Type} (cast : Value → Option α) (d e : Dictionary) (key : String)

/-- `d[key] as? T`. -/
def Dictionary.read : Option α := (d.lookup key).bind cast

/-- The fields that have a value. -/
def dictionary : List (String × Option Value) → Dictionary
  | [] => ∅
  | (key, value) :: fields =>
    match value with
    | some value => (dictionary fields).insert key value
    | none => dictionary fields

/-- No other key than these has a value. -/
theorem lookup_dictionary_of_notMem {fields : List (String × Option Value)}
    (hkey : key ∉ fields.map Prod.fst) : (dictionary fields).lookup key = none := by
  induction fields with
  | nil => rfl
  | cons field fields ih =>
    obtain ⟨key', value⟩ := field
    rw [List.map_cons, List.mem_cons, not_or] at hkey
    cases value with
    | none => exact ih hkey.2
    | some value => simpa [dictionary, hkey.1] using ih hkey.2

theorem lookup_dictionary {fields : List (String × Option Value)} (hn : (fields.map Prod.fst).Nodup) :
    (dictionary fields).lookup key = (fields.lookup key).join := by
  induction fields with
  | nil => rfl
  | cons field fields ih =>
    obtain ⟨key', value⟩ := field
    rw [List.map_cons, List.nodup_cons] at hn
    by_cases hk : key = key'
    · subst hk
      have hnone : (dictionary fields).lookup key = none := lookup_dictionary_of_notMem key hn.1
      rw [List.lookup_cons_self, Option.join_some]
      cases value with
      | none => exact hnone
      | some value => exact AList.lookup_insert _
    · have hrest : (dictionary ((key', value) :: fields)).lookup key = (dictionary fields).lookup key := by
        cases value with
        | none => rfl
        | some value => exact AList.lookup_insert_ne hk
      rw [hrest, ih hn.2, List.lookup_cons, beq_false_of_ne hk]

theorem lookup_union : (d ∪ e).lookup key = (d.lookup key).or (e.lookup key) := by
  by_cases hd : key ∈ d
  · obtain ⟨value, hvalue⟩ := Option.isSome_iff_exists.mp (AList.lookup_isSome.mpr hd)
    rw [AList.lookup_union_left hd, hvalue, Option.some_or]
  · rw [AList.lookup_union_right hd, AList.lookup_eq_none.mpr hd, Option.none_or]

/-- A field that is written reads as what was written, and as before where no value is given. -/
theorem read_written {fields : List (String × Option Value)} {value : Option α} {write : α → Value}
    (hn : (fields.map Prod.fst).Nodup) (hkey : fields.lookup key = some (value.map write))
    (hcast : ∀ a, value = some a → cast (write a) = some a) :
    (dictionary fields ∪ e).read cast key = (value <|> e.read cast key) := by
  unfold Dictionary.read
  rw [lookup_union, lookup_dictionary key hn, hkey, Option.join_some]
  cases value with
  | none => simp
  | some a => simp [hcast a rfl]

/-- A field that is not written stays. -/
theorem lookup_written_of_notMem {fields : List (String × Option Value)} (hkey : key ∉ fields.map Prod.fst) :
    (dictionary fields ∪ e).lookup key = e.lookup key := by
  rw [lookup_union, lookup_dictionary_of_notMem key hkey, Option.none_or]

end Read

/-! ## Dictionaries in the order of their iteration -/

section Entries

variable {entries entries' : List (String × Value)} {key : String} {value : Value}

theorem lookup_eq_some_iff_mem (hn : (entries.map Prod.fst).Nodup) :
    entries.lookup key = some value ↔ (key, value) ∈ entries := by
  induction entries with
  | nil => simp
  | cons entry entries ih =>
    obtain ⟨key', value'⟩ := entry
    rw [List.map_cons, List.nodup_cons] at hn
    by_cases hk : key = key'
    · subst hk
      have hnot : (key, value) ∉ entries := fun hmem => hn.1 (List.mem_map.mpr ⟨_, hmem, rfl⟩)
      simp [hnot, eq_comm]
    · rw [List.lookup_cons, beq_false_of_ne hk]
      simp [ih hn.2, hk]

/-- A dictionary is read the same in whatever order it is iterated. -/
theorem lookup_perm (hn : (entries.map Prod.fst).Nodup) (h : entries.Perm entries') (key : String) :
    entries'.lookup key = entries.lookup key := by
  have hn' : (entries'.map Prod.fst).Nodup := (h.map Prod.fst).nodup_iff.mp hn
  apply Option.ext
  intro value
  rw [lookup_eq_some_iff_mem hn', lookup_eq_some_iff_mem hn]
  exact h.mem_iff.symm

end Entries

/-- The same value with its dictionaries, and those within them, iterated in another order. -/
inductive Reordered : Value → Value → Prop
  | refl (v : Value) : Reordered v v
  | map {entries entries' : List (String × Value)} (hn : (entries.map Prod.fst).Nodup)
    (h : entries.Perm entries') : Reordered (.map entries) (.map entries')
  | entry {front back : List (String × Value)} {key : String} {v v' : Value}
    (hn : ((front ++ (key, v) :: back).map Prod.fst).Nodup) (h : Reordered v v') :
    Reordered (.map (front ++ (key, v) :: back)) (.map (front ++ (key, v') :: back))
  | element {front back : List Value} {v v' : Value} (h : Reordered v v') :
    Reordered (.array (front ++ v :: back)) (.array (front ++ v' :: back))
  | trans {u v w : Value} (h : Reordered u v) (h' : Reordered v w) : Reordered u w

/-- One entry, with its value reordered. -/
def SameEntry (entry entry' : String × Value) : Prop :=
  entry'.1 = entry.1 ∧ Reordered entry.2 entry'.2

/-- The entries of a dictionary and of one that it is reordered to. -/
def SameEntries (entries entries' : List (String × Value)) : Prop :=
  entries' = entries ∨ (entries.map Prod.fst).Nodup ∧
    ∃ entries₁, List.Forall₂ SameEntry entries entries₁ ∧ entries₁.Perm entries'

/-- What a value can be reordered to. -/
def Value.SameShape : Value → Value → Prop
  | .map entries, v' => ∃ entries', v' = .map entries' ∧ SameEntries entries entries'
  | .array values, v' => ∃ values', v' = .array values' ∧ List.Forall₂ Reordered values values'
  | v, v' => v' = v

section Reordered

variable {α : Type} {R : α → α → Prop} {l l₁ l₂ l₃ front back : List α} {a a' : α}
  {entries entries₁ entries' : List (String × Value)} {key : String} {v v' : Value}

theorem forall₂_trans (htrans : ∀ a b c, R a b → R b c → R a c) (h : List.Forall₂ R l₁ l₂)
    (h' : List.Forall₂ R l₂ l₃) : List.Forall₂ R l₁ l₃ := by
  induction h generalizing l₃ with
  | nil => exact h'
  | cons hab _ ih =>
    cases h' with
    | cons hbc h' => exact .cons (htrans _ _ _ hab hbc) (ih h')

/-- One element is replaced by a related one. -/
theorem forall₂_replace (hrefl : ∀ a, R a a) (h : R a a') :
    List.Forall₂ R (front ++ a :: back) (front ++ a' :: back) :=
  List.rel_append (List.forall₂_same.mpr fun a _ => hrefl a)
    (.cons h (List.forall₂_same.mpr fun a _ => hrefl a))

theorem sameEntry_mk (h : Reordered v v') : SameEntry (key, v) (key, v') := ⟨rfl, h⟩

theorem SameEntry.trans {e₁ e₂ e₃ : String × Value} (h : SameEntry e₁ e₂) (h' : SameEntry e₂ e₃) :
    SameEntry e₁ e₃ := ⟨h'.1.trans h.1, h.2.trans h'.2⟩

theorem keys_of_forall₂ (h : List.Forall₂ SameEntry entries entries₁) :
    entries₁.map Prod.fst = entries.map Prod.fst := by
  induction h with
  | nil => rfl
  | cons h _ ih => rw [List.map_cons, List.map_cons, h.1, ih]

theorem SameEntries.nodup (h : SameEntries entries entries') (hn : (entries.map Prod.fst).Nodup) :
    (entries'.map Prod.fst).Nodup := by
  rcases h with rfl | ⟨-, entries₁, h, hperm⟩
  · exact hn
  · rw [← keys_of_forall₂ h] at hn
    exact (hperm.map Prod.fst).nodup_iff.mp hn

theorem SameEntries.trans (h : SameEntries entries entries₁) (h' : SameEntries entries₁ entries') :
    SameEntries entries entries' := by
  rcases h with rfl | ⟨hn, l, h, hperm⟩
  · exact h'
  rcases h' with rfl | ⟨-, l', h', hperm'⟩
  · exact .inr ⟨hn, l, h, hperm⟩
  -- the values are reordered before the entries
  · obtain ⟨l₂, h₂, hperm₂⟩ := List.perm_comp_forall₂ hperm h'
    exact .inr ⟨hn, l₂, forall₂_trans (fun _ _ _ => SameEntry.trans) h h₂, hperm₂.trans hperm'⟩

theorem sameShape_of_reordered (h : Reordered v v') : v.SameShape v' := by
  induction h with
  | refl v =>
    cases v with
    | map entries => exact ⟨entries, rfl, .inl rfl⟩
    | array values => exact ⟨values, rfl, List.forall₂_same.mpr fun v _ => .refl v⟩
    | _ => rfl
  | map hn h => exact ⟨_, rfl, .inr ⟨hn, _, List.forall₂_same.mpr fun e _ => ⟨rfl, .refl e.2⟩, h⟩⟩
  | entry hn h => exact ⟨_, rfl, .inr ⟨hn, _, forall₂_replace (fun e => ⟨rfl, .refl e.2⟩) (sameEntry_mk h), .refl _⟩⟩
  | element h => exact ⟨_, rfl, forall₂_replace .refl h⟩
  | @trans u v w _ _ ih ih' =>
    cases u with
    | map entries =>
      obtain ⟨entries₁, rfl, h⟩ := ih
      obtain ⟨entries', rfl, h'⟩ := ih'
      exact ⟨entries', rfl, h.trans h'⟩
    | array values =>
      obtain ⟨values₁, rfl, h⟩ := ih
      obtain ⟨values', rfl, h'⟩ := ih'
      exact ⟨values', rfl, forall₂_trans (fun _ _ _ => Reordered.trans) h h'⟩
    | _ =>
      obtain rfl := ih
      exact ih'

/-- A cast that takes neither dictionaries nor arrays gives the same. -/
theorem cast_reordered {cast : Value → Option α} (hmap : ∀ entries, cast (.map entries) = none)
    (harray : ∀ values, cast (.array values) = none) (h : Reordered v v') : cast v' = cast v := by
  have hshape := sameShape_of_reordered h
  cases v with
  | map entries =>
    obtain ⟨entries', rfl, -⟩ := hshape
    rw [hmap, hmap]
  | array values =>
    obtain ⟨values', rfl, -⟩ := hshape
    rw [harray, harray]
  | _ =>
    obtain rfl := hshape
    rfl

theorem asString?_reordered (h : Reordered v v') : v'.asString? = v.asString? :=
  cast_reordered (fun _ => rfl) (fun _ => rfl) h

theorem asInt?_reordered (h : Reordered v v') : v'.asInt? = v.asInt? :=
  cast_reordered (fun _ => rfl) (fun _ => rfl) h

theorem asDouble?_reordered (h : Reordered v v') : v'.asDouble? = v.asDouble? :=
  cast_reordered (fun _ => rfl) (fun _ => rfl) h

theorem asDictionary?_reordered (h : Reordered v v') :
    Option.Rel SameEntries v.asDictionary? v'.asDictionary? := by
  have hshape := sameShape_of_reordered h
  cases v with
  | map entries =>
    obtain ⟨entries', rfl, hsame⟩ := hshape
    exact .some hsame
  | array values =>
    obtain ⟨values', rfl, -⟩ := hshape
    exact .none
  | _ =>
    obtain rfl := hshape
    exact .none

theorem lookup_forall₂ (h : List.Forall₂ SameEntry entries entries₁) (key : String) :
    Option.Rel Reordered (entries.lookup key) (entries₁.lookup key) := by
  induction h with
  | nil => exact .none
  | @cons e e' _ _ h _ ih =>
    obtain ⟨key', v⟩ := e
    obtain ⟨key₁, v'⟩ := e'
    obtain ⟨rfl : key₁ = key', hv⟩ := h
    rw [List.lookup_cons, List.lookup_cons]
    cases key == key₁ with
    | true => exact .some hv
    | false => exact ih

/-- What a key has is reordered. -/
theorem lookup_sameEntries (h : SameEntries entries entries') (key : String) :
    Option.Rel Reordered (entries.lookup key) (entries'.lookup key) := by
  rcases h with rfl | ⟨hn, entries₁, h, hperm⟩
  · cases entries'.lookup key with
    | none => exact .none
    | some v => exact .some (.refl v)
  · rw [← keys_of_forall₂ h] at hn
    rw [lookup_perm hn hperm]
    exact lookup_forall₂ h key

end Reordered

/-! ## Collections of one type -/

section MapValues

variable {α β : Type} (f : α → β)

theorem keys_map_entries (l : List (Sigma fun _ : String => α)) :
    (l.map fun e => (⟨e.1, f e.2⟩ : Sigma fun _ : String => β)).keys = l.keys := by
  simp [List.keys, Function.comp_def]

/-- The same keys in the same order. -/
def mapValues (c : AList fun _ : String => α) : AList fun _ : String => β where
  entries := c.entries.map fun e => ⟨e.1, f e.2⟩
  nodupKeys := by
    show (List.keys _).Nodup
    rw [keys_map_entries]
    exact c.nodupKeys

variable {f} {c : AList fun _ : String => α} {key : String} {a : α}

theorem kerase_map_entries (l : List (Sigma fun _ : String => α)) (key : String) :
    (l.map fun e => (⟨e.1, f e.2⟩ : Sigma fun _ : String => β)).kerase key =
      (l.kerase key).map fun e => ⟨e.1, f e.2⟩ := by
  induction l with
  | nil => rfl
  | cons e l ih =>
    -- the entry keeps its key
    let e' : Sigma fun _ : String => β := ⟨e.1, f e.2⟩
    by_cases he : key = e.1
    · rw [List.map_cons, List.kerase_cons_eq he]
      exact List.kerase_cons_eq (s := e') he
    · rw [List.map_cons, List.kerase_cons_ne he, List.map_cons, ← ih]
      exact List.kerase_cons_ne (s := e') he

@[simp] theorem mapValues_insert : mapValues f (c.insert key a) = (mapValues f c).insert key (f a) := by
  apply AList.ext
  simp only [mapValues, AList.entries_insert, List.map_cons, kerase_map_entries]

@[simp] theorem mapValues_erase : mapValues f (c.erase key) = (mapValues f c).erase key := by
  apply AList.ext
  exact (kerase_map_entries c.entries key).symm

@[simp] theorem mem_mapValues : key ∈ mapValues f c ↔ key ∈ c := by
  show key ∈ List.keys _ ↔ _
  rw [mapValues, keys_map_entries]
  exact Iff.rfl

@[simp] theorem lookup_mapValues : (mapValues f c).lookup key = (c.lookup key).map f := by
  cases hl : c.lookup key with
  | none =>
    have hnot : key ∉ mapValues f c := fun hmem => AList.lookup_eq_none.mp hl (mem_mapValues.mp hmem)
    exact AList.lookup_eq_none.mpr hnot
  | some a =>
    have hmem := AList.mem_lookup_iff.mp (Option.mem_def.mpr hl)
    exact AList.mem_lookup_iff.mpr (List.mem_map_of_mem (f := fun e => (⟨e.1, f e.2⟩ : Sigma fun _ => β)) hmem)

end MapValues

end Fields
