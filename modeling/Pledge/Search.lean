import Pledge.Model
import Pledge.EventLoop.Histories

/-!
# Searching for an organisation

The table shows what the selected filter and the search text leave of the organisations. A tap
on a row counts through all of them.
-/

namespace Pledge

open EventLoop

structure SearchViewController where
  filters : List FilterItem
  selectedFilterIndex : Option Nat := none
  organisations : List OrganisationItem := []
  searchText : String := ""
  /-- What the rows of `tableView` show since they were last reloaded. -/
  rows : List OrganisationItem := []
deriving DecidableEq, Repr

inductive SearchEvent
  | didSelectItemAt (row : Nat)
  | shouldChangeCharactersIn (updatedText : Option String)
  | clearSearchButtonPressed
  | organisationsFetched (organisations : Option (List OrganisationItem))
deriving DecidableEq, Repr

namespace SearchViewController

/-- `filters[index]` is read once for every organisation, and `none` is an index out of range. -/
def sourse (vc : SearchViewController) : Option (List OrganisationItem) :=
  match vc.selectedFilterIndex with
  | none => some vc.organisations
  | some index =>
    match vc.filters[index]? with
    | some filter => some (vc.organisations.filter fun o => o.fieldId == some filter.id)
    | none => if vc.organisations.isEmpty then some [] else none

-- `contains` of strings, which compares up to canonical equivalence.
variable (contains : String → String → Bool)

def tableData (vc : SearchViewController) : Option (List OrganisationItem) :=
  vc.sourse.map fun sourse =>
    if vc.searchText.isEmpty then sourse else sourse.filter fun o => contains o.name vc.searchText

def reloadData (vc : SearchViewController) : Option SearchViewController :=
  (vc.tableData contains).map fun rows => { vc with rows := rows }

def setSearchText (vc : SearchViewController) (searchText : String) : Option SearchViewController :=
  { vc with searchText := searchText }.reloadData contains

def cellForRowAt (vc : SearchViewController) (row : Nat) : Option OrganisationItem :=
  (vc.tableData contains).bind (·[row]?)

/-- The organisation whose details the tap shows. -/
def didSelectRowAt (vc : SearchViewController) (row : Nat) : Option OrganisationItem :=
  vc.organisations[row]?

def cellForItemAt (vc : SearchViewController) (row : Nat) : Option (FilterItem × Bool) :=
  vc.filters[row]?.map fun filter => (filter, vc.selectedFilterIndex == some row)

def didSelectItemAt (vc : SearchViewController) (row : Nat) : Option SearchViewController :=
  { vc with
    selectedFilterIndex := if vc.selectedFilterIndex == some row then none else some row }.reloadData contains

def step (vc : SearchViewController) : SearchEvent → Option SearchViewController
  | .didSelectItemAt row => vc.didSelectItemAt contains row
  | .shouldChangeCharactersIn updatedText => vc.setSearchText contains (updatedText.getD "")
  | .clearSearchButtonPressed => vc.setSearchText contains ""
  | .organisationsFetched organisations =>
    { vc with organisations := organisations.getD [] }.reloadData contains

/-- The collection view has an item for every filter. -/
def Enabled (vc : SearchViewController) : SearchEvent → Prop
  | .didSelectItemAt row => row < vc.filters.length
  | _ => True

/-- The screen with its filters loaded, after any events. -/
abbrev Reached (filters : List FilterItem) (vc : SearchViewController) : Prop :=
  History (fun vc e vc' => vc.step contains e = some vc') Enabled ⟨filters, none, [], "", []⟩ vc

/-- No tap or display indexes outside its list. -/
structure InRange (vc : SearchViewController) : Prop where
  row : ∀ row < vc.rows.length, (vc.cellForRowAt contains row).isSome ∧ (vc.didSelectRowAt row).isSome
  item : ∀ row < vc.filters.length, (vc.cellForItemAt row).isSome
  step : ∀ e, vc.Enabled e → (vc.step contains e).isSome

/-- A tap shows the organisation of its row. -/
def OpensShown (vc : SearchViewController) : Prop :=
  ∀ row < vc.rows.length, vc.didSelectRowAt row = vc.rows[row]?

/-- The selected filter and the search text leave the organisation. -/
def keeps (vc : SearchViewController) (o : OrganisationItem) : Bool :=
  (match vc.selectedFilterIndex with
    | none => true
    | some index => vc.filters[index]?.any fun filter => o.fieldId == some filter.id) &&
  (vc.searchText.isEmpty || contains o.name vc.searchText)

/-! ## The rows -/

/-- The selected filter is one of the filters. -/
def Selected (vc : SearchViewController) : Prop :=
  ∀ index, vc.selectedFilterIndex = some index → index < vc.filters.length

/-- The rows are those of the current choice. -/
structure Current (vc : SearchViewController) : Prop where
  selected : vc.Selected
  rows : vc.rows = vc.organisations.filter (vc.keeps contains)

variable {contains} {vc vc' : SearchViewController} {filters : List FilterItem} {e : SearchEvent}

theorem tableData_eq (h : vc.Selected) :
    vc.tableData contains = some (vc.organisations.filter (vc.keeps contains)) := by
  have htext : ∀ sourse : List OrganisationItem,
      (if vc.searchText.isEmpty then sourse else sourse.filter fun o => contains o.name vc.searchText) =
        sourse.filter fun o => vc.searchText.isEmpty || contains o.name vc.searchText := by
    intro sourse
    cases vc.searchText.isEmpty <;> simp
  unfold tableData sourse
  cases hindex : vc.selectedFilterIndex with
  | none =>
    simp only [Option.map_some, htext, Option.some.injEq]
    apply List.filter_congr
    intro o _
    simp [keeps, hindex]
  | some index =>
    have hfilter := List.getElem?_eq_getElem (h index hindex)
    simp only [hfilter, Option.map_some, htext, List.filter_filter, Option.some.injEq]
    apply List.filter_congr
    intro o _
    simp [keeps, hindex, hfilter, Bool.and_comm]

theorem reloadData_eq (h : vc.Selected) : ∃ vc', vc.reloadData contains = some vc' ∧ vc'.Current contains := by
  unfold reloadData
  rw [tableData_eq h]
  exact ⟨_, rfl, h, rfl⟩

/-- Whatever may happen next ends with rows of the current choice. -/
theorem step_eq (h : vc.Selected) (he : vc.Enabled e) :
    ∃ vc', vc.step contains e = some vc' ∧ vc'.Current contains := by
  cases e with
  | didSelectItemAt row =>
    apply reloadData_eq
    intro index hindex
    dsimp only at hindex
    split at hindex
    · cases hindex
    · obtain rfl := Option.some.inj hindex
      exact he
  | shouldChangeCharactersIn updatedText => exact reloadData_eq h
  | clearSearchButtonPressed => exact reloadData_eq h
  | organisationsFetched organisations => exact reloadData_eq h

theorem current_of_reached (h : Reached contains filters vc) : vc.Current contains := by
  refine h.invariant (I := fun vc => vc.Current contains) ?_ ⟨?_, rfl⟩
  · intro vc e vc' hcurrent he hstep
    obtain ⟨vc₁, hstep₁, hcurrent₁⟩ := step_eq hcurrent.selected he
    rw [hstep] at hstep₁
    obtain rfl := Option.some.inj hstep₁
    exact hcurrent₁
  · intro index hindex
    cases hindex

theorem Current.inRange (h : vc.Current contains) : vc.InRange contains where
  row row hrow := by
    have hlength : row < vc.organisations.length := by
      have hle : vc.rows.length ≤ vc.organisations.length := by
        rw [h.rows]
        exact List.length_filter_le _ _
      omega
    constructor
    · rw [cellForRowAt, tableData_eq h.selected, ← h.rows]
      simpa using hrow
    · simpa [didSelectRowAt] using hlength
  item row hrow := by simpa [cellForItemAt] using hrow
  step e he := by
    obtain ⟨vc', hstep, -⟩ := step_eq h.selected he
    rw [hstep]
    rfl

/-! ## The organisation of a row -/

/-- Filtering leaves the first elements exactly when it keeps none after one that it drops. -/
theorem filter_prefix_iff {α : Type} {p : α → Bool} {l : List α} :
    l.filter p <+: l ↔ l.Pairwise fun a b => p b → p a := by
  induction l with
  | nil => simp
  | cons a l ih =>
    rw [List.pairwise_cons]
    cases ha : p a with
    | true =>
      rw [List.filter_cons_of_pos ha, List.prefix_cons_inj, ih]
      simp
    | false =>
      have hnot : ¬ p a = true := by simp [ha]
      rw [List.filter_cons_of_neg hnot]
      constructor
      · intro hprefix
        have hnone : l.filter p = [] := by
          cases hl : l.filter p with
          | nil => rfl
          | cons b rest =>
            rw [hl] at hprefix
            obtain ⟨rfl, -⟩ := List.cons_prefix_cons.mp hprefix
            have hb : b ∈ l.filter p := by simp [hl]
            exact absurd (List.mem_filter.mp hb).2 hnot
        have hall := List.filter_eq_nil_iff.mp hnone
        refine ⟨fun b hb hpb => absurd hpb (hall b hb), ?_⟩
        exact List.pairwise_of_forall_mem_list fun b _ c hc hpc => absurd hpc (hall c hc)
      · rintro ⟨hall, -⟩
        have hnone : l.filter p = [] := by
          apply List.filter_eq_nil_iff.mpr
          intro b hb hpb
          cases hall b hb hpb
        rw [hnone]
        exact List.nil_prefix

/-- A tap shows the organisation of its row exactly when the rows are the first organisations. -/
theorem opensShown_iff_rows_first : vc.OpensShown ↔ vc.rows <+: vc.organisations := by
  rw [List.prefix_iff_getElem?]
  constructor
  · intro hopens row hrow
    rw [← List.getElem?_eq_getElem hrow]
    exact hopens row hrow
  · intro hprefix row hrow
    rw [List.getElem?_eq_getElem hrow]
    exact hprefix row hrow

/-- No index is out of range, and what a tap opens is what its row shows exactly when no
organisation that is kept comes after one that is left out. -/
theorem opensShown_iff (h : Reached contains filters vc) :
    vc.InRange contains ∧ (vc.OpensShown ↔
      vc.organisations.Pairwise fun o o' => vc.keeps contains o' → vc.keeps contains o) := by
  have hcurrent := current_of_reached h
  refine ⟨hcurrent.inRange, ?_⟩
  rw [opensShown_iff_rows_first, hcurrent.rows]
  exact filter_prefix_iff

/-- A meal service and an animal shelter, and the field of each. -/
def meals : OrganisationItem := { id := "meals", name := "Meals", fieldId := some "food" }
def shelter : OrganisationItem := { id := "shelter", name := "Shelter", fieldId := some "animals" }
def fields : List FilterItem := [⟨"animals", "Animals", "animals.png"⟩, ⟨"food", "Food", "food.png"⟩]

/-- The screen after the organisations are there and an item of the filters is selected. -/
def selecting (organisations : List OrganisationItem) (row : Nat) (rows : List OrganisationItem) :
    SearchViewController where
  filters := fields
  selectedFilterIndex := some row
  organisations := organisations
  rows := rows

theorem reached_selecting {organisations rows : List OrganisationItem} {row : Nat} (hrow : row < fields.length)
    (hrows : (selecting organisations row []).tableData contains = some rows) :
    Reached contains fields (selecting organisations row rows) := by
  have hfetched : Reached contains fields ⟨fields, none, organisations, "", organisations⟩ :=
    .tail (e := .organisationsFetched (some organisations)) .refl trivial rfl
  refine .tail (e := .didSelectItemAt row) hfetched hrow ?_
  have hreload : (selecting organisations row []).reloadData contains =
      some (selecting organisations row rows) := by
    rw [reloadData, hrows]
    rfl
  exact hreload

/-- With the meals first and food selected the screen opens what it shows. -/
theorem opensShown_meals :
    (selecting [meals, shelter] 1 [meals]).InRange (fun _ _ => true) ∧
      ((selecting [meals, shelter] 1 [meals]).OpensShown ↔ [meals, shelter].Pairwise fun o o' =>
        (selecting [meals, shelter] 1 [meals]).keeps (fun _ _ => true) o' →
          (selecting [meals, shelter] 1 [meals]).keeps (fun _ _ => true) o) :=
  opensShown_iff (reached_selecting (by decide) (by decide))

/-- With animals selected the one row is the shelter, and a tap on it shows the meals. -/
theorem not_opensShown :
    ¬ ∀ (contains : String → String → Bool) (filters : List FilterItem) (vc : SearchViewController),
      Reached contains filters vc → vc.InRange contains ∧ vc.OpensShown := by
  intro hall
  have hreached : Reached (fun _ _ => true) fields (selecting [meals, shelter] 0 [shelter]) :=
    reached_selecting (by decide) (by decide)
  have hopens := (hall _ _ _ hreached).2 0 (by decide)
  revert hopens
  decide

end SearchViewController

end Pledge
