import Pledge.FirestoreManager
import Pledge.Search

/-!
# Loading the search screen

The filters and the organisations of the search screen are loaded while it is in use, as often as its tab
is chosen, and the answers come in any order. The table is not reloaded when filters arrive.
-/

namespace Pledge

open EventLoop

/-- What the screen is waiting for. -/
inductive SearchLoad
  | filters
  | organisations
  /-- The filters that give the fetched organisations their names. -/
  | filtersOf (organisations : List OrganisationItem)
deriving DecidableEq, Repr

inductive SearchAnswer
  | filters (snapshot : Option (List (Document FilterDoc)))
  | organisations (snapshot : Option (List (Document OrganisationDoc)))

/-- The answer is one to the load. -/
def SearchLoad.Takes : SearchLoad → SearchAnswer → Prop
  | filters, .filters _ | filtersOf _, .filters _ | organisations, .organisations _ => True
  | _, _ => False

/-- The screen, the tab that is selected, the store's cache of filters, and the loads in flight. -/
structure SearchScreen where
  vc : SearchViewController
  selectedIndex : Nat
  device : Device
  pending : List SearchLoad

inductive SearchScreenEvent
  | viewWillAppear
  | onSelectedAction (index : Nat)
  | touched (e : SearchEvent)
  /-- Another screen has fetched the filters. -/
  | setFilters (filters : List FilterItem)
  | answered (i : Nat) (answer : SearchAnswer)

namespace SearchScreen

variable (contains : String → String → Bool)

/-! ## Fetching -/

def filtersFetched (filters : Option (List FilterItem)) (s : SearchScreen) : Option SearchScreen :=
  match filters with
  | none => some s
  | some filters => some { s with vc := { s.vc with filters } }

def organisationsFetched (organisations : Option (List OrganisationItem)) (s : SearchScreen) :
    Option SearchScreen :=
  (s.vc.step contains (.organisationsFetched organisations)).map fun vc => { s with vc }

/-- The completion of `fetchFilters` within `fetchOrganisations`. -/
def organisationsNamed (organisations : List OrganisationItem) (_ : Option (List FilterItem)) (s : SearchScreen) :
    Option SearchScreen :=
  s.organisationsFetched contains (some (s.device.addFiltersToOrganisations organisations))

/-- `fetchFilters(usingCache: true)`. -/
def fetchFilters (load : SearchLoad) (completion : Option (List FilterItem) → SearchScreen → Option SearchScreen)
    (s : SearchScreen) : Option SearchScreen :=
  if !s.device.filters.isEmpty then completion (some s.device.filters) s
  else some { s with pending := s.pending ++ [load] }

def filtersAnswered (completion : Option (List FilterItem) → SearchScreen → Option SearchScreen)
    (snapshot : Option (List (Document FilterDoc))) (s : SearchScreen) : Option SearchScreen :=
  match snapshot with
  | none => completion none s
  | some documents =>
    let result := documents.filterMap FilterItem.init?
    if !result.isEmpty then completion (some result) { s with device := s.device.setFilters result }
    else completion (some result) s

def organisationsAnswered (snapshot : Option (List (Document OrganisationDoc))) (s : SearchScreen) :
    Option SearchScreen :=
  match snapshot with
  | none => s.organisationsFetched contains none
  | some documents =>
    let result := documents.filterMap OrganisationItem.init?
    if !result.isEmpty then s.fetchFilters (.filtersOf result) (organisationsNamed contains result) else some s

def loadFilters (s : SearchScreen) : Option SearchScreen := s.fetchFilters .filters filtersFetched

def loadOrganisations (s : SearchScreen) : Option SearchScreen :=
  some { s with pending := s.pending ++ [.organisations] }

/-! ## The screen -/

def viewDidLoad (selectedIndex : Nat) (device : Device) : SearchScreen :=
  { vc := { filters := [] }, selectedIndex, device, pending := [.organisations] }

def viewWillAppear (s : SearchScreen) : Option SearchScreen :=
  if s.vc.filters.isEmpty then s.loadFilters else some s

def tabbarCurrentIndexDidChange (s : SearchScreen) : Option SearchScreen :=
  if s.selectedIndex = 1 then s.loadOrganisations else some s

/-- `selectedIndex = index` of the tab bar, which pops to the root where it is selected already. -/
def onSelectedAction (index : Nat) (s : SearchScreen) : Option SearchScreen :=
  if index ≠ s.selectedIndex then { s with selectedIndex := index }.tabbarCurrentIndexDidChange else some s

def answered (load : SearchLoad) (answer : SearchAnswer) (s : SearchScreen) : Option SearchScreen :=
  match load, answer with
  | .filters, .filters snapshot => s.filtersAnswered filtersFetched snapshot
  | .filtersOf organisations, .filters snapshot =>
    s.filtersAnswered (organisationsNamed contains organisations) snapshot
  | .organisations, .organisations snapshot => s.organisationsAnswered contains snapshot
  | _, _ => some s

def step (s : SearchScreen) : SearchScreenEvent → Option SearchScreen
  | .viewWillAppear => s.viewWillAppear
  | .onSelectedAction index => s.onSelectedAction index
  | .touched e => (s.vc.step contains e).map fun vc => { s with vc }
  | .setFilters filters => some { s with device := s.device.setFilters filters }
  | .answered i answer =>
    match s.pending[i]? with
    | some load => { s with pending := s.pending.eraseIdx i }.answered contains load answer
    | none => some s

/-- Touches are on what is there, and answers are to what was asked. -/
def Enabled (s : SearchScreen) : SearchScreenEvent → Prop
  | .touched e => s.vc.Enabled e ∧ ∀ organisations, e ≠ .organisationsFetched organisations
  | .answered i answer => ∃ load, s.pending[i]? = some load ∧ load.Takes answer
  | _ => True

/-- The selected filter is where it was. -/
def Keeps (vc : SearchViewController) (filters : List FilterItem) : Prop :=
  ∀ index, vc.selectedFilterIndex = some index →
    filters[index]?.map FilterItem.id = vc.filters[index]?.map FilterItem.id

/-- Filters that arrive while one is selected have it at the same index. -/
def KeepsSelected (s : SearchScreen) : SearchScreenEvent → Prop
  | .answered i (.filters (some documents)) =>
    s.pending[i]? = some .filters → Keeps s.vc (documents.filterMap FilterItem.init?)
  | _ => True

/-- The screen in use. -/
abbrev Reached (s₀ s : SearchScreen) : Prop :=
  History (fun s e s' => s.step contains e = some s') (fun s e => s.Enabled e ∧ s.KeepsSelected e) s₀ s

/-! ## Rows and indices -/

variable {contains} {vc : SearchViewController} {s s' : SearchScreen} {e : SearchScreenEvent}

/-- The rows need no reload where the selected filter stays. -/
theorem current_filters {filters : List FilterItem} (h : vc.Current contains) (hk : Keeps vc filters) :
    SearchViewController.Current contains { vc with filters } := by
  constructor
  · intro index hindex
    have hlt := h.selected index hindex
    have hid := hk index hindex
    rw [List.getElem?_eq_getElem hlt, Option.map_some] at hid
    obtain ⟨filter, hfilter, -⟩ := Option.map_eq_some_iff.mp hid
    exact (List.getElem?_eq_some_iff.mp hfilter).1
  · have hkeeps : SearchViewController.keeps contains { vc with filters } = vc.keeps contains := by
      funext o
      unfold SearchViewController.keeps
      cases hindex : vc.selectedFilterIndex with
      | none => rfl
      | some index =>
        have hid := hk index hindex
        dsimp only
        cases hf : filters[index]? <;> cases hf' : vc.filters[index]? <;> simp_all
    rw [hkeeps]
    exact h.rows

/-- Filters that arrive first are kept by any choice. -/
theorem keeps_of_isEmpty (h : vc.Current contains) (hempty : vc.filters.isEmpty = true)
    (filters : List FilterItem) : Keeps vc filters := by
  intro index hindex
  have hlt := h.selected index hindex
  rw [List.isEmpty_iff.mp hempty] at hlt
  exact absurd hlt (Nat.not_lt_zero index)

/-- The step does not trap, and the rows after it are those of the current choice. -/
def Goes (contains : String → String → Bool) (next : Option SearchScreen) : Prop :=
  ∃ s', next = some s' ∧ s'.vc.Current contains

theorem goes_vc {e : SearchEvent} (h : s.vc.Selected) (he : s.vc.Enabled e) :
    Goes contains ((s.vc.step contains e).map fun vc => { s with vc }) := by
  obtain ⟨vc, hstep, hcurrent⟩ := SearchViewController.step_eq h he
  exact ⟨_, by rw [hstep]; rfl, hcurrent⟩

theorem goes_fetchFilters {load : SearchLoad}
    {completion : Option (List FilterItem) → SearchScreen → Option SearchScreen} (h : s.vc.Current contains)
    (hk : Goes contains (completion (some s.device.filters) s)) : Goes contains (s.fetchFilters load completion) := by
  unfold fetchFilters
  split
  · exact hk
  · exact ⟨_, rfl, h⟩

theorem goes_organisationsNamed {organisations : List OrganisationItem} {filters : Option (List FilterItem)}
    (h : s.vc.Current contains) : Goes contains (s.organisationsNamed contains organisations filters) :=
  goes_vc (s := s) (e := .organisationsFetched _) h.selected trivial

theorem goes_organisationsAnswered {snapshot : Option (List (Document OrganisationDoc))}
    (h : s.vc.Current contains) : Goes contains (s.organisationsAnswered contains snapshot) := by
  cases snapshot with
  | none => exact goes_vc (s := s) (e := .organisationsFetched _) h.selected trivial
  | some documents =>
    simp only [organisationsAnswered]
    split
    · exact goes_fetchFilters h (goes_organisationsNamed h)
    · exact ⟨s, rfl, h⟩

theorem goes_filtersAnswered {completion : Option (List FilterItem) → SearchScreen → Option SearchScreen}
    {snapshot : Option (List (Document FilterDoc))} (hnone : Goes contains (completion none s))
    (hsome : ∀ documents, snapshot = some documents → ∀ device,
      Goes contains (completion (some (documents.filterMap FilterItem.init?)) { s with device })) :
    Goes contains (s.filtersAnswered completion snapshot) := by
  cases snapshot with
  | none => exact hnone
  | some documents =>
    simp only [filtersAnswered]
    split
    · exact hsome documents rfl _
    · exact hsome documents rfl s.device

theorem goes_viewWillAppear (h : s.vc.Current contains) : Goes contains s.viewWillAppear := by
  unfold viewWillAppear
  split
  · rename_i hempty
    exact goes_fetchFilters h ⟨_, rfl, current_filters h (keeps_of_isEmpty h hempty _)⟩
  · exact ⟨s, rfl, h⟩

theorem goes_onSelectedAction (h : s.vc.Current contains) (index : Nat) :
    Goes contains (s.onSelectedAction index) := by
  unfold onSelectedAction tabbarCurrentIndexDidChange loadOrganisations
  split
  · split
    · exact ⟨_, rfl, h⟩
    · exact ⟨_, rfl, h⟩
  · exact ⟨s, rfl, h⟩

/-- Answers to loads other than that of the filters reload the table; filters have to keep the choice. -/
theorem goes_answered {load : SearchLoad} {answer : SearchAnswer} (h : s.vc.Current contains)
    (hk : load = .filters → ∀ documents, answer = .filters (some documents) →
      Keeps s.vc (documents.filterMap FilterItem.init?)) : Goes contains (s.answered contains load answer) := by
  cases answer with
  | filters snapshot =>
    cases load with
    | filters =>
      refine goes_filtersAnswered ⟨s, rfl, h⟩ fun documents hd device => ?_
      exact ⟨_, rfl, current_filters h (hk rfl documents (by rw [hd]))⟩
    | filtersOf organisations =>
      refine goes_filtersAnswered (goes_organisationsNamed h) fun documents _ device => ?_
      exact goes_organisationsNamed (s := { s with device }) h
    | organisations => exact ⟨s, rfl, h⟩
  | organisations snapshot =>
    cases load with
    | organisations => exact goes_organisationsAnswered h
    | filters | filtersOf => exact ⟨s, rfl, h⟩

theorem goes_step (h : s.vc.Current contains) (he : s.Enabled e) (hk : s.KeepsSelected e) :
    Goes contains (s.step contains e) := by
  cases e with
  | viewWillAppear => exact goes_viewWillAppear h
  | onSelectedAction index => exact goes_onSelectedAction h index
  | touched e => exact goes_vc h.selected he.1
  | setFilters filters => exact ⟨_, rfl, h⟩
  | answered i answer =>
    obtain ⟨load, hload, -⟩ := he
    simp only [step, hload]
    refine goes_answered (s := { s with pending := s.pending.eraseIdx i }) h ?_
    rintro rfl documents rfl
    exact hk hload

/-- However the loads are answered, as long as filters that arrive have the selected one at its index: the
rows are those of the current choice, no index is out of range, and nothing that may happen traps. -/
theorem current_of_history {selectedIndex : Nat} {device : Device}
    (h : Reached contains (viewDidLoad selectedIndex device) s) :
    s.vc.Current contains ∧ s.vc.InRange contains ∧
      ∀ e, s.Enabled e → s.KeepsSelected e → (s.step contains e).isSome := by
  have hcurrent : s.vc.Current contains := by
    refine h.invariant (I := fun s => s.vc.Current contains) ?_ ⟨fun index hindex => (by cases hindex), rfl⟩
    intro s e s' hcurrent hok hs
    obtain ⟨next, hnext, hcurrent'⟩ := goes_step hcurrent hok.1 hok.2
    obtain rfl : next = s' := Option.some.inj (hnext.symm.trans hs)
    exact hcurrent'
  refine ⟨hcurrent, hcurrent.inRange, fun e he hk => ?_⟩
  obtain ⟨next, hnext, -⟩ := goes_step hcurrent he hk
  rw [hnext]
  rfl

/-- With fewer filters than the selected index, and organisations on the screen, the next touch that reloads
the table traps. -/
theorem step_clearSearchButtonPressed_eq_none {index : Nat} (hindex : s.vc.selectedFilterIndex = some index)
    (hlost : s.vc.filters.length ≤ index) (horganisations : s.vc.organisations ≠ []) :
    s.step contains (.touched .clearSearchButtonPressed) = none := by
  have hnone : s.vc.filters[index]? = none := List.getElem?_eq_none hlost
  have hsourse : SearchViewController.sourse { s.vc with searchText := "" } = none := by
    simp [SearchViewController.sourse, hindex, hnone, horganisations]
  simp [step, SearchViewController.step, SearchViewController.setSearchText, SearchViewController.reloadData,
    SearchViewController.tableData, hsourse]

/-- The screen with its one filter loaded. -/
def foodScreen (selectedFilterIndex : Option Nat) (organisations rows : List OrganisationItem)
    (pending : List SearchLoad) : SearchScreen where
  vc := { filters := [⟨"food", "Food", "food.png"⟩], selectedFilterIndex, organisations, rows }
  selectedIndex := 1
  device := ({} : Device).setFilters [⟨"food", "Food", "food.png"⟩]
  pending := pending

def foodMeals : OrganisationItem :=
  { id := "meals", name := "Meals", fieldId := some "food", filterName := some "Food" }

def foodChosen : SearchScreen :=
  foodScreen (some 0) [foodMeals, { id := "shelter", name := "Shelter" }] [foodMeals] []

/-- The filters are there before the organisations, and food is chosen. -/
theorem current_of_history_food : foodChosen.vc.Current (fun _ _ => true) ∧ foodChosen.vc.InRange (fun _ _ => true) ∧
    ∀ e, foodChosen.Enabled e → foodChosen.KeepsSelected e → (foodChosen.step (fun _ _ => true) e).isSome := by
  have happears : Reached (fun _ _ => true) (viewDidLoad 1 {})
      { viewDidLoad 1 {} with pending := [.organisations, .filters] } :=
    .tail (e := .viewWillAppear) .refl ⟨trivial, trivial⟩ rfl
  have hfilters : Reached (fun _ _ => true) (viewDidLoad 1 {}) (foodScreen none [] [] [.organisations]) :=
    .tail (e := .answered 1 (.filters (some [⟨"food", some { name := some "Food", imageUrl := some "food.png" }⟩])))
      happears ⟨⟨.filters, rfl, trivial⟩, fun _ index hindex => (by cases hindex)⟩ rfl
  have horganisations : Reached (fun _ _ => true) (viewDidLoad 1 {})
      (foodScreen none [foodMeals, { id := "shelter", name := "Shelter" }]
        [foodMeals, { id := "shelter", name := "Shelter" }] []) :=
    .tail (e := .answered 0 (.organisations (some [⟨"meals", some { name := some "Meals", field := some "food" }⟩,
        ⟨"shelter", some { name := some "Shelter" }⟩])))
      hfilters ⟨⟨.organisations, rfl, trivial⟩, trivial⟩ rfl
  have hfood : Reached (fun _ _ => true) (viewDidLoad 1 {}) foodChosen :=
    .tail (e := .touched (.didSelectItemAt 0)) horganisations ⟨⟨Nat.zero_lt_one, by simp⟩, trivial⟩ rfl
  exact current_of_history hfood

end SearchScreen

end Pledge
