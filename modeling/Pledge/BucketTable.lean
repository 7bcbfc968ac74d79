import Mathlib.Algebra.Order.BigOperators.Group.List
import Pledge.BucketScreen
import Pledge.Format.Rounding

/-!
# The sliders of the bucket screen

The table of `MyBucketViewController`: every row has a slider whose maximum is the one
`cellForRowAt` gave its cell when it was last configured. Fingers move the sliders of
several rows at a time, and only some touch phases reload the table.
-/

namespace Pledge

namespace MyBucket

/-- The amount of the row at `index`. -/
def amountAt (vc : MyBucket) (index : ℕ) : Int := ((vc.tableData.map (·.amount))[index]?).getD 0

/-- What the rows other than the one at `index` hold together. -/
def othersAt (vc : MyBucket) (index : ℕ) : Int := totalSum vc.tableData - vc.amountAt index

/-- `maxValue` as computed by `tableView(_:cellForRowAt:)`. -/
def maxSliderValue (vc : MyBucket) (index : ℕ) : Int :=
  let currentAmount := totalSum vc.tableData
  let maxValue := vc.donateAmount - currentAmount
  (if maxValue < 0 then 0 else maxValue) + vc.amountAt index

/-- Every cell configured anew. -/
def configured (vc : MyBucket) : List MyBucket := vc.tableData.map fun _ => vc

theorem maxSliderValue_eq (vc : MyBucket) (index : ℕ) :
    vc.maxSliderValue index = max 0 (vc.donateAmount - totalSum vc.tableData) + vc.amountAt index := by
  unfold maxSliderValue
  dsimp only
  split <;> omega

end MyBucket

/-- The screen, and for each row the screen as it was when the row's cell was configured. -/
structure BucketTable where
  screen : BucketScreen
  cells : List MyBucket
deriving DecidableEq, Repr

inductive TableEvent
  | screen (e : BucketEvent)
  | moved (index : ℕ) (value : Int)
  | ended (index : ℕ)
  | otherPhase (index : ℕ)
  | cellForRowAt (index : ℕ)
deriving DecidableEq, Repr

/-- The events of the screen that end in `tableView.reloadData()`. -/
def BucketEvent.reloads : BucketEvent → Bool
  | .loaded .. => true
  | .rowDeleted .. => true
  | .adjustContinuePressed => true
  | _ => false

namespace BucketTable

def viewDidLoad (u : UserManager) (vc : MyBucket) : BucketTable :=
  ⟨BucketScreen.viewDidLoad u vc, (BucketScreen.viewDidLoad u vc).vc.configured⟩

/-- `slider.maximumValue` of the cell at `index`, which is a `Float`. -/
def maximumValue (t : BucketTable) (index : ℕ) : Option Int :=
  t.cells[index]?.map fun c => Binary32.ofInt (c.maxSliderValue index)

/-- `slider.isUserInteractionEnabled` of the cell at `index`. -/
def IsUserInteractionEnabled (t : BucketTable) (index : ℕ) : Prop :=
  ∃ c, t.cells[index]? = some c ∧ c.maxSliderValue index ≠ 0

/-- One event. `moved` is `onSliderActionMoved` with a rounded `slider.value`, a `Float` within
the slider's bounds; `ended` is `onSliderActionEnded`; the other touch phases do nothing. -/
def step : TableEvent → UserManager × BucketTable → Option (UserManager × BucketTable)
  | .screen (.sliderMoved ..), _ => none
  | .screen e, (u, t) =>
    (BucketScreen.step e (u, t.screen)).map fun (u', screen) =>
      (u', ⟨screen, if e.reloads then screen.vc.configured else t.cells⟩)
  | .moved index value, (u, t) =>
    match t.maximumValue index with
    | some maximumValue =>
      if 0 ≤ value ∧ value ≤ maximumValue ∧ Binary32.Exact value then
        (BucketScreen.step (.sliderMoved index value) (u, t.screen)).map fun (u', screen) =>
          (u', { t with screen })
      else none
    | none => none
  | .ended index, (u, t) =>
    if t.screen.front = .rows ∧ index < t.cells.length then
      some (u, { t with cells := t.screen.vc.configured })
    else none
  | .otherPhase _, (u, t) => some (u, t)
  | .cellForRowAt index, (u, t) => some (u, { t with cells := t.cells.set index t.screen.vc })

/-- Runs of the screen with its sliders; as for the screen alone, the session record may
change between two events. -/
inductive Reachable : UserManager → BucketTable → Prop
  | opened (u : UserManager) (cause : Option Cause) (isOneTimePaymentMode : Bool)
      (organizations : Option (List OrganisationItem)) (myImpactDonates : Option (List DonateItem)) :
      Reachable u (viewDidLoad u { cause, isOneTimePaymentMode, organizations, myImpactDonates })
  | step {u u' : UserManager} {t t' : BucketTable} {e : TableEvent} (h : Reachable u t)
      (hs : BucketTable.step e (u, t) = some (u', t')) : Reachable u' t'
  | elsewhere {u : UserManager} {t : BucketTable} (u' : UserManager) (h : Reachable u t) :
      Reachable u' t

variable {u u' : UserManager} {t t' : BucketTable} {e : TableEvent} {index : ℕ} {value : Int}

/-! ## What a step does -/

theorem screen_step_rows {b b' : BucketScreen} {e : BucketEvent} (hm : ∀ i v, e ≠ .sliderMoved i v)
    (hr : e.reloads = false) (hs : BucketScreen.step e (u, b) = some (u', b')) :
    b'.vc.tableData = b.vc.tableData ∧ b'.vc.donateAmount = b.vc.donateAmount := by
  obtain ⟨vc, front⟩ := b
  cases e <;> cases front <;>
    simp only [BucketScreen.step, reduceCtorEq, Option.some.injEq, Prod.mk.injEq,
      Option.ite_none_right_eq_some] at hs
  case loaded.loading | rowDeleted.rows | adjustContinuePressed.adjust => cases hr
  case sliderMoved.rows => exact absurd rfl (hm _ _)
  case loadFailed.loading | keepBrowsingButtonPressed.rows | backButtonPressed.rows |
      editButtonPressed.rows | tipsClosed.tipsPopup | donateTips.tipsPopup =>
    obtain ⟨-, rfl⟩ := hs
    exact ⟨rfl, rfl⟩
  case adjustSliderChanged.adjust | completeButtonPressed.rows =>
    obtain ⟨-, -, rfl⟩ := hs
    exact ⟨rfl, rfl⟩
  case adjustBackPressed.adjust | confirmationBackPressed.confirmation =>
    obtain ⟨-, rfl⟩ := hs
    rw [BucketScreen.viewWillAppear_vc]
    exact ⟨rfl, rfl⟩

/-- The ways in which a step touches the rows or the cells. -/
inductive Change (t t' : BucketTable) : Prop
  | reloaded (hc : t'.cells = t'.screen.vc.configured)
  | kept (hc : t'.cells = t.cells) (hr : t'.screen.vc.tableData = t.screen.vc.tableData)
      (hd : t'.screen.vc.donateAmount = t.screen.vc.donateAmount)
  | moved (index : ℕ) (value : Int) (c : MyBucket) (hcell : t.cells[index]? = some c)
      (h0 : 0 ≤ value) (hv : value ≤ Binary32.ofInt (c.maxSliderValue index)) (hc : t'.cells = t.cells)
      (hr : t'.screen.vc = t.screen.vc.sliderMoved index value)
  | cell (index : ℕ) (hc : t'.cells = t.cells.set index t.screen.vc) (hs : t'.screen = t.screen)

theorem step_moved (hs : step (.moved index value) (u, t) = some (u', t')) :
    u' = u ∧ t.screen.front = .rows ∧
      (∃ c, t.cells[index]? = some c ∧ 0 ≤ value ∧
        value ≤ Binary32.ofInt (c.maxSliderValue index) ∧ Binary32.Exact value) ∧
      t' = { t with screen := ⟨t.screen.vc.sliderMoved index value, .rows⟩ } := by
  obtain ⟨⟨vc, front⟩, cells⟩ := t
  simp only [step] at hs
  split at hs
  · rename_i m hm
    obtain ⟨c, hcell, rfl⟩ := Option.map_eq_some_iff.mp hm
    obtain ⟨hv, hmoved⟩ := Option.ite_none_right_eq_some.mp hs
    cases front <;> simp only [BucketScreen.step, Option.map_none, Option.map_some, reduceCtorEq,
      Option.some.injEq, Prod.mk.injEq] at hmoved
    obtain ⟨rfl, rfl⟩ := hmoved
    exact ⟨rfl, rfl, ⟨c, hcell, hv⟩, rfl⟩
  · cases hs

theorem step_screen {e : BucketEvent} (hs : step (.screen e) (u, t) = some (u', t')) :
    (∀ i v, e ≠ .sliderMoved i v) ∧ BucketScreen.step e (u, t.screen) = some (u', t'.screen) ∧
      t'.cells = if e.reloads then t'.screen.vc.configured else t.cells := by
  cases e
  case sliderMoved => cases hs
  all_goals
    refine ⟨nofun, ?_⟩
    obtain ⟨⟨u₁, screen⟩, hb, he⟩ := Option.map_eq_some_iff.mp hs
    cases he
    exact ⟨hb, rfl⟩

theorem step_change (hs : step e (u, t) = some (u', t')) : Change t t' := by
  cases e with
  | screen e =>
    obtain ⟨hm, hb, hc⟩ := step_screen hs
    cases hr : e.reloads with
    | true =>
      rw [hr, if_pos rfl] at hc
      exact .reloaded hc
    | false =>
      rw [hr, if_neg (by simp)] at hc
      obtain ⟨hrows, hd⟩ := screen_step_rows hm hr hb
      exact .kept hc hrows hd
  | moved index value =>
    obtain ⟨-, -, ⟨c, hcell, h0, hv, -⟩, rfl⟩ := step_moved hs
    exact .moved index value c hcell h0 hv rfl rfl
  | ended index =>
    obtain ⟨-, hs⟩ := Option.ite_none_right_eq_some.mp hs
    cases hs
    exact .reloaded rfl
  | otherPhase index =>
    cases hs
    exact .kept rfl rfl rfl
  | cellForRowAt index =>
    cases hs
    exact .cell index rfl rfl

/-- The table is the screen with more to observe. -/
theorem reachable_run (h : Reachable u t) : BucketScreen.Run (fun _ _ => True) u t.screen := by
  induction h with
  | opened u => exact .opened u _ _ _ _
  | elsewhere u' _ ih => exact .elsewhere u' ih
  | @step u u' t t' e _ hs ih =>
    cases e with
    | screen e => exact .step ih trivial (step_screen hs).2.1
    | moved index value =>
      obtain ⟨rfl, hf, -, rfl⟩ := step_moved hs
      obtain ⟨⟨vc, front⟩, cells⟩ := t
      obtain rfl : front = .rows := hf
      exact .step (e := .sliderMoved index value) ih trivial rfl
    | ended index =>
      obtain ⟨-, hs⟩ := Option.ite_none_right_eq_some.mp hs
      cases hs
      exact ih
    | otherPhase index =>
      cases hs
      exact ih
    | cellForRowAt index =>
      cases hs
      exact ih

/-! ## Amounts -/

theorem amountAt_getElem {vc : MyBucket} (h : index < vc.tableData.length) :
    vc.amountAt index = vc.tableData[index].amount := by
  simp [MyBucket.amountAt, h]

theorem map_amount_modify (rows : List OrganisationWithAmount) (index : ℕ) (value : Int) :
    (rows.modify index fun row => { row with amount := value }).map (·.amount) =
      (rows.map (·.amount)).set index value := by
  induction rows generalizing index with
  | nil => cases index <;> rfl
  | cons row rows ih =>
    cases index with
    | zero => rfl
    | succ index => simpa using ih index

theorem amountAt_sliderMoved (vc : MyBucket) (value : Int) (h : index < vc.tableData.length) (k : ℕ) :
    (vc.sliderMoved index value).amountAt k = if k = index then value else vc.amountAt k := by
  unfold MyBucket.amountAt MyBucket.sliderMoved
  rw [MyBucket.updateUI_tableData, map_amount_modify]
  split
  · rename_i hk
    subst hk
    rw [List.getElem?_set_self (by simpa using h), Option.getD_some]
  · rename_i hk
    rw [List.getElem?_set_ne (Ne.symm hk)]

/-- A moved slider replaces its row's share of the total. -/
theorem totalSum_sliderMoved (vc : MyBucket) (value : Int) (h : index < vc.tableData.length) :
    totalSum (vc.sliderMoved index value).tableData = vc.othersAt index + value := by
  unfold MyBucket.othersAt MyBucket.sliderMoved totalSum
  rw [MyBucket.updateUI_tableData, map_amount_modify, List.sum_set', dif_pos (by simpa using h),
    amountAt_getElem h, List.getElem_map]
  omega

theorem amountAt_nonneg {vc : MyBucket} (h : ∀ row ∈ vc.tableData, 0 ≤ row.amount) (k : ℕ) :
    0 ≤ vc.amountAt k := by
  unfold MyBucket.amountAt
  cases hk : (vc.tableData.map (·.amount))[k]? with
  | none => exact le_rfl
  | some a =>
    obtain ⟨row, hrow, rfl⟩ := List.mem_map.mp (List.mem_of_getElem? hk)
    exact h row hrow

/-! ## What the cells know -/

/-- What holds of the cells between two events. The maximum of a slider is never below its row's
amount, up to rounding, and as long as there are rows some slider can move or knows of all that
is left. -/
structure Configured (t : BucketTable) : Prop where
  length : t.cells.length = t.screen.vc.tableData.length
  cell : ∀ c ∈ t.cells, c.donateAmount = t.screen.vc.donateAmount
  amount_le : ∀ k c, t.cells[k]? = some c → t.screen.vc.amountAt k ≤ c.maxSliderValue k ∨
    t.screen.vc.amountAt k ≤ Binary32.ofInt (c.maxSliderValue k)
  spare : t.screen.vc.tableData ≠ [] → ∃ k c, t.cells[k]? = some c ∧
    (0 < c.maxSliderValue k ∨ t.screen.vc.donateAmount - t.screen.vc.othersAt k ≤ c.maxSliderValue k)

theorem configured_getElem {vc c : MyBucket} {k : ℕ} (h : vc.configured[k]? = some c) : c = vc := by
  unfold MyBucket.configured at h
  rw [List.getElem?_map] at h
  obtain ⟨_, -, rfl⟩ := Option.map_eq_some_iff.mp h
  rfl

theorem getElem_configured {vc : MyBucket} {k : ℕ} (h : k < vc.tableData.length) :
    vc.configured[k]? = some vc := by
  simp [MyBucket.configured, h]

/-- A maximum computed from the rows as they are leaves the row its amount and what is left. -/
theorem le_maxSliderValue (vc : MyBucket) (k : ℕ) :
    vc.amountAt k ≤ vc.maxSliderValue k ∧ vc.donateAmount - vc.othersAt k ≤ vc.maxSliderValue k := by
  have hmax := vc.maxSliderValue_eq k
  have hothers : vc.othersAt k = totalSum vc.tableData - vc.amountAt k := rfl
  omega

theorem configured_reloaded (hc : t.cells = t.screen.vc.configured) : Configured t := by
  refine ⟨by simp [hc, MyBucket.configured], ?_, ?_, ?_⟩
  · intro c hmem
    rw [hc] at hmem
    obtain ⟨_, -, rfl⟩ := List.mem_map.mp hmem
    rfl
  · intro k c hk
    rw [hc] at hk
    rw [configured_getElem hk]
    exact .inl (le_maxSliderValue t.screen.vc k).1
  · intro hne
    have hcell : t.cells[0]? = some t.screen.vc := by
      rw [hc]
      exact getElem_configured (List.length_pos_iff.mpr hne)
    exact ⟨0, _, hcell, .inr (le_maxSliderValue t.screen.vc 0).2⟩

theorem configured_moved {c : MyBucket} (h : Configured t) (hcell : t.cells[index]? = some c)
    (h0 : 0 ≤ value) (hv : value ≤ Binary32.ofInt (c.maxSliderValue index)) (hc : t'.cells = t.cells)
    (hr : t'.screen.vc = t.screen.vc.sliderMoved index value) : Configured t' := by
  have hlt : index < t.screen.vc.tableData.length :=
    h.length ▸ (List.getElem?_eq_some_iff.mp hcell).1
  have hamount : ∀ k, t'.screen.vc.amountAt k = if k = index then value else t.screen.vc.amountAt k := by
    intro k
    rw [hr]
    exact amountAt_sliderMoved t.screen.vc value hlt k
  have htotal : totalSum t'.screen.vc.tableData = t.screen.vc.othersAt index + value := by
    rw [hr]
    exact totalSum_sliderMoved t.screen.vc value hlt
  have hd : t'.screen.vc.donateAmount = t.screen.vc.donateAmount := by
    rw [hr]
    rfl
  refine ⟨?_, ?_, ?_, ?_⟩
  · rw [hc, h.length, hr]
    simp [MyBucket.sliderMoved]
  · rw [hc, hd]
    exact h.cell
  · intro k c' hk
    rw [hc] at hk
    rw [hamount]
    split
    · rename_i hki
      subst hki
      cases hcell.symm.trans hk
      exact .inr hv
    · exact h.amount_le k c' hk
  · intro _
    obtain ⟨k, c', hk, hspare⟩ := h.spare (by
      intro hnil
      simp [hnil] at hlt)
    rw [hc]
    -- the slider that moved could move, or it moved to zero and its row lost nothing
    by_cases hpos : 0 < c.maxSliderValue index
    · exact ⟨index, c, hcell, .inl hpos⟩
    · have hrounded : Binary32.ofInt (c.maxSliderValue index) ≤ 0 :=
        Binary32.ofInt_mono (y := 0) (not_lt.mp hpos)
      have hle := h.amount_le index c hcell
      refine ⟨k, c', hk, hspare.imp_right fun hs => ?_⟩
      have hk := hamount k
      unfold MyBucket.othersAt at hs htotal ⊢
      rw [hd]
      split at hk
      · rename_i heq
        subst heq
        omega
      · omega

theorem configured_cell (h : Configured t) (hc : t'.cells = t.cells.set index t.screen.vc)
    (hs : t'.screen = t.screen) : Configured t' := by
  have hcell : ∀ (k : ℕ) (c : MyBucket), t'.cells[k]? = some c → c = t.screen.vc ∨ t.cells[k]? = some c := by
    intro k c hk
    rw [hc, List.getElem?_set] at hk
    split at hk
    · obtain ⟨-, he⟩ := Option.ite_none_right_eq_some.mp hk
      exact .inl (Option.some.inj he).symm
    · exact .inr hk
  refine ⟨by rw [hc, List.length_set, hs, h.length], ?_, ?_, ?_⟩
  · intro c hmem
    rw [hc] at hmem
    rw [hs]
    rcases List.mem_or_eq_of_mem_set hmem with hmem | rfl
    · exact h.cell c hmem
    · rfl
  · intro k c hk
    rw [hs]
    rcases hcell k c hk with rfl | hk
    · exact .inl (le_maxSliderValue t.screen.vc k).1
    · exact h.amount_le k c hk
  · intro hne
    rw [hs] at hne ⊢
    by_cases hlt : index < t.cells.length
    · have hnew : t'.cells[index]? = some t.screen.vc := by
        rw [hc, List.getElem?_set_self hlt]
      exact ⟨index, _, hnew, .inr (le_maxSliderValue t.screen.vc index).2⟩
    · rw [hc, List.set_eq_of_length_le (by omega)]
      exact h.spare hne

theorem configured_step (h : Configured t) (hs : step e (u, t) = some (u', t')) : Configured t' := by
  cases step_change hs with
  | reloaded hc => exact configured_reloaded hc
  | kept hc hr hd =>
    refine ⟨by rw [hc, hr, h.length], ?_, ?_, ?_⟩
    · rw [hc, hd]
      exact h.cell
    · unfold MyBucket.amountAt
      rw [hc, hr]
      exact h.amount_le
    · unfold MyBucket.othersAt MyBucket.amountAt
      rw [hc, hr, hd]
      exact h.spare
  | moved index value c hcell h0 hv hc hr => exact configured_moved h hcell h0 hv hc hr
  | cell index hc hs => exact configured_cell h hc hs

theorem reachable_configured (h : Reachable u t) : Configured t := by
  induction h with
  | opened u => exact configured_reloaded rfl
  | step _ hs ih => exact configured_step ih hs
  | elsewhere _ _ ih => exact ih

/-! ## A moved slider -/

/-- The slider of the row is not out of date: the other rows hold no more than when its cell was
configured, the rows were within the amount then, and `Float` holds the maximum exactly. -/
structure UpToDate (t : BucketTable) (index : ℕ) (c : MyBucket) : Prop where
  cell : t.cells[index]? = some c
  others : t.screen.vc.othersAt index ≤ c.othersAt index
  within : totalSum c.tableData ≤ c.donateAmount
  exact : Binary32.Exact (c.maxSliderValue index)

/-- By how much the slider of the cell is out of date: what the other rows have gained since, what
the rows were over the amount then, and what `Float` adds to the maximum. -/
def outOfDate (t : BucketTable) (index : ℕ) (c : MyBucket) : Int :=
  t.screen.vc.othersAt index - c.othersAt index + max 0 (totalSum c.tableData - c.donateAmount) +
    (Binary32.ofInt (c.maxSliderValue index) - c.maxSliderValue index)

/-- The rows stay within the amount, or within what they held before. -/
def Within (t t' : BucketTable) : Prop :=
  totalSum t'.screen.vc.tableData ≤
    max t.screen.vc.donateAmount (totalSum t.screen.vc.tableData)

theorem outOfDate_nonpos {c : MyBucket} (h : UpToDate t index c) : outOfDate t index c ≤ 0 := by
  have hexact : Binary32.ofInt (c.maxSliderValue index) = c.maxSliderValue index := h.exact
  have hothers := h.others
  have hwithin := h.within
  unfold outOfDate
  omega

/-- What is out of date shows when the slider is at its maximum. -/
theorem maximum_add_others {c : MyBucket} (h : Configured t) (hcell : t.cells[index]? = some c) :
    Binary32.ofInt (c.maxSliderValue index) + t.screen.vc.othersAt index =
      t.screen.vc.donateAmount + outOfDate t index c := by
  have hd := h.cell c (List.mem_of_getElem? hcell)
  have hmax := c.maxSliderValue_eq index
  unfold outOfDate MyBucket.othersAt
  omega

theorem within_moved_iff (h : Configured t)
    (hs : step (.moved index value) (u, t) = some (u', t')) :
    Within t t' ↔ value ≤ t.screen.vc.amountAt index ∨
      t.screen.vc.othersAt index + value ≤ t.screen.vc.donateAmount := by
  obtain ⟨-, -, ⟨c, hcell, -⟩, rfl⟩ := step_moved hs
  have hlt : index < t.screen.vc.tableData.length :=
    h.length ▸ (List.getElem?_eq_some_iff.mp hcell).1
  have htotal := totalSum_sliderMoved t.screen.vc value hlt
  unfold Within
  simp only [htotal]
  unfold MyBucket.othersAt
  omega

/-- The slider can be moved to any value of its range. -/
theorem step_moved_of_le {c : MyBucket} (hf : t.screen.front = .rows)
    (hcell : t.cells[index]? = some c) (h0 : 0 ≤ value)
    (hv : value ≤ Binary32.ofInt (c.maxSliderValue index)) (he : Binary32.Exact value) :
    step (.moved index value) (u, t) =
      some (u, { t with screen := ⟨t.screen.vc.sliderMoved index value, .rows⟩ }) := by
  obtain ⟨⟨vc, front⟩, cells⟩ := t
  obtain rfl : front = .rows := hf
  have hm : maximumValue ⟨⟨vc, .rows⟩, cells⟩ index =
      some (Binary32.ofInt (c.maxSliderValue index)) := by
    rw [maximumValue, hcell]
    rfl
  simp [step, hm, h0, hv, he, BucketScreen.step]

theorem maximum_nonneg {c : MyBucket} (h : Configured t) (hcell : t.cells[index]? = some c)
    (hamount : 0 ≤ t.screen.vc.amountAt index) : 0 ≤ Binary32.ofInt (c.maxSliderValue index) := by
  rcases h.amount_le index c hcell with hle | hle
  · exact Binary32.ofInt_nonneg (hamount.trans hle)
  · exact hamount.trans hle

/-- A slider that is lowered, or is not out of date, keeps the rows within the amount or within
what they held before. And when no amount is negative, every value of a slider does so exactly
when it cannot be touched, stands at its maximum, or is not out of date on the whole. -/
theorem moved_total_le (h : Reachable u t) :
    (∀ value u' t', step (.moved index value) (u, t) = some (u', t') →
      (value ≤ t.screen.vc.amountAt index ∨ ∃ c, UpToDate t index c) → Within t t') ∧
    ((∀ row ∈ t.screen.vc.tableData, 0 ≤ row.amount) →
      ((∀ value u' t', step (.moved index value) (u, t) = some (u', t') → Within t t') ↔
        (t.screen.front = .rows → ∀ c, t.cells[index]? = some c →
          Binary32.ofInt (c.maxSliderValue index) ≤ t.screen.vc.amountAt index ∨
            outOfDate t index c ≤ 0))) := by
  have hconf := reachable_configured h
  refine ⟨fun value u' t' hs hok => ?_, fun hrows => ⟨fun hall hf c hcell => ?_, fun hok => ?_⟩⟩
  · rw [within_moved_iff hconf hs]
    refine hok.imp_right fun ⟨c, hc⟩ => ?_
    obtain ⟨-, -, ⟨c', hcell, -, hv, -⟩, -⟩ := step_moved hs
    cases hc.cell.symm.trans hcell
    have hmax := maximum_add_others hconf hcell
    have hdate := outOfDate_nonpos hc
    omega
  · have h0 := maximum_nonneg hconf hcell (amountAt_nonneg hrows index)
    have hs := step_moved_of_le (u := u) hf hcell h0 le_rfl (Binary32.exact_ofInt _)
    refine ((within_moved_iff hconf hs).mp (hall _ _ _ hs)).imp_right fun hle => ?_
    have hmax := maximum_add_others hconf hcell
    omega
  · intro value u' t' hs
    rw [within_moved_iff hconf hs]
    obtain ⟨-, hf, ⟨c, hcell, -, hv, -⟩, -⟩ := step_moved hs
    have hmax := maximum_add_others hconf hcell
    rcases hok hf c hcell with hle | hle
    · exact .inl (hv.trans hle)
    · right
      omega

/-- The state after a list of events. -/
def steps (l : List TableEvent) (s : UserManager × BucketTable) :
    Option (UserManager × BucketTable) :=
  l.foldlM (fun s e => step e s) s

theorem reachable_steps {l : List TableEvent} (h : Reachable u t)
    (hs : steps l (u, t) = some (u', t')) : Reachable u' t' := by
  induction l generalizing u t with
  | nil =>
    cases hs
    exact h
  | cons e l ih =>
    obtain ⟨⟨u₁, t₁⟩, h₁, hl⟩ := Option.bind_eq_some_iff.mp hs
    exact ih (.step h h₁) hl

/-- A bucket for a cause with two organisations, just opened. -/
def causeTable : BucketTable :=
  viewDidLoad BucketScreen.donor { cause := some { id := "homes" } }

theorem reachable_causeTable : Reachable BucketScreen.donor causeTable :=
  .opened BucketScreen.donor (some { id := "homes" }) false none none

/-- The two organisations are loaded, the first slider is moved and its touch cancelled. -/
def cancelledTouch : List TableEvent :=
  [.screen (.loaded (some [BucketScreen.shelter, { id := "school" }]) []), .moved 0 6, .otherPhase 0]

/-- The first slider may still take any value after its own cancelled touch; the second may not. -/
theorem moved_total_le_twoRows :
    ∃ u t u' t', Reachable u t ∧ step (.moved 0 9) (u, t) = some (u', t') ∧ Within t t' ∧
      ¬ ∀ value u' t', step (.moved 1 value) (u, t) = some (u', t') → Within t t' := by
  have hrun : ∃ s s', steps cancelledTouch (BucketScreen.donor, causeTable) = some s ∧
      step (.moved 0 9) s = some s' ∧ (∀ row ∈ s.2.screen.vc.tableData, 0 ≤ row.amount) ∧
      s.2.screen.front = .rows ∧ s.2.screen.vc.amountAt 1 = 0 ∧
      (∃ c, s.2.cells[0]? = some c ∧ s.2.screen.vc.othersAt 0 ≤ c.othersAt 0 ∧
        totalSum c.tableData ≤ c.donateAmount ∧ c.maxSliderValue 0 = 10) ∧
      ∃ c, s.2.cells[1]? = some c ∧ c.maxSliderValue 1 = 10 ∧
        s.2.screen.vc.othersAt 1 - c.othersAt 1 + max 0 (totalSum c.tableData - c.donateAmount) = 6 :=
    ⟨_, _, rfl, rfl, by decide, rfl, by decide, ⟨_, rfl, by decide, by decide, by decide⟩,
      ⟨_, rfl, by decide, by decide⟩⟩
  obtain ⟨⟨u, t⟩, ⟨u', t'⟩, hs, hm, hrows, hf, hamount, ⟨c, hc, hothers, hwithin, hmax⟩,
    ⟨c', hc', hmax', hgain⟩⟩ := hrun
  have hreach := reachable_steps reachable_causeTable hs
  refine ⟨u, t, u', t', hreach, hm, (moved_total_le hreach).1 9 u' t' hm (.inr ⟨c, ?_⟩), fun hall => ?_⟩
  · exact ⟨hc, hothers, hwithin, hmax ▸ by decide⟩
  · have hten : Binary32.ofInt 10 = 10 := by decide
    have hok := ((moved_total_le hreach).2 hrows).mp hall hf c' hc'
    unfold outOfDate at hok
    rw [hgain, hmax', hten, hamount] at hok
    omega

/-- After a cancelled touch the second slider still offers the whole amount. -/
theorem not_moved_total_le :
    ¬ ∀ (u u' : UserManager) (t t' : BucketTable) (index : ℕ) (value : Int), Reachable u t →
      (∀ row ∈ t.screen.vc.tableData, 0 ≤ row.amount) → 0 ≤ t.screen.vc.donateAmount →
      step (.moved index value) (u, t) = some (u', t') →
      Within t t' := by
  intro h
  have hrun : ∃ s s', steps cancelledTouch (BucketScreen.donor, causeTable) = some s ∧
      step (.moved 1 10) s = some s' ∧ (∀ row ∈ s.2.screen.vc.tableData, 0 ≤ row.amount) ∧
      0 ≤ s.2.screen.vc.donateAmount ∧ ¬ totalSum s'.2.screen.vc.tableData ≤
        max s.2.screen.vc.donateAmount (totalSum s.2.screen.vc.tableData) :=
    ⟨_, _, rfl, rfl, by decide, by decide, by decide⟩
  obtain ⟨⟨u, t⟩, ⟨u', t'⟩, hs, hm, hrows, hd, hgt⟩ := hrun
  exact hgt (h u u' t t' 1 10 (reachable_steps reachable_causeTable hs) hrows hd hm)

end BucketTable

end Pledge
