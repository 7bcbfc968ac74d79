import Mathlib.Data.List.Induction
import Pledge.BucketTable

/-!
# MyBucketTableViewCell

One drag of the slider of a row. While it moves the amount is recorded and the label follows; when
it ends the table is reloaded from what was recorded.
-/

namespace Pledge

/-- `Int(round(_:))`, which takes halves away from zero. -/
def rounded (value : ℚ) : Int := if 0 ≤ value then ⌊value + 1 / 2⌋ else -⌊1 / 2 - value⌋

/-- `maximumValue` and `value` are those of the slider, whose minimum is zero. -/
structure MyBucketTableViewCell where
  maximumValue : Int
  value : ℚ
  isUserInteractionEnabled : Bool
  nameLabel : String
  amountLabel : String
deriving DecidableEq, Repr

inductive TouchPhase
  | began
  | moved
  | stationary
  | ended
  | cancelled
deriving DecidableEq, Repr

namespace MyBucketTableViewCell

def roundedSliderValue (cell : MyBucketTableViewCell) : Int := rounded cell.value

def amountText (amount : Int) : String := "$" ++ toString amount

def updateAmountLabel (amount : Int) (cell : MyBucketTableViewCell) : MyBucketTableViewCell :=
  { cell with amountLabel := amountText amount }

/-- The slider keeps its value between its bounds. -/
def configureWith (data : OrganisationWithAmount) (maxSliderValue : Int) : MyBucketTableViewCell where
  maximumValue := maxSliderValue
  value := max 0 (min (data.amount : ℚ) maxSliderValue)
  isUserInteractionEnabled := maxSliderValue != 0
  nameLabel := data.organisation.name
  amountLabel := amountText data.amount

end MyBucketTableViewCell

open MyBucketTableViewCell

/-- The screen with the cells of its rows. -/
structure BucketCells where
  vc : MyBucket
  cells : List MyBucketTableViewCell
deriving DecidableEq, Repr

namespace BucketCells

def reloadData (t : BucketCells) : BucketCells :=
  { t with cells := t.vc.tableData.mapIdx fun index data => configureWith data (t.vc.maxSliderValue index) }

/-- The slider of the cell at `index` has taken a value and reports it. -/
def onSliderValChanged (index : ℕ) (phase : TouchPhase) (value : ℚ) (t : BucketCells) : BucketCells :=
  match t.cells[index]? with
  | none => t
  | some cell =>
    let cell := { cell with value := value }
    match phase with
    | .moved =>
      { vc := t.vc.sliderMoved index cell.roundedSliderValue
        cells := t.cells.set index (cell.updateAmountLabel cell.roundedSliderValue) }
    | .ended =>
      -- `onSliderActionEnded` is given the rounded value, too, and does not look at it.
      { t with cells := t.cells.set index { cell with value := cell.roundedSliderValue } }.reloadData
    | _ => { t with cells := t.cells.set index cell }

/-- A drag that takes the values `moves` and is let go at `last`. -/
def drag (index : ℕ) (moves : List ℚ) (last : ℚ) (t : BucketCells) : BucketCells :=
  (moves.foldl (fun t value => t.onSliderValChanged index .moved value) t).onSliderValChanged index .ended last

/-- The amount that is recorded for the row when the slider is let go. -/
def lastRecorded (index : ℕ) (moves : List ℚ) (t : BucketCells) : Int :=
  (moves.getLast?.map rounded).getD (t.vc.amountAt index)

/-- From `t` on, data, label and slider of the row came to show `value`, and no other row changed. -/
structure Took (index : ℕ) (value : Int) (t t' : BucketCells) : Prop where
  recorded : t'.vc.tableData[index]?.map (·.amount) = some value
  shown : ∃ cell, t'.cells[index]? = some cell ∧ cell.value = value ∧ cell.amountLabel = amountText value
  others : ∀ j, j ≠ index → t'.vc.tableData[j]? = t.vc.tableData[j]?

variable {t : BucketCells} {index : ℕ} {value last : ℚ} {moves : List ℚ}

theorem rounded_nonneg (h : 0 ≤ value) : 0 ≤ rounded value := by
  rw [rounded, if_pos h]
  apply Int.floor_nonneg.mpr
  linarith

/-! ## What a drag records -/

theorem onSliderValChanged_moved (value : ℚ) (h : index < t.cells.length) :
    (t.onSliderValChanged index .moved value).vc = t.vc.sliderMoved index (rounded value) ∧
      (t.onSliderValChanged index .moved value).cells.length = t.cells.length := by
  unfold onSliderValChanged
  rw [List.getElem?_eq_getElem h]
  exact ⟨rfl, List.length_set⟩

theorem onSliderValChanged_ended (value : ℚ) (h : index < t.cells.length) :
    ∃ cells, t.onSliderValChanged index .ended value = reloadData ⟨t.vc, cells⟩ := by
  unfold onSliderValChanged
  rw [List.getElem?_eq_getElem h]
  exact ⟨_, rfl⟩

/-- The rows while the slider is held: only its own row has changed, to the last value. -/
theorem foldl_moved (moves : List ℚ) (hrow : index < t.vc.tableData.length) (hcell : index < t.cells.length) :
    ∃ vc, (moves.foldl (fun t value => t.onSliderValChanged index .moved value) t).vc = vc ∧
      index < vc.tableData.length ∧ vc.amountAt index = t.lastRecorded index moves ∧
      (∀ j, j ≠ index → vc.tableData[j]? = t.vc.tableData[j]?) ∧
      index < (moves.foldl (fun t value => t.onSliderValChanged index .moved value) t).cells.length := by
  induction moves using List.reverseRecOn with
  | nil => exact ⟨_, rfl, hrow, rfl, fun _ _ => rfl, hcell⟩
  | append_singleton moves value ih =>
    obtain ⟨vc, hvc, hlt, -, hothers, hlength⟩ := ih
    rw [List.foldl_append]
    obtain ⟨hmoved, hcells⟩ := onSliderValChanged_moved value hlength
    refine ⟨_, hmoved, ?_, ?_, ?_, ?_⟩
    · rw [hvc]
      simpa [MyBucket.sliderMoved] using hlt
    · rw [hvc, BucketTable.amountAt_sliderMoved vc _ hlt, if_pos rfl, lastRecorded, List.getLast?_concat]
      rfl
    · intro j hj
      rw [hvc, ← hothers j hj]
      show (vc.tableData.modify index _)[j]? = vc.tableData[j]?
      rw [List.getElem?_modify]
      simp [Ne.symm hj]
    · exact hcells ▸ hlength

/-- Configured anew the cell shows the amount of its row. -/
theorem reloadData_cell {vc : MyBucket} (cells : List MyBucketTableViewCell) (hrow : index < vc.tableData.length) :
    ∃ cell, (reloadData ⟨vc, cells⟩).cells[index]? = some cell ∧
      cell.value = max 0 (vc.amountAt index : ℚ) ∧ cell.amountLabel = amountText (vc.amountAt index) := by
  have hamount := BucketTable.amountAt_getElem hrow
  refine ⟨configureWith vc.tableData[index] (vc.maxSliderValue index), ?_, ?_, ?_⟩
  · rw [reloadData, List.getElem?_mapIdx, List.getElem?_eq_getElem hrow]
    rfl
  · have hmax : vc.amountAt index ≤ vc.maxSliderValue index := by
      rw [MyBucket.maxSliderValue_eq]
      omega
    have hmin : min (vc.amountAt index : ℚ) (vc.maxSliderValue index) = vc.amountAt index :=
      min_eq_left (by exact_mod_cast hmax)
    rw [← hmin, hamount]
    rfl
  · rw [hamount]
    rfl

/-- Data, label and slider agree on the value that a drag is let go at exactly when the last one
recorded before was the same when rounded. -/
theorem took_drag_iff (hrow : index < t.vc.tableData.length) (hcell : index < t.cells.length)
    (hlast : 0 ≤ last) :
    Took index (rounded last) t (t.drag index moves last) ↔ t.lastRecorded index moves = rounded last := by
  obtain ⟨vc, hvc, hlt, hamount, hothers, hlength⟩ := foldl_moved moves hrow hcell
  unfold drag
  generalize moves.foldl (fun t value => t.onSliderValChanged index .moved value) t = held at *
  subst hvc
  obtain ⟨cells, hended⟩ := onSliderValChanged_ended last hlength
  rw [hended]
  have hgetElem := BucketTable.amountAt_getElem hlt
  have hrecorded : held.vc.tableData[index]?.map (·.amount) = some (t.lastRecorded index moves) := by
    rw [List.getElem?_eq_getElem hlt, ← hamount, hgetElem]
    rfl
  constructor
  · intro htook
    have hsame := hrecorded.symm.trans htook.recorded
    exact Option.some.inj hsame
  · intro hsame
    refine ⟨hsame ▸ hrecorded, ?_, hothers⟩
    have hnonneg : (0 : ℚ) ≤ rounded last := by exact_mod_cast rounded_nonneg hlast
    obtain ⟨cell, hreloaded, hvalue, hlabel⟩ :=
      reloadData_cell cells hlt
    refine ⟨cell, hreloaded, ?_, ?_⟩
    · rw [hvalue, hamount, hsame, max_eq_right hnonneg]
    · rw [hlabel, hamount, hsame]

/-- A bucket of ten with the shelter on its only row. -/
def shelterRow : BucketCells :=
  reloadData { vc := { donateAmount := 10, tableData := [{ amount := 0, organisation := { id := "shelter" } }] }
               cells := [] }

theorem took_drag_shelterRow :
    Took 0 (rounded 2) shelterRow (shelterRow.drag 0 [1, 2] 2) ↔ shelterRow.lastRecorded 0 [1, 2] = rounded 2 :=
  took_drag_iff (by decide) (by decide) (by norm_num)

/-- Let go at five after the last move was to two, the row stays at two. -/
theorem not_took_drag :
    ¬ ∀ (t : BucketCells) (index : ℕ) (moves : List ℚ) (last : ℚ), index < t.vc.tableData.length →
      (∃ cell, t.cells[index]? = some cell ∧ ∀ value ∈ last :: moves, 0 ≤ value ∧ value ≤ cell.maximumValue) →
      Took index (rounded last) t (t.drag index moves last) := by
  intro hall
  have hvalues : ∀ value ∈ [(5 : ℚ), 2], 0 ≤ value ∧ value ≤ ((10 : Int) : ℚ) := by norm_num
  have htook := hall shelterRow 0 [2] 5 (by decide) ⟨_, rfl, hvalues⟩
  have hrecorded : some (rounded 2) = some (rounded 5) := htook.recorded
  have htwo : rounded 2 = 2 := by
    unfold rounded
    norm_num
  have hfive : rounded 5 = 5 := by
    unfold rounded
    norm_num
  rw [htwo, hfive] at hrecorded
  cases hrecorded

end BucketCells

end Pledge
