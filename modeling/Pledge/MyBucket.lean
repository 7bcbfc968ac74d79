import Mathlib.Algebra.BigOperators.Group.List.Basic
import Pledge.Format.Binary32
import Pledge.Model

/-!
# MyBucketViewController

The fields of the bucket screen and what its methods do to them. Loading and navigation
are modelled where the screen is used.
-/

namespace Pledge

/-- `completeEnabled` is `completeButton.isUserInteractionEnabled`. -/
structure MyBucket where
  cause : Option Cause := none
  isOneTimePaymentMode : Bool := false
  organizations : Option (List OrganisationItem) := none
  myImpactDonates : Option (List DonateItem) := none
  donateAmount : Int := 0
  shouldShowTipsPopUpWhenAppear : Bool := false
  donates : List DonateItem := []
  tableData : List OrganisationWithAmount := []
  completeEnabled : Bool := false
deriving DecidableEq, Repr

/-- The fields set on a `DonateConfirmationViewController` before it is pushed. -/
structure DonateConfirmation where
  donateAmount : Int
  tipsAmount : Int
  donateItems : List OrganisationWithAmount
  isOneTimeMode : Bool
deriving DecidableEq, Repr

/-- The `amount` handed to `pay`: `Float(donateAmount + tipsAmount)`. -/
def DonateConfirmation.payAmount (vc : DonateConfirmation) : Int :=
  Binary32.ofInt (vc.donateAmount + vc.tipsAmount)

namespace DonateType

def ofOneTimeMode (isOneTimePaymentMode : Bool) : DonateType :=
  if isOneTimePaymentMode then .once else .monthly

end DonateType

/-- `if let completeDonation = …, completeDonation.type == type`. -/
def UserManager.savedRows (u : UserManager) (type : DonateType) :
    Option (List OrganisationWithAmount) :=
  match u.completeDonation with
  | some completeDonation =>
    if completeDonation.type = type then some completeDonation.donatedOrganisations else none
  | none => none

namespace MyBucket

def updateUI (vc : MyBucket) : MyBucket :=
  { vc with completeEnabled := totalSum vc.tableData == vc.donateAmount }

def donateType (vc : MyBucket) : DonateType := .ofOneTimeMode vc.isOneTimePaymentMode

def ofDonate (donate : DonateItem) : OrganisationWithAmount :=
  { amount := donate.amount, organisation := donate.organisation, donateId := some donate.id }

/-! ## Setting up -/

/-- `setupOneTimePaymentUI`, up to its call of `loadData`. -/
def setupOneTimePaymentUI (u : UserManager) (vc : MyBucket) : MyBucket :=
  let vc := { vc with donateAmount := u.oneTimeDonateAmout }
  match u.savedRows .once with
  | some rows => updateUI { vc with tableData := rows }
  | none => vc

/-- `setupMonthlyPaymentUI`; `true` when it calls `loadData`. -/
def setupMonthlyPaymentUI (u : UserManager) (vc : MyBucket) : MyBucket × Bool :=
  let vc := { vc with
    donateAmount := (u.tmpDonateAmount <|> u.user.map LendUser.defaultDonateAmount).getD 0 }
  match vc.myImpactDonates, u.savedRows .monthly with
  | some myImpactDonates, _ =>
    (updateUI { vc with tableData := myImpactDonates.map ofDonate }, false)
  | none, some rows => (updateUI { vc with tableData := rows }, false)
  | none, none => (updateUI vc, true)

/-! ## Loaded rows -/

/-- One row for each organisation, with its first pledge; what is left of the pledges. -/
def organizationRows :
    List OrganisationItem → List DonateItem → List OrganisationWithAmount × List DonateItem
  | [], donatesToAdd => ([], donatesToAdd)
  | causeOrgItem :: rest, donatesToAdd =>
    match donatesToAdd.find? (·.organisation.id == causeOrgItem.id) with
    | some donate =>
      let (rows, left) := organizationRows rest
        (donatesToAdd.eraseP (·.organisation.id == causeOrgItem.id))
      ({ amount := donate.amount, organisation := causeOrgItem, donateId := some donate.id } :: rows,
        left)
    | none =>
      let (rows, left) := organizationRows rest donatesToAdd
      ({ amount := 0, organisation := causeOrgItem } :: rows, left)

/-- The body of `for cdItem in completeDonatation.donatedOrganisations`. -/
def mergeRow (rows : List OrganisationWithAmount) (cdItem : OrganisationWithAmount) :
    List OrganisationWithAmount :=
  match rows.findIdx? (·.organisation.id == cdItem.organisation.id) with
  | some index => rows.modify index fun row => { row with amount := cdItem.amount }
  | none => rows ++ [cdItem]

/-- The saved bucket of the same type is merged; without one a single row takes it all. -/
def mergeSaved (saved : Option (List OrganisationWithAmount)) (donateAmount : Int)
    (rows : List OrganisationWithAmount) : List OrganisationWithAmount :=
  match saved, rows with
  | some saved, rows => saved.foldl mergeRow rows
  | none, [row] => [{ row with amount := donateAmount }]
  | none, rows => rows

/-- The rows computed by `loadDataCompletionHandler`. -/
def loadedRows (u : UserManager) (vc : MyBucket) : List OrganisationWithAmount :=
  let (rows, donatesToAdd) := organizationRows (vc.organizations.getD []) vc.donates
  if vc.isOneTimePaymentMode then mergeSaved (u.savedRows .once) vc.donateAmount rows
  else mergeSaved (u.savedRows .monthly) vc.donateAmount (rows ++ donatesToAdd.map ofDonate)

/-- `loadDataCompletionHandler(true)`. -/
def loaded (u : UserManager) (vc : MyBucket) : MyBucket :=
  updateUI { vc with tableData := vc.loadedRows u }

/-! ## Editing -/

/-- `onSliderActionMoved` of the cell at `index`. -/
def sliderMoved (index : ℕ) (value : Int) (vc : MyBucket) : MyBucket :=
  updateUI { vc with tableData := vc.tableData.modify index fun row => { row with amount := value } }

/-- `onDeleteAction` of the cell at `index`. -/
def rowDeleted (index : ℕ) (vc : MyBucket) : MyBucket :=
  updateUI { vc with tableData := vc.tableData.eraseIdx index }

/-- `onContinueAction` of the screen pushed by `editButtonPressed`. -/
def editContinued (amount : Int) (vc : MyBucket) : MyBucket :=
  updateUI { vc with
    donateAmount := amount
    tableData := vc.tableData.map fun row => { row with amount := 0 } }

/-! ## Leaving -/

/-- What `completeButtonPressed` and `keepBrowsingButtonPressed` save. -/
def save (vc : MyBucket) (u : UserManager) : UserManager :=
  if vc.isOneTimePaymentMode then
    { u with completeDonation := some { donatedOrganisations := vc.tableData, type := .once } }
  else
    { u with
      completeDonation := some { donatedOrganisations := vc.tableData, type := .monthly }
      tmpDonateAmount := some vc.donateAmount }

def showTipsPopup (vc : MyBucket) : MyBucket := { vc with shouldShowTipsPopUpWhenAppear := true }

/-- The loaded pledges whose organisation is on no row any more, with amount zero. -/
def deletedDonates (vc : MyBucket) : List OrganisationWithAmount :=
  (vc.donates.filter fun donateItem =>
    !vc.tableData.any (·.organisation.id == donateItem.organisation.id)).map
      fun donateItem => { ofDonate donateItem with amount := 0 }

def showDonateConfirmation (tips : Int) (vc : MyBucket) : DonateConfirmation :=
  { donateAmount := vc.donateAmount
    tipsAmount := tips
    donateItems := if vc.isOneTimePaymentMode then vc.tableData else vc.tableData ++ vc.deletedDonates
    isOneTimeMode := vc.isOneTimePaymentMode }

@[simp] theorem updateUI_tableData (vc : MyBucket) : vc.updateUI.tableData = vc.tableData := rfl

@[simp] theorem updateUI_donateAmount (vc : MyBucket) :
    vc.updateUI.donateAmount = vc.donateAmount := rfl

@[simp] theorem updateUI_donates (vc : MyBucket) : vc.updateUI.donates = vc.donates := rfl

@[simp] theorem updateUI_isOneTimePaymentMode (vc : MyBucket) :
    vc.updateUI.isOneTimePaymentMode = vc.isOneTimePaymentMode := rfl

@[simp] theorem updateUI_completeEnabled (vc : MyBucket) :
    vc.updateUI.completeEnabled = (totalSum vc.tableData == vc.donateAmount) := rfl

/-- The rows added for deletion do not change the total. -/
theorem totalSum_donateItems (tips : Int) (vc : MyBucket) :
    totalSum (vc.showDonateConfirmation tips).donateItems = totalSum vc.tableData := by
  have hzero : totalSum vc.deletedDonates = 0 := by
    refine List.sum_eq_zero fun x hx => ?_
    simp only [deletedDonates, List.map_map, List.mem_map, Function.comp_apply] at hx
    obtain ⟨_, -, rfl⟩ := hx
    rfl
  unfold showDonateConfirmation
  split
  · rfl
  · simpa [totalSum] using hzero

end MyBucket

end Pledge
