import Pledge.BucketScreen
import Pledge.DonateFlow
import Pledge.RecordMirror

/-!
# The screens to pick an amount

Five screens with a slider. Each holds the amount a second time in a field that only the events of
the slider bring up to date, and hands on the field.
-/

namespace Pledge

/-- What the five screens have in common. -/
structure AmountPicker where
  minimumValue : Int
  maximumValue : Int
  donateAmount : Int
  /-- `slider.value`, which stays within the two bounds. -/
  slider : ℚ
  donateAmountLabel : String
deriving DecidableEq, Repr

/-- Where the Continue button of a screen takes an amount. -/
inductive HandedOn
  | updateDefaultDonateAmount (amount : Int)
  | defaultDonateAmount (amount : Int)
  | tmpDonateAmount (amount : Int)
  | oneTimeDonateAmout (amount : Int)
  | onContinueAction (amount : Int)
deriving DecidableEq, Repr

namespace HandedOn

def amount : HandedOn → Int
  | updateDefaultDonateAmount amount | defaultDonateAmount amount | tmpDonateAmount amount
  | oneTimeDonateAmout amount | onContinueAction amount => amount

/-- What is kept of it in the session record. -/
def store (u : UserManager) : HandedOn → UserManager
  | defaultDonateAmount amount =>
    { u with user := u.user.map fun user => { user with defaultDonateAmount := amount } }
  | tmpDonateAmount amount => { u with tmpDonateAmount := some amount }
  | oneTimeDonateAmout amount => u.setOneTimeDonateAmout amount
  | updateDefaultDonateAmount _ | onContinueAction _ => u

end HandedOn

namespace AmountPicker

def updateUI (vc : AmountPicker) : AmountPicker :=
  { vc with donateAmountLabel := "$" ++ toString vc.donateAmount }

def viewDidLoad (maximumValue donateAmount : Int) : AmountPicker :=
  updateUI
    { minimumValue := Constants.minAmount
      maximumValue
      donateAmount
      slider := max (Constants.minAmount : ℚ) (min donateAmount maximumValue)
      donateAmountLabel := "" }

def sliderValueChanged (vc : AmountPicker) (value : ℚ) : AmountPicker :=
  { vc with donateAmount := ⌊value⌋, slider := value }.updateUI

end AmountPicker

def Constants.maxAmount : Int := 42

/-! ## The screens -/

namespace ChooseAmountStepOne

def viewDidLoad (donateAmount : Int) : AmountPicker := .viewDidLoad Constants.maxCauseAmount donateAmount

/-- The amount of its `continueButtonPressed`. -/
def handsOn (vc : AmountPicker) : List HandedOn := [.updateDefaultDonateAmount vc.donateAmount]

theorem continueButtonPressed_eq : ∃ completion : Bool → Prog, ∀ donateAmount,
    continueButtonPressed donateAmount =
      .emit .startActivityAnimating (FirestoreManager.updateDefaultDonateAmount donateAmount completion) :=
  ⟨_, fun _ => rfl⟩

end ChooseAmountStepOne

namespace StartDonate

def viewDidLoad (donateAmount : Int) : AmountPicker := .viewDidLoad Constants.maxCauseAmount donateAmount

/-- The amounts of its `continueButtonPressed`, in their order. -/
def handsOn (vc : AmountPicker) : List HandedOn :=
  [.updateDefaultDonateAmount vc.donateAmount, .defaultDonateAmount vc.donateAmount]

theorem continueButtonPressed_eq (donateAmount : Int) :
    continueButtonPressed donateAmount =
      (FirestoreManager.updateDefaultDonateAmount donateAmount fun _ => .stop).andThen
        (.modify (fun d => d.setUserManager (HandedOn.store d.userManager (.defaultDonateAmount donateAmount)))
          .stop) := rfl

end StartDonate

namespace DonateCause

def viewDidLoad (donateAmount : Int) : AmountPicker := .viewDidLoad Constants.maxCauseAmount donateAmount

def handsOn (vc : AmountPicker) : List HandedOn := [.tmpDonateAmount vc.donateAmount]

end DonateCause

namespace DonateOrganization

def viewDidLoad (donateAmount : Int) : AmountPicker := .viewDidLoad Constants.maxAmount donateAmount

def handsOn (vc : AmountPicker) : List HandedOn := [.tmpDonateAmount vc.donateAmount]

end DonateOrganization

namespace AdjustDonateAmount

def handsOn (isOneTimePaymentMode causeOrOrganisationToPayOneTime : Bool) (vc : AmountPicker) : List HandedOn :=
  (if isOneTimePaymentMode then [.oneTimeDonateAmout ⌊vc.slider⌋] else []) ++
    if causeOrOrganisationToPayOneTime then [.oneTimeDonateAmout vc.donateAmount]
    else [.onContinueAction vc.donateAmount]

/-- The screen behind the bucket, with its bounds and its label. -/
def picker (vc : AdjustDonateAmount) : AmountPicker :=
  .updateUI ⟨Constants.minAmount, Constants.maxCauseAmount, vc.donateAmount, vc.slider, ""⟩

theorem picker_viewDidLoad (donateAmount : Int) (isOneTimePaymentMode : Bool) :
    (viewDidLoad donateAmount isOneTimePaymentMode).picker = .viewDidLoad Constants.maxCauseAmount donateAmount :=
  rfl

theorem picker_sliderValueChanged (vc : AdjustDonateAmount) (value : ℚ) :
    (vc.sliderValueChanged value).picker = vc.picker.sliderValueChanged value := rfl

/-- What the bucket's own slider screen leaves in the session record is what it hands on. -/
theorem continueButtonPressed_eq (vc : AdjustDonateAmount) (u : UserManager) :
    vc.continueButtonPressed u = (handsOn vc.isOneTimePaymentMode false vc.picker).foldl HandedOn.store u := by
  unfold continueButtonPressed handsOn
  cases vc.isOneTimePaymentMode <;> rfl

end AdjustDonateAmount

/-- The five screens. -/
inductive AmountScreen
  | adjustDonateAmount (isOneTimePaymentMode causeOrOrganisationToPayOneTime : Bool)
  | chooseAmountStepOne
  | startDonate
  | donateCause
  | donateOrganization
deriving DecidableEq, Repr

namespace AmountScreen

def maximum : AmountScreen → Int
  | donateOrganization => Constants.maxAmount
  | _ => Constants.maxCauseAmount

def viewDidLoad : AmountScreen → Int → AmountPicker
  | adjustDonateAmount .., donateAmount => .viewDidLoad Constants.maxCauseAmount donateAmount
  | chooseAmountStepOne, donateAmount => ChooseAmountStepOne.viewDidLoad donateAmount
  | startDonate, donateAmount => StartDonate.viewDidLoad donateAmount
  | donateCause, donateAmount => DonateCause.viewDidLoad donateAmount
  | donateOrganization, donateAmount => DonateOrganization.viewDidLoad donateAmount

/-- What the Continue button hands on. -/
def handsOn : AmountScreen → AmountPicker → List HandedOn
  | adjustDonateAmount isOneTimePaymentMode causeOrOrganisationToPayOneTime, vc =>
    AdjustDonateAmount.handsOn isOneTimePaymentMode causeOrOrganisationToPayOneTime vc
  | chooseAmountStepOne, vc => ChooseAmountStepOne.handsOn vc
  | startDonate, vc => StartDonate.handsOn vc
  | donateCause, vc => DonateCause.handsOn vc
  | donateOrganization, vc => DonateOrganization.handsOn vc

/-- The initial amounts: where no caller sets one it is the default of the screen. -/
inductive Supplied : AmountScreen → Int → Prop
  | howMonthlyGivenWorks : Supplied chooseAmountStepOne 0
  | startDonate : Supplied startDonate 5
  | donateCause : Supplied donateCause 5
  | donateOrganization : Supplied donateOrganization 5
  | editButtonPressed (vc : MyBucket) : Supplied (adjustDonateAmount vc.isOneTimePaymentMode false) vc.donateAmount
  | showAdjustOneTimePaymentAmount (u : UserManager) : Supplied (adjustDonateAmount true true) u.oneTimeDonateAmout

/-- The screen after events of its slider. -/
def after (screen : AmountScreen) (donateAmount : Int) (values : List ℚ) : AmountPicker :=
  values.foldl AmountPicker.sliderValueChanged (screen.viewDidLoad donateAmount)

/-- The label and whatever is handed on show the integer part of the slider. -/
structure ShowsSlider (screen : AmountScreen) (vc : AmountPicker) : Prop where
  label : vc.donateAmountLabel = "$" ++ toString ⌊vc.slider⌋
  handedOn : ∀ x ∈ screen.handsOn vc, x.amount = ⌊vc.slider⌋
  min_le : Constants.minAmount ≤ ⌊vc.slider⌋
  le_max : ⌊vc.slider⌋ ≤ screen.maximum

variable {screen : AmountScreen} {donateAmount : Int} {values : List ℚ} {value : ℚ} {vc : AmountPicker}

theorem viewDidLoad_eq (screen : AmountScreen) (donateAmount : Int) :
    screen.viewDidLoad donateAmount = .viewDidLoad screen.maximum donateAmount := by
  cases screen <;> rfl

theorem min_le_maximum (screen : AmountScreen) : Constants.minAmount ≤ screen.maximum := by
  have hcause : Constants.minAmount ≤ Constants.maxCauseAmount := by decide
  cases screen with
  | donateOrganization => decide
  | _ => exact hcause

/-- The field is handed on by every screen, and all else that is is the integer part itself. -/
theorem handedOn_iff :
    (∀ x ∈ screen.handsOn vc, x.amount = ⌊vc.slider⌋) ↔ vc.donateAmount = ⌊vc.slider⌋ := by
  cases screen with
  | adjustDonateAmount isOneTimePaymentMode causeOrOrganisationToPayOneTime =>
    cases isOneTimePaymentMode <;> cases causeOrOrganisationToPayOneTime <;>
      simp [handsOn, AdjustDonateAmount.handsOn, HandedOn.amount]
  | chooseAmountStepOne => simp [handsOn, ChooseAmountStepOne.handsOn, HandedOn.amount]
  | startDonate => simp [handsOn, StartDonate.handsOn, HandedOn.amount]
  | donateCause => simp [handsOn, DonateCause.handsOn, HandedOn.amount]
  | donateOrganization => simp [handsOn, DonateOrganization.handsOn, HandedOn.amount]

/-- An event of the slider brings the field and the label up to date. -/
theorem showsSlider_sliderValueChanged (vc : AmountPicker) (hmin : (Constants.minAmount : ℚ) ≤ value)
    (hmax : value ≤ screen.maximum) : screen.ShowsSlider (vc.sliderValueChanged value) where
  label := rfl
  handedOn := handedOn_iff.mpr rfl
  min_le := Int.le_floor.mpr hmin
  le_max := by
    have hle := Int.floor_mono hmax
    rwa [Int.floor_intCast] at hle

/-- The slider starts at the initial amount or at the bound next to it. -/
theorem floor_viewDidLoad (maximumValue donateAmount : Int) :
    ⌊(AmountPicker.viewDidLoad maximumValue donateAmount).slider⌋ =
      max Constants.minAmount (min donateAmount maximumValue) := by
  have hslider : (AmountPicker.viewDidLoad maximumValue donateAmount).slider =
      ((max Constants.minAmount (min donateAmount maximumValue) : Int) : ℚ) := by
    push_cast
    rfl
  rw [hslider, Int.floor_intCast]

theorem showsSlider_viewDidLoad_iff :
    screen.ShowsSlider (screen.viewDidLoad donateAmount) ↔
      Constants.minAmount ≤ donateAmount ∧ donateAmount ≤ screen.maximum := by
  have hle := min_le_maximum screen
  have hfloor := floor_viewDidLoad screen.maximum donateAmount
  rw [viewDidLoad_eq]
  constructor
  · intro hshows
    have hfield : donateAmount = _ := handedOn_iff.mp hshows.handedOn
    rw [hfloor] at hfield
    omega
  · rintro ⟨hmin, hmax⟩
    have hsame : ⌊(AmountPicker.viewDidLoad screen.maximum donateAmount).slider⌋ = donateAmount := by
      rw [hfloor]
      omega
    refine ⟨?_, handedOn_iff.mpr hsame.symm, ?_, ?_⟩
    · rw [hsame]
      rfl
    · rwa [hsame]
    · rwa [hsame]

/-- What a screen hands on and shows is the integer part of its slider exactly when the slider was
moved or the initial amount is within its bounds. -/
theorem showsSlider_iff (screen : AmountScreen) (donateAmount : Int) (values : List ℚ)
    (hvalues : ∀ value ∈ values, (Constants.minAmount : ℚ) ≤ value ∧ value ≤ screen.maximum) :
    screen.ShowsSlider (screen.after donateAmount values) ↔
      values ≠ [] ∨ (Constants.minAmount ≤ donateAmount ∧ donateAmount ≤ screen.maximum) := by
  rcases List.eq_nil_or_concat values with rfl | ⟨moves, value, rfl⟩
  · simpa [after] using showsSlider_viewDidLoad_iff
  · obtain ⟨hmin, hmax⟩ := hvalues value (by simp)
    have hshows : screen.ShowsSlider ((screen.after donateAmount moves).sliderValueChanged value) :=
      showsSlider_sliderValueChanged _ hmin hmax
    refine iff_of_true ?_ (.inl (by simp))
    rw [after, List.concat_eq_append, List.foldl_append]
    exact hshows

theorem showsSlider_moved :
    chooseAmountStepOne.ShowsSlider (chooseAmountStepOne.after 0 [7]) ↔
      [(7 : ℚ)] ≠ [] ∨ (Constants.minAmount ≤ 0 ∧ 0 ≤ chooseAmountStepOne.maximum) :=
  showsSlider_iff chooseAmountStepOne 0 [7] (by norm_num [Constants.minAmount, maximum, Constants.maxCauseAmount])

/-- Opened from the explanation of monthly giving the slider stands at one, and zero is stored. -/
theorem not_showsSlider :
    ¬ ∀ (screen : AmountScreen) (donateAmount : Int) (values : List ℚ), screen.Supplied donateAmount →
      (∀ value ∈ values, (Constants.minAmount : ℚ) ≤ value ∧ value ≤ screen.maximum) →
      screen.ShowsSlider (screen.after donateAmount values) := by
  intro hall
  have hshows := hall chooseAmountStepOne 0 [] .howMonthlyGivenWorks (by simp)
  have hbounds := showsSlider_viewDidLoad_iff.mp hshows
  exact absurd hbounds.1 (by decide)

end AmountScreen

end Pledge
