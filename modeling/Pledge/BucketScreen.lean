import Mathlib.Data.Rat.Floor
import Pledge.MyBucket

/-!
# The bucket screen in use

`MyBucketViewController` together with the screens it presents: the slider screen behind
Edit, the tips popup and the confirmation screen. A run starts when the screen is opened
and takes one user or loader event after the other.
-/

namespace Pledge

/-- The slider screen; `slider` is `slider.value`, kept between the two bounds. -/
structure AdjustDonateAmount where
  donateAmount : Int
  isOneTimePaymentMode : Bool
  slider : ℚ
deriving DecidableEq, Repr

namespace AdjustDonateAmount

def viewDidLoad (donateAmount : Int) (isOneTimePaymentMode : Bool) : AdjustDonateAmount :=
  { donateAmount
    isOneTimePaymentMode
    slider := max (Constants.minAmount : ℚ) (min donateAmount Constants.maxCauseAmount) }

def sliderValueChanged (value : ℚ) (vc : AdjustDonateAmount) : AdjustDonateAmount :=
  { vc with donateAmount := ⌊value⌋, slider := value }

/-- `continueButtonPressed` up to the choice of where to go. -/
def continueButtonPressed (vc : AdjustDonateAmount) (u : UserManager) : UserManager :=
  if vc.isOneTimePaymentMode then u.setOneTimeDonateAmout ⌊vc.slider⌋ else u

end AdjustDonateAmount

/-- What is in front of the bucket screen; `rows` is the screen itself. -/
inductive Front
  | loading
  | rows
  | adjust (vc : AdjustDonateAmount)
  | tipsPopup
  | confirmation (vc : DonateConfirmation)
  | left
deriving DecidableEq, Repr

structure BucketScreen where
  vc : MyBucket
  front : Front
deriving DecidableEq, Repr

inductive BucketEvent
  | loaded (organizations : Option (List OrganisationItem)) (donates : List DonateItem)
  | loadFailed (donates : List DonateItem)
  | sliderMoved (index : ℕ) (value : Int)
  | rowDeleted (index : ℕ)
  | completeButtonPressed
  | keepBrowsingButtonPressed
  | backButtonPressed
  | editButtonPressed
  | adjustSliderChanged (value : ℚ)
  | adjustContinuePressed
  | adjustBackPressed
  | donateTips (tips : Int)
  | tipsClosed
  | confirmationBackPressed
deriving DecidableEq, Repr

namespace BucketScreen

def viewDidLoad (u : UserManager) (vc : MyBucket) : BucketScreen :=
  if vc.isOneTimePaymentMode then ⟨(vc.setupOneTimePaymentUI u).updateUI, .loading⟩
  else
    let (vc, loads) := vc.setupMonthlyPaymentUI u
    ⟨vc.updateUI, if loads then .loading else .rows⟩

/-- The bucket screen comes back to the front of the navigation stack. -/
def viewWillAppear (vc : MyBucket) : BucketScreen :=
  if vc.shouldShowTipsPopUpWhenAppear then ⟨vc.showTipsPopup, .tipsPopup⟩ else ⟨vc, .rows⟩

/-- Coming back changes only what is in front: the flag it sets was set. -/
@[simp] theorem viewWillAppear_vc (vc : MyBucket) : (viewWillAppear vc).vc = vc := by
  unfold viewWillAppear
  split
  · rename_i hflag
    simp [MyBucket.showTipsPopup, ← hflag]
  · rfl

theorem viewWillAppear_front {vc : MyBucket} {c : DonateConfirmation} :
    (viewWillAppear vc).front ≠ .confirmation c := by
  unfold viewWillAppear
  split <;> simp

/-- One event, where the screen in front can take it. -/
def step : BucketEvent → UserManager × BucketScreen → Option (UserManager × BucketScreen)
  | .loaded organizations donates, (u, ⟨vc, .loading⟩) =>
    some (u, ⟨{ vc with organizations, donates }.loaded u, .rows⟩)
  | .loadFailed donates, (u, ⟨vc, .loading⟩) => some (u, ⟨{ vc with donates }, .rows⟩)
  | .sliderMoved index value, (u, ⟨vc, .rows⟩) => some (u, ⟨vc.sliderMoved index value, .rows⟩)
  | .rowDeleted index, (u, ⟨vc, .rows⟩) => some (u, ⟨vc.rowDeleted index, .rows⟩)
  | .completeButtonPressed, (u, ⟨vc, .rows⟩) =>
    if vc.completeEnabled then some (vc.save u, ⟨vc.showTipsPopup, .tipsPopup⟩) else none
  | .keepBrowsingButtonPressed, (u, ⟨vc, .rows⟩) => some (vc.save u, ⟨vc, .left⟩)
  | .backButtonPressed, (u, ⟨vc, .rows⟩) => some (u, ⟨vc, .left⟩)
  | .editButtonPressed, (u, ⟨vc, .rows⟩) =>
    some (u, ⟨vc, .adjust (.viewDidLoad vc.donateAmount vc.isOneTimePaymentMode)⟩)
  | .adjustSliderChanged value, (u, ⟨vc, .adjust a⟩) =>
    if (Constants.minAmount : ℚ) ≤ value ∧ value ≤ Constants.maxCauseAmount then
      some (u, ⟨vc, .adjust (a.sliderValueChanged value)⟩)
    else none
  | .adjustContinuePressed, (u, ⟨vc, .adjust a⟩) =>
    some (a.continueButtonPressed u, viewWillAppear (vc.editContinued a.donateAmount))
  | .adjustBackPressed, (u, ⟨vc, .adjust _⟩) => some (u, viewWillAppear vc)
  | .donateTips tips, (u, ⟨vc, .tipsPopup⟩) =>
    some (u, ⟨vc, .confirmation (vc.showDonateConfirmation tips)⟩)
  | .tipsClosed, (u, ⟨vc, .tipsPopup⟩) => some (u, ⟨vc, .rows⟩)
  | .confirmationBackPressed, (u, ⟨vc, .confirmation _⟩) => some (u, viewWillAppear vc)
  | _, _ => none

/-- Runs of the screen whose events all satisfy `Ok`. Between two events anything else may
change the session record. -/
inductive Run (Ok : BucketScreen → BucketEvent → Prop) : UserManager → BucketScreen → Prop
  | opened (u : UserManager) (cause : Option Cause) (isOneTimePaymentMode : Bool)
      (organizations : Option (List OrganisationItem)) (myImpactDonates : Option (List DonateItem)) :
      Run Ok u (viewDidLoad u { cause, isOneTimePaymentMode, organizations, myImpactDonates })
  | step {u u' : UserManager} {b b' : BucketScreen} {e : BucketEvent} (h : Run Ok u b) (hok : Ok b e)
      (hs : BucketScreen.step e (u, b) = some (u', b')) : Run Ok u' b'
  | elsewhere {u : UserManager} {b : BucketScreen} (u' : UserManager) (h : Run Ok u b) : Run Ok u' b

/-- Once Complete was pressed, a visit of the slider screen may end only in a state in
which Complete is enabled again; and the total with the tip must be a binary32 number. -/
def Careful (b : BucketScreen) : BucketEvent → Prop
  | .adjustContinuePressed => ∀ a, b.front = .adjust a →
      b.vc.shouldShowTipsPopUpWhenAppear = true → a.donateAmount = 0
  | .adjustBackPressed =>
      b.vc.shouldShowTipsPopUpWhenAppear = true → totalSum b.vc.tableData = b.vc.donateAmount
  | .donateTips tips => Binary32.Exact (b.vc.donateAmount + tips)
  | _ => True

/-- What holds between two events: Complete is enabled exactly when the rows add up, and
neither the tips popup nor the confirmation screen is shown when they do not. -/
structure Sound (b : BucketScreen) : Prop where
  enabled : b.vc.completeEnabled = (totalSum b.vc.tableData == b.vc.donateAmount)
  popup : b.front = .tipsPopup → totalSum b.vc.tableData = b.vc.donateAmount
  pushed : ∀ vc, b.front = .confirmation vc →
    totalSum b.vc.tableData = b.vc.donateAmount ∧ totalSum vc.donateItems = vc.donateAmount ∧
      Binary32.Exact (vc.donateAmount + vc.tipsAmount)

theorem sound_of_enabled {vc : MyBucket} {front : Front}
    (h : vc.completeEnabled = (totalSum vc.tableData == vc.donateAmount))
    (hp : front ≠ .tipsPopup) (hc : ∀ vc, front ≠ .confirmation vc) : Sound ⟨vc, front⟩ :=
  ⟨h, fun hf => absurd hf hp, fun vc hf => absurd hf (hc vc)⟩

theorem sound_viewDidLoad (u : UserManager) (vc : MyBucket) : Sound (viewDidLoad u vc) := by
  unfold viewDidLoad
  split
  · exact sound_of_enabled rfl (by simp) (by simp)
  · refine sound_of_enabled rfl ?_ ?_
    · split <;> simp
    · intro vc
      split <;> simp

theorem sound_viewWillAppear {vc : MyBucket}
    (h : vc.completeEnabled = (totalSum vc.tableData == vc.donateAmount))
    (hs : vc.shouldShowTipsPopUpWhenAppear = true → totalSum vc.tableData = vc.donateAmount) :
    Sound (viewWillAppear vc) := by
  unfold viewWillAppear
  split
  · rename_i hflag
    exact ⟨h, fun _ => hs hflag, by simp⟩
  · exact sound_of_enabled h (by simp) (by simp)

theorem totalSum_editContinued (amount : Int) (vc : MyBucket) :
    totalSum (vc.editContinued amount).tableData = 0 := by
  refine List.sum_eq_zero fun x hx => ?_
  simp only [MyBucket.editContinued, MyBucket.updateUI_tableData, List.map_map, List.mem_map,
    Function.comp_apply] at hx
  obtain ⟨_, -, rfl⟩ := hx
  rfl

theorem sound_step {u u' : UserManager} {b b' : BucketScreen} {e : BucketEvent} (h : Sound b)
    (hok : Careful b e) (hs : step e (u, b) = some (u', b')) : Sound b' := by
  obtain ⟨vc, front⟩ := b
  have hen := h.enabled
  cases e <;> cases front <;>
    simp only [step, reduceCtorEq, Option.some.injEq, Prod.mk.injEq, Option.ite_none_right_eq_some]
      at hs
  case loaded.loading | sliderMoved.rows | rowDeleted.rows =>
    obtain ⟨-, rfl⟩ := hs
    exact sound_of_enabled rfl (by simp) (by simp)
  case loadFailed.loading | keepBrowsingButtonPressed.rows | backButtonPressed.rows |
      editButtonPressed.rows | tipsClosed.tipsPopup =>
    obtain ⟨-, rfl⟩ := hs
    exact sound_of_enabled hen (by simp) (by simp)
  case adjustSliderChanged.adjust =>
    obtain ⟨-, -, rfl⟩ := hs
    exact sound_of_enabled hen (by simp) (by simp)
  case completeButtonPressed.rows =>
    obtain ⟨hc, -, rfl⟩ := hs
    have htotal : totalSum vc.tableData = vc.donateAmount := by simpa [hc] using hen
    exact ⟨hen, fun _ => htotal, by simp⟩
  case adjustContinuePressed.adjust a =>
    obtain ⟨-, rfl⟩ := hs
    refine sound_viewWillAppear rfl fun hflag => ?_
    rw [totalSum_editContinued]
    exact (hok a rfl hflag).symm
  case adjustBackPressed.adjust a =>
    obtain ⟨-, rfl⟩ := hs
    exact sound_viewWillAppear hen hok
  case confirmationBackPressed.confirmation c =>
    obtain ⟨-, rfl⟩ := hs
    exact sound_viewWillAppear hen fun _ => (h.pushed c rfl).1
  case donateTips.tipsPopup tips =>
    obtain ⟨-, rfl⟩ := hs
    have htotal := h.popup rfl
    refine ⟨hen, by simp, ?_⟩
    rintro _ ⟨rfl⟩
    exact ⟨htotal, (vc.totalSum_donateItems tips).trans htotal, hok⟩

/-- What an event leaves in the session record. -/
theorem step_userManager {u u' : UserManager} {b b' : BucketScreen} {e : BucketEvent}
    (hs : step e (u, b) = some (u', b')) :
    ((e = .completeButtonPressed ∨ e = .keepBrowsingButtonPressed) ∧ u' = b.vc.save u) ∨
    (e = .adjustContinuePressed ∧ ∃ a, b.front = .adjust a ∧ u' = a.continueButtonPressed u) ∨
    (e ≠ .completeButtonPressed ∧ e ≠ .keepBrowsingButtonPressed ∧ u' = u) := by
  obtain ⟨vc, front⟩ := b
  cases e <;> cases front <;>
    simp only [step, reduceCtorEq, Option.some.injEq, Prod.mk.injEq, Option.ite_none_right_eq_some]
      at hs
  case completeButtonPressed.rows => exact .inl ⟨.inl rfl, hs.2.1.symm⟩
  case keepBrowsingButtonPressed.rows => exact .inl ⟨.inr rfl, hs.1.symm⟩
  case adjustContinuePressed.adjust a => exact .inr (.inl ⟨rfl, a, rfl, hs.1.symm⟩)
  case adjustSliderChanged.adjust => exact .inr (.inr ⟨by simp, by simp, hs.2.1.symm⟩)
  all_goals exact .inr (.inr ⟨by simp, by simp, hs.1.symm⟩)

/-- Whatever the user does, the button knows the rows. -/
theorem enabled_step {u u' : UserManager} {b b' : BucketScreen} {e : BucketEvent}
    (h : b.vc.completeEnabled = (totalSum b.vc.tableData == b.vc.donateAmount))
    (hs : step e (u, b) = some (u', b')) :
    b'.vc.completeEnabled = (totalSum b'.vc.tableData == b'.vc.donateAmount) := by
  obtain ⟨vc, front⟩ := b
  cases e <;> cases front <;>
    simp only [step, reduceCtorEq, Option.some.injEq, Prod.mk.injEq, Option.ite_none_right_eq_some]
      at hs
  case loaded.loading | sliderMoved.rows | rowDeleted.rows =>
    obtain ⟨-, rfl⟩ := hs
    rfl
  case loadFailed.loading | keepBrowsingButtonPressed.rows | backButtonPressed.rows |
      editButtonPressed.rows | tipsClosed.tipsPopup | donateTips.tipsPopup =>
    obtain ⟨-, rfl⟩ := hs
    exact h
  case adjustSliderChanged.adjust | completeButtonPressed.rows =>
    obtain ⟨-, -, rfl⟩ := hs
    exact h
  case adjustContinuePressed.adjust =>
    obtain ⟨-, rfl⟩ := hs
    rw [viewWillAppear_vc]
    rfl
  case adjustBackPressed.adjust | confirmationBackPressed.confirmation =>
    obtain ⟨-, rfl⟩ := hs
    rwa [viewWillAppear_vc]

theorem run_enabled {Ok : BucketScreen → BucketEvent → Prop} {u : UserManager} {b : BucketScreen}
    (h : Run Ok u b) :
    b.vc.completeEnabled = (totalSum b.vc.tableData == b.vc.donateAmount) := by
  induction h with
  | opened u => exact (sound_viewDidLoad u _).enabled
  | step _ _ hs ih => exact enabled_step ih hs
  | elsewhere _ _ ih => exact ih

theorem run_sound {u : UserManager} {b : BucketScreen} (h : Run Careful u b) : Sound b := by
  induction h with
  | opened u => exact sound_viewDidLoad u _
  | step _ hok hs ih => exact sound_step ih hok hs
  | elsewhere _ _ ih => exact ih

/-- In a careful run the confirmation screen is pushed with items that add up to its
amount, and what is charged there is their sum plus the tip. -/
theorem careful_confirmation_total {u : UserManager} {b : BucketScreen} {vc : DonateConfirmation}
    (h : Run Careful u b) (hf : b.front = .confirmation vc) :
    totalSum vc.donateItems = vc.donateAmount ∧
      vc.payAmount = totalSum vc.donateItems + vc.tipsAmount := by
  obtain ⟨-, htotal, hexact⟩ := (run_sound h).pushed vc hf
  exact ⟨htotal, htotal ▸ hexact⟩

/-- The state after a list of events. -/
def steps (l : List BucketEvent) (s : UserManager × BucketScreen) :
    Option (UserManager × BucketScreen) :=
  l.foldlM (fun s e => step e s) s

theorem run_steps {Ok : BucketScreen → BucketEvent → Prop} {l : List BucketEvent}
    {u u' : UserManager} {b b' : BucketScreen} (h : Run Ok u b) (hok : ∀ b, ∀ e ∈ l, Ok b e)
    (hs : steps l (u, b) = some (u', b')) : Run Ok u' b' := by
  induction l generalizing u b with
  | nil =>
    cases hs
    exact h
  | cons e l ih =>
    obtain ⟨⟨u₁, b₁⟩, h₁, hl⟩ := Option.bind_eq_some_iff.mp hs
    exact ih (.step h (hok b e (by simp)) h₁) (fun b e he => hok b e (by simp [he])) hl

def shelter : OrganisationItem := { id := "shelter" }

def donor : UserManager :=
  { user := some { email := "ann@mail.com", displayName := some "Ann Lee", defaultDonateAmount := 10 } }

/-- A monthly bucket for one organisation, opened and loaded. -/
def shelterBucket : BucketScreen :=
  ⟨{ organizations := some [shelter]
     donateAmount := 10
     tableData := [{ amount := 10, organisation := shelter }]
     completeEnabled := true }, .rows⟩

theorem run_shelterBucket (Ok : BucketScreen → BucketEvent → Prop)
    (hok : ∀ b, Ok b (.loaded (some [shelter]) [])) : Run Ok donor shelterBucket :=
  .step (.opened donor none false (some [shelter]) none) (hok _) rfl

theorem careful_confirmation_total_shelter :
    totalSum (shelterBucket.vc.showTipsPopup.showDonateConfirmation 3).donateItems = 10 ∧
      (shelterBucket.vc.showTipsPopup.showDonateConfirmation 3).payAmount = 10 + 3 := by
  have hpopup : Run Careful (shelterBucket.vc.save donor)
      ⟨shelterBucket.vc.showTipsPopup, .tipsPopup⟩ :=
    .step (e := .completeButtonPressed) (run_shelterBucket _ fun _ => trivial) trivial rfl
  have hpushed := Run.step (e := .donateTips 3) hpopup
    (show Binary32.Exact (10 + 3) by decide) rfl
  exact careful_confirmation_total hpushed rfl

/-- Complete, close the popup, take half of the amount off the row, go to Edit and back:
the popup reopens although the rows do not add up, and Donate pushes five for ten. -/
theorem not_confirmation_total :
    ¬ ∀ (u : UserManager) (b : BucketScreen) (vc : DonateConfirmation), Run (fun _ _ => True) u b →
      b.front = .confirmation vc → totalSum vc.donateItems = vc.donateAmount := by
  intro h
  have hrun : ∃ s, steps [.completeButtonPressed, .tipsClosed, .sliderMoved 0 5, .editButtonPressed,
      .adjustBackPressed, .donateTips 3] (donor, shelterBucket) = some s ∧
      ∃ vc, s.2.front = .confirmation vc ∧ totalSum vc.donateItems ≠ vc.donateAmount :=
    ⟨_, rfl, _, rfl, by decide⟩
  obtain ⟨⟨u, b⟩, hs, vc, hf, hne⟩ := hrun
  exact hne (h u b vc (run_steps (run_shelterBucket _ fun _ => trivial) (fun _ _ _ => trivial) hs) hf)

end BucketScreen

end Pledge
