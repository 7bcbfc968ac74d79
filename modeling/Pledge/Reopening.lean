import Pledge.BucketMerge
import Pledge.Sessions

/-!
# Keeping a bucket and coming back to it

Keep Browsing and then Complete Donation on the home screen. A one-time bucket gets its amount
back from the persisted one, which only the slider screens write.
-/

namespace Pledge

open EventLoop

/-- What `Int(slider.value)` can be on the slider screen. -/
def InSlider (amount : Int) : Prop := Constants.minAmount ≤ amount ∧ amount ≤ Constants.maxCauseAmount

/-- The slider screen of the donate flow hands on what its slider can show. -/
def Interaction.Picked : Interaction → Prop
  | .adjustContinuePressed donateAmount | .adjustBackPressed donateAmount => InSlider donateAmount
  | _ => True

/-! ## The persisted amount and the bucket's own -/

/-- The two copies of a one-time amount agree, also on the slider screen behind Edit. -/
structure Aligned (u : UserManager) (b : BucketScreen) : Prop where
  amount : b.vc.isOneTimePaymentMode = true → u.oneTimeDonateAmout = b.vc.donateAmount
  mode : ∀ a, b.front = .adjust a → a.isOneTimePaymentMode = b.vc.isOneTimePaymentMode
  slider : ∀ a, b.front = .adjust a → b.vc.isOneTimePaymentMode = true →
    a.donateAmount = ⌊a.slider⌋ ∧ InSlider a.donateAmount

section Aligned

variable {u u' : UserManager} {vc vc' : MyBucket} {front : Front} {b b' : BucketScreen}

theorem oneTimeDonateAmout_congr (h : u'.storedOneTimeDonateAmout = u.storedOneTimeDonateAmout) :
    u'.oneTimeDonateAmout = u.oneTimeDonateAmout := by
  unfold UserManager.oneTimeDonateAmout
  rw [h]

theorem aligned_of_front (hf : ∀ a, front ≠ .adjust a)
    (h : vc.isOneTimePaymentMode = true → u.oneTimeDonateAmout = vc.donateAmount) :
    Aligned u ⟨vc, front⟩ :=
  ⟨h, fun a ha => absurd ha (hf a), fun a ha => absurd ha (hf a)⟩

theorem Aligned.congr (h : Aligned u b) (hu : u'.oneTimeDonateAmout = u.oneTimeDonateAmout) :
    Aligned u' b :=
  ⟨fun hm => hu.trans (h.amount hm), h.mode, h.slider⟩

theorem aligned_viewDidLoad (u : UserManager) (vc : MyBucket) :
    Aligned u (BucketScreen.viewDidLoad u vc) := by
  unfold BucketScreen.viewDidLoad
  split
  · apply aligned_of_front (by simp)
    intro _
    unfold MyBucket.setupOneTimePaymentUI
    dsimp only
    split <;> rfl
  · rename_i hmode
    apply aligned_of_front
    · intro a
      split <;> simp
    · have hkept := (MyBucket.viewDidLoad_fields u vc).2.1
      rw [BucketScreen.viewDidLoad, if_neg hmode] at hkept
      intro hm
      exact absurd (hkept.symm.trans hm) hmode

theorem aligned_viewWillAppear
    (h : vc.isOneTimePaymentMode = true → u.oneTimeDonateAmout = vc.donateAmount) :
    Aligned u (BucketScreen.viewWillAppear vc) := by
  unfold BucketScreen.viewWillAppear
  split
  · exact aligned_of_front (by simp) h
  · exact aligned_of_front (by simp) h

/-- Within its bounds the slider takes the amount as it is. -/
theorem slider_viewDidLoad {amount : Int} (h : InSlider amount) (mode : Bool) :
    ⌊(AdjustDonateAmount.viewDidLoad amount mode).slider⌋ = amount := by
  obtain ⟨hmin, hmax⟩ := h
  have hle : (amount : ℚ) ≤ Constants.maxCauseAmount := by exact_mod_cast hmax
  have hge : (Constants.minAmount : ℚ) ≤ amount := by exact_mod_cast hmin
  unfold AdjustDonateAmount.viewDidLoad
  dsimp only
  rw [min_eq_left hle, max_eq_right hge]
  exact Int.floor_intCast amount

theorem inSlider_floor {value : ℚ} (hmin : (Constants.minAmount : ℚ) ≤ value)
    (hmax : value ≤ Constants.maxCauseAmount) : InSlider ⌊value⌋ := by
  constructor
  · apply Int.le_floor.mpr
    exact hmin
  · have hfloor := Int.floor_le value
    exact_mod_cast hfloor.trans hmax

/-- Every event of the screen keeps the amounts together. -/
theorem aligned_step {e : BucketEvent} (hu : InSlider u.oneTimeDonateAmout) (h : Aligned u b)
    (hs : BucketScreen.step e (u, b) = some (u', b')) :
    InSlider u'.oneTimeDonateAmout ∧ Aligned u' b' := by
  obtain ⟨vc, front⟩ := b
  have hsave : (vc.save u).oneTimeDonateAmout = u.oneTimeDonateAmout := by
    unfold MyBucket.save
    split <;> rfl
  cases e <;> cases front <;>
    simp only [BucketScreen.step, reduceCtorEq, Option.some.injEq, Prod.mk.injEq,
      Option.ite_none_right_eq_some] at hs
  case loaded.loading | loadFailed.loading | sliderMoved.rows | rowDeleted.rows | backButtonPressed.rows |
      tipsClosed.tipsPopup | donateTips.tipsPopup =>
    obtain ⟨rfl, rfl⟩ := hs
    exact ⟨hu, aligned_of_front (by simp) h.amount⟩
  case completeButtonPressed.rows =>
    obtain ⟨-, rfl, rfl⟩ := hs
    rw [hsave]
    exact ⟨hu, aligned_of_front (by simp) fun hm => hsave.trans (h.amount hm)⟩
  case keepBrowsingButtonPressed.rows =>
    obtain ⟨rfl, rfl⟩ := hs
    rw [hsave]
    exact ⟨hu, aligned_of_front (by simp) fun hm => hsave.trans (h.amount hm)⟩
  case editButtonPressed.rows =>
    obtain ⟨rfl, rfl⟩ := hs
    refine ⟨hu, h.amount, ?_, ?_⟩
    · rintro _ ⟨rfl⟩
      rfl
    · rintro _ ⟨rfl⟩ hm
      have hin : InSlider vc.donateAmount := by
        rw [← h.amount hm]
        exact hu
      exact ⟨(slider_viewDidLoad hin _).symm, hin⟩
  case adjustSliderChanged.adjust value a =>
    obtain ⟨⟨hmin, hmax⟩, rfl, rfl⟩ := hs
    refine ⟨hu, h.amount, ?_, ?_⟩
    · rintro _ ⟨rfl⟩
      exact h.mode a rfl
    · rintro _ ⟨rfl⟩ -
      exact ⟨rfl, inSlider_floor hmin hmax⟩
  case adjustContinuePressed.adjust a =>
    obtain ⟨rfl, rfl⟩ := hs
    have hmode := h.mode a rfl
    unfold AdjustDonateAmount.continueButtonPressed
    split
    · rename_i hm
      obtain ⟨hslider, hin⟩ := h.slider a rfl (hmode.symm.trans hm)
      rw [← hslider]
      exact ⟨hin, aligned_viewWillAppear fun _ => rfl⟩
    · rename_i hm
      refine ⟨hu, aligned_viewWillAppear fun hm' => ?_⟩
      exact absurd (hmode.trans hm') hm
  case adjustBackPressed.adjust | confirmationBackPressed.confirmation =>
    obtain ⟨rfl, rfl⟩ := hs
    exact ⟨hu, aligned_viewWillAppear h.amount⟩

end Aligned

/-! ## Between two touches -/

/-- The persisted amount is one of the slider's, and the bucket in front agrees with it. -/
structure InStep (a : App) : Prop where
  stored : InSlider a.userManager.oneTimeDonateAmout
  screen : ∀ below screen, a.page = .bucket below screen → Aligned a.userManager screen
  below : ∀ below screen, a.page = .bucket below screen → below.screen = none

section InStep

variable {a b a' : App} {i : Interaction} {l : List Effect} {w w' : World} {vc : MyBucket}

theorem inStep_of_screen (hu : InSlider a.userManager.oneTimeDonateAmout)
    (hs : a.page.screen = none) : InStep a := by
  have hnone : ∀ below screen, a.page ≠ .bucket below screen := by
    intro below screen hp
    rw [hp] at hs
    cases hs
  exact ⟨hu, fun below screen hp => absurd hp (hnone below screen),
    fun below screen hp => absurd hp (hnone below screen)⟩

theorem InStep.congr (h : InStep a) (hp : b.page = a.page)
    (hu : b.userManager.oneTimeDonateAmout = a.userManager.oneTimeDonateAmout) : InStep b :=
  ⟨hu ▸ h.stored, fun below screen hb => (h.screen below screen (hp ▸ hb)).congr hu,
    fun below screen hb => h.below below screen (hp ▸ hb)⟩

/-- Of what is shown only the rows of a bucket matter. -/
theorem inStep_foldl_shown (h : InStep a) (hl : ∀ vc,
    .reloadData vc ∈ l ∨ .bucketNetworkErrorAlert vc ∈ l → Aligned a.userManager ⟨vc, .rows⟩) :
    InStep (l.foldl App.shown a) := by
  refine (App.foldl_shown (P := fun b => b.userManager = a.userManager ∧ InStep b)
    (fun b o ho hb => ?_) ⟨rfl, h⟩).2
  obtain ⟨hu, hb⟩ := hb
  have hgone : ∀ page, page.screen = none → InStep { b with page } :=
    fun page hs => inStep_of_screen (a := { b with page }) hb.stored hs
  have hshows : ∀ below screen vc, b.page = .bucket below screen →
      .reloadData vc ∈ l ∨ .bucketNetworkErrorAlert vc ∈ l →
      InStep { b with page := .bucket below ⟨vc, .rows⟩ } := by
    intro below screen vc hp hvc
    refine ⟨hb.stored, ?_, ?_⟩
    · rintro _ _ ⟨⟩
      show Aligned b.userManager _
      rw [hu]
      exact hl vc hvc
    · rintro _ _ ⟨⟩
      exact hb.below below screen hp
  unfold App.shown
  split
  case h_1 => exact ⟨hu, (hgone .auth rfl).congr rfl rfl⟩
  case h_2 | h_3 | h_4 | h_5 | h_9 => exact ⟨hu, hgone _ rfl⟩
  case h_6 => exact ⟨hu, hb.congr rfl rfl⟩
  case h_7 vc below screen hp => exact ⟨hu, hshows below screen vc hp (.inl ho)⟩
  case h_8 vc below screen hp => exact ⟨hu, hshows below screen vc hp (.inr ho)⟩
  case h_10 => exact ⟨hu, hb⟩

/-- A checkout leaves the persisted amount alone. -/
theorem stored_of_checkout {c : DonateConfirmation} {h : List Frame}
    (hy : c.completeCheckoutButtonPressed.Yields Answers w h w' l) :
    w'.1.userManager.storedOneTimeDonateAmout = w.1.userManager.storedOneTimeDonateAmout := by
  have hR : Respects (checkingOut c) Answers fun w w' : World =>
      w'.1.userManager.storedOneTimeDonateAmout = w.1.userManager.storedOneTimeDonateAmout := by
    refine ⟨fun _ => rfl, fun _ _ _ h h' => h'.trans h, fun s f hf => ?_, fun s r a s' _ h => ?_⟩
    · rcases hf with rfl | ⟨-, g, rfl⟩ <;> rfl
    · rw [(answers_session h).1]
  exact (within_yields hR checkingOut_completeCheckoutButtonPressed hy).1

/-- A one-time bucket stays at the persisted amount while it loads. -/
theorem aligned_of_shown {h : List Frame} (hy : vc.viewDidLoad.Yields Answers w h w' l) {vc' : MyBucket}
    (hvc : .reloadData vc' ∈ l ∨ .bucketNetworkErrorAlert vc' ∈ l) :
    Aligned w.1.userManager ⟨vc', .rows⟩ := by
  have hbrowses : ∀ o ∈ l, Effect.Browses (fun vc' => vc'.isOneTimePaymentMode = vc.isOneTimePaymentMode) o :=
    (within_yields (respects_browses fun _ _ _ _ h => h) (within_viewDidLoad vc) hy).2
  have hmode : vc'.isOneTimePaymentMode = vc.isOneTimePaymentMode := by
    rcases hvc with hvc | hvc
    · exact hbrowses _ hvc
    · exact hbrowses _ hvc
  apply aligned_of_front (by simp)
  intro hm
  have honce := hmode.symm.trans hm
  have hset := (aligned_viewDidLoad w.1.userManager vc).amount
    ((MyBucket.viewDidLoad_fields _ vc).2.1.trans honce)
  rw [hset]
  have hload := MyBucket.yields_viewDidLoad.mp hy
  rw [if_pos (MyBucket.viewDidLoad_once _ honce)] at hload
  have hsignedIn : (BucketScreen.viewDidLoad w.1.userManager vc).vc.isOneTimePaymentMode = false →
      w.1.currentUser = some "" := by
    intro hfalse
    rw [(MyBucket.viewDidLoad_fields _ vc).2.1, honce] at hfalse
    cases hfalse
  have hends := MyBucket.loadEnds_loadData hsignedIn hload
  rcases hvc with hvc | hvc
  · obtain ⟨organizations, donates, rfl, -⟩ := hends.shown vc' hvc
    rfl
  · obtain ⟨donates, rfl, -⟩ := hends.failed vc' hvc
    rfl

theorem inStep_opens {below : Page} (hin : InStep a) (hpicked : i.Picked) (h : App.Opens a i below vc b) :
    InStep (b.pushed below vc).1 := by
  have hstored : InSlider b.userManager.oneTimeDonateAmout := by
    cases h with
    | adjusted => exact hpicked
    | donate | reset | created | completeDonation | myImpacts => exact hin.stored
  refine ⟨hstored, ?_, ?_⟩
  · rintro _ _ ⟨⟩
    exact aligned_viewDidLoad b.userManager vc
  · rintro _ _ ⟨⟩
    cases h with
    | adjusted hp | created hp => rw [hp]; rfl
    | donate | reset | completeDonation | myImpacts => rfl

/-- Whatever is touched, the amounts stay together. -/
theorem inStep_step (hin : InStep a) (hpicked : i.Picked)
    (hs : App.Step (fun _ => Answers) a (i, l) a') : InStep a' := by
  obtain ⟨b, p, w', hpress, hy, rfl⟩ := hs
  dsimp only at hpress hy
  have hsame : ∀ (c : App) w₁, InStep c →
      w₁.1.userManager.storedOneTimeDonateAmout = c.userManager.storedOneTimeDonateAmout →
      InStep { c with world := w₁ } :=
    fun c w₁ hc hu => hc.congr rfl (oneTimeDonateAmout_congr hu)
  cases App.press_cases hpress with
  | @calls _ page _ hi hp =>
    have hbrowses := within_yields (respects_browses fun _ _ _ _ h => h)
      (within_call (P := fun _ => False) hi) hy
    have hpage : InStep { a with page } := by
      rcases hp with rfl | ⟨-, authentication, rfl⟩
      · exact hin
      · exact inStep_of_screen (a := { a with page := .authenticating authentication }) hin.stored rfl
    refine inStep_foldl_shown (hsame _ _ hpage hbrowses.1.oneTime) fun vc hvc => ?_
    rcases hvc with hvc | hvc
    · exact (hbrowses.2 _ hvc).elim
    · exact (hbrowses.2 _ hvc).elim
  | @leads _ page h =>
    obtain ⟨rfl, rfl⟩ := yields_stop.mp hy
    apply inStep_of_screen (a := { a with page }) hin.stored
    cases h with
    | presentRoot | cancelled | left | back => rfl
    | donate hp hs => cases hd : donateStepOne _ _ _ <;> rw [hd] at hs <;> cases hs <;> rfl
    | reset hp hs => cases hd : donateStepTwo _ _ _ <;> rw [hd] at hs <;> cases hs <;> rfl
  | @adjusts recipient donateAmount hp =>
    obtain ⟨rfl, rfl⟩ := yields_stop.mp hy
    exact inStep_of_screen (a := { a.adjusted donateAmount with page := .root }) hpicked rfl
  | @opens _ below vc b h =>
    have hopened := inStep_opens hin hpicked h
    have hbrowses := (within_yields (respects_browses fun _ _ _ _ h => h) (within_viewDidLoad vc) hy).1
    refine inStep_foldl_shown (hsame _ _ hopened hbrowses.oneTime) fun vc' hvc => ?_
    exact (aligned_of_shown hy hvc).congr (oneTimeDonateAmout_congr hbrowses.oneTime)
  | @event e below screen screen' u hp hl hstep =>
    obtain ⟨rfl, rfl⟩ := yields_stop.mp hy
    obtain ⟨hstored, haligned⟩ := aligned_step hin.stored (hin.screen below screen hp) hstep
    have hnone := hin.below below screen hp
    show InStep { a.setDevice _ with page := App.stepped below e screen' }
    unfold App.stepped
    split
    · refine inStep_of_screen (a := { a.setDevice _ with page := _ }) hstored ?_
      dsimp only
      split
      · rfl
      · exact hnone
    · refine ⟨hstored, ?_, ?_⟩
      · rintro _ _ ⟨⟩
        exact haligned
      · rintro _ _ ⟨⟩
        exact hnone
  | @checkout below vc c hp =>
    have hl := closes_press hy
    refine inStep_foldl_shown (hsame _ _ hin (stored_of_checkout hy)) fun vc' hvc => ?_
    rcases hvc with hvc | hvc
    · exact (hl _ hvc).elim
    · exact (hl _ hvc).elim
  | logout hp =>
    rcases Settings.yields_logoutButtonPressed.mp hy with ⟨-, rfl, rfl⟩ | ⟨-, rfl, rfl⟩
    · exact inStep_of_screen hin.stored rfl
    · exact inStep_of_screen hin.stored (by show a.page.screen = none; rw [hp]; rfl)
  | signedOut =>
    obtain ⟨rfl, rfl⟩ := yields_stop.mp hy
    exact hin.congr rfl rfl

end InStep

/-! ## Keep Browsing, then Complete Donation -/

section Reopening

variable {a₀ a b c : App} {below : Page} {vc : MyBucket} {l l' : List Effect}

/-- The app after Keep Browsing. -/
def App.kept (a : App) (vc : MyBucket) : App :=
  { a.setDevice (a.world.1.setUserManager (vc.save a.userManager)) with page := .root }

theorem step_keepBrowsing (hp : a.page = .bucket below ⟨vc, .rows⟩) :
    App.Step (fun _ => Answers) a (.bucket .keepBrowsingButtonPressed, l) b ↔
      b = a.kept vc ∧ l = [] := by
  obtain ⟨w, page, activeDonates⟩ := a
  obtain rfl : page = .bucket below ⟨vc, .rows⟩ := hp
  constructor
  · rintro ⟨b, p, w', hpress, hy, rfl⟩
    cases hpress
    obtain ⟨rfl, rfl⟩ := yields_stop.mp hy
    exact ⟨rfl, rfl⟩
  · rintro ⟨rfl, rfl⟩
    exact ⟨_, _, _, rfl, ⟨_, .refl, rfl⟩, rfl⟩

/-- The screen that Complete Donation sets up for a bucket that was kept. -/
def reopened (vc : MyBucket) (u : UserManager) : MyBucket :=
  (BucketScreen.viewDidLoad (vc.save u) { isOneTimePaymentMode := vc.isOneTimePaymentMode }).vc

/-- What it shows; a one-time bucket is loaded once more. -/
def reopenedRows (vc : MyBucket) (u : UserManager) : MyBucket :=
  if vc.isOneTimePaymentMode then (reopened vc u).loaded (vc.save u) else reopened vc u

def reopenedEffects (vc : MyBucket) (u : UserManager) : List Effect :=
  (if vc.isOneTimePaymentMode then [.startActivityAnimating, .stopActivityAnimating] else []) ++
    [.reloadData (reopenedRows vc u)]

structure SameBucket (vc vc' : MyBucket) : Prop where
  donateType : vc'.donateType = vc.donateType
  tableData : vc'.tableData = vc.tableData
  donateAmount : vc'.donateAmount = vc.donateAmount

theorem sameBucket_reopenedRows {u : UserManager}
    (h : vc.isOneTimePaymentMode = true → u.oneTimeDonateAmout = vc.donateAmount)
    (hnodup : (organisationIds vc.tableData).Nodup) : SameBucket vc (reopenedRows vc u) := by
  obtain ⟨cause, mode, organizations, myImpactDonates, donateAmount, shows, donates, tableData, enabled⟩ := vc
  cases mode with
  | true =>
    refine ⟨rfl, ?_, h rfl⟩
    exact MyBucket.mergeSaved_some_nil hnodup u.oneTimeDonateAmout
  | false => exact ⟨rfl, rfl, rfl⟩

/-- Neither type of bucket asks for anything when it is reopened. -/
theorem yields_reopened {w w' : World} {h : List Frame} {u : UserManager}
    (hw : w.1.userManager = vc.save u) :
    ({ isOneTimePaymentMode := vc.isOneTimePaymentMode } : MyBucket).viewDidLoad.Yields Answers w h w' l ↔
      w' = w ∧ l = reopenedEffects vc u := by
  rw [MyBucket.yields_viewDidLoad, hw]
  obtain ⟨cause, mode, organizations, myImpactDonates, donateAmount, shows, donates, tableData, enabled⟩ := vc
  cases mode with
  | true =>
    rw [if_pos (MyBucket.viewDidLoad_once _ rfl)]
    constructor
    · intro hy
      obtain ⟨l', rfl, hload⟩ := yields_emit.mp hy
      obtain ⟨rfl, rfl⟩ := MyBucket.yields_loadDataCompletionHandler.mp hload
      rw [hw]
      exact ⟨rfl, rfl⟩
    · rintro ⟨rfl, rfl⟩
      refine yields_emit.mpr ⟨_, rfl, MyBucket.yields_loadDataCompletionHandler.mpr ⟨rfl, ?_⟩⟩
      rw [hw]
      rfl
  | false =>
    have hrows : ¬ Front.rows = Front.loading := by simp
    exact (if_neg hrows).to_iff

theorem step_completeDonation_kept :
    App.Step (fun _ => Answers) (a.kept vc) (.completeDonationButtonPressed, l) c ↔
      c = { a.kept vc with page := .bucket .root ⟨reopenedRows vc a.userManager, .rows⟩ } ∧
      l = reopenedEffects vc a.userManager := by
  have hpress : App.press .completeDonationButtonPressed (a.kept vc) =
      some ((a.kept vc).pushed .root { isOneTimePaymentMode := vc.isOneTimePaymentMode }) := by
    obtain ⟨cause, mode, organizations, myImpactDonates, donateAmount, shows, donates, tableData, enabled⟩ := vc
    cases mode <;> rfl
  have hshown : ∀ app : App, app.page = .bucket .root (BucketScreen.viewDidLoad (vc.save a.userManager)
      { isOneTimePaymentMode := vc.isOneTimePaymentMode }) →
      (reopenedEffects vc a.userManager).foldl App.shown app =
      { app with page := .bucket .root ⟨reopenedRows vc a.userManager, .rows⟩ } := by
    rintro ⟨w, page, activeDonates⟩ hp
    obtain rfl : page = _ := hp
    unfold reopenedEffects
    cases vc.isOneTimePaymentMode <;> rfl
  constructor
  · rintro ⟨b, p, w', hp, hy, rfl⟩
    rw [hpress] at hp
    cases hp
    obtain ⟨rfl, rfl⟩ := (yields_reopened rfl).mp hy
    exact ⟨hshown _ rfl, rfl⟩
  · rintro ⟨rfl, rfl⟩
    have hy : ({ isOneTimePaymentMode := vc.isOneTimePaymentMode } : MyBucket).viewDidLoad.Yields Answers
        (a.kept vc).world [] (a.kept vc).world (reopenedEffects vc a.userManager) :=
      (yields_reopened rfl).mpr ⟨rfl, rfl⟩
    exact ⟨_, _, _, hpress, hy, (hshown ((a.kept vc).pushed .root _).1 rfl).symm⟩

/-- Keep Browsing and then Complete Donation lead to the same bucket, whatever was done in it
before. The persisted amount is one that a slider screen has stored. -/
theorem sameBucket_of_reopened (hl : a₀.Launched)
    (hstored : ∀ amount, a₀.userManager.storedOneTimeDonateAmout = some amount → InSlider amount)
    (h : History (App.Step fun _ => Answers) (fun _ e => e.1.Picked) a₀ a)
    (hp : a.page = .bucket below ⟨vc, .rows⟩) (hnodup : (organisationIds vc.tableData).Nodup) :
    (∃ l l' b c, App.Step (fun _ => Answers) a (.bucket .keepBrowsingButtonPressed, l) b ∧
      App.Step (fun _ => Answers) b (.completeDonationButtonPressed, l') c) ∧
    ∀ l l' b c, App.Step (fun _ => Answers) a (.bucket .keepBrowsingButtonPressed, l) b →
      App.Step (fun _ => Answers) b (.completeDonationButtonPressed, l') c →
      ∃ vc', c.page = .bucket .root ⟨vc', .rows⟩ ∧ SameBucket vc vc' := by
  have hlaunched : InStep a₀ := by
    refine inStep_of_screen ?_ ?_
    · unfold UserManager.oneTimeDonateAmout
      cases hs : a₀.userManager.storedOneTimeDonateAmout with
      | none => exact ⟨le_refl _, by decide⟩
      | some amount => exact hstored amount hs
    · rw [hl.page]
      split <;> rfl
  have hin : InStep a :=
    h.invariant (I := InStep) (fun _ e _ hin hpicked hs => inStep_step hin hpicked hs) hlaunched
  have hamount := (hin.screen below _ hp).amount
  refine ⟨⟨_, _, _, _, (step_keepBrowsing hp).mpr ⟨rfl, rfl⟩,
    step_completeDonation_kept.mpr ⟨rfl, rfl⟩⟩, fun l l' b c hkeep hcomplete => ?_⟩
  obtain ⟨rfl, -⟩ := (step_keepBrowsing hp).mp hkeep
  obtain ⟨rfl, -⟩ := step_completeDonation_kept.mp hcomplete
  exact ⟨_, rfl, sameBucket_reopenedRows hamount hnodup⟩

end Reopening

/-- Ann chooses ten for the shelter, keeps the bucket and comes back to it. -/
theorem sameBucket_of_reopened_ann :
    ∃ a vc, a.page = .bucket (.adjustOneTimePaymentAmount (.organisation BucketScreen.shelter)) ⟨vc, .rows⟩ ∧
      vc.donateAmount = 10 ∧
      ∀ l l' b c, App.Step (fun _ => Answers) a (.bucket .keepBrowsingButtonPressed, l) b →
        App.Step (fun _ => Answers) b (.completeDonationButtonPressed, l') c →
        ∃ vc', c.page = .bucket .root ⟨vc', .rows⟩ ∧ SameBucket vc vc' := by
  have hdonate : History (App.Step fun _ => Answers) (fun _ e => e.1.Picked) annApp
      { annApp with page := .adjustOneTimePaymentAmount (.organisation BucketScreen.shelter) } :=
    .tail (e := (.donate (.organisation BucketScreen.shelter) .once, [])) .refl trivial
      ⟨_, _, _, rfl, ⟨_, .refl, rfl⟩, rfl⟩
  have hopen := History.tail (e := (.adjustContinuePressed 10, _)) hdonate
    (by constructor <;> decide) ⟨_, _, _, rfl, ⟨_, .refl, rfl⟩, rfl⟩
  exact ⟨_, _, rfl, rfl, (sameBucket_of_reopened launched_annApp (fun _ h => by cases h) hopen rfl
    (List.nodup_singleton _)).2⟩

end Pledge
