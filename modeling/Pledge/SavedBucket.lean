import Pledge.Sessions

/-!
# The saved bucket

When `completeDonation` changes from a saved bucket to something else, and what the user has
done for it.
-/

namespace Pledge

open EventLoop

/-- Where the bucket screen comes from: whether the user has answered OK on the way to it, the
bucket whose rows are its own, and whether My Impacts put it before another saved bucket. A
bucket that was saved from the screen is its own from then on. -/
structure Origin where
  asked : Bool := false
  started : Option BucketModel := none
  replaces : Bool := false
deriving DecidableEq, Repr

namespace App

/-- The bucket screen pushed by a touch, as it is set up. -/
def opened (i : Interaction) (a : App) : Option BucketScreen :=
  if a.page.screen = none then (press i a).bind fun b => b.1.page.screen else none

end App

namespace Origin

def askedAfter (o : Origin) : Interaction → Bool
  | .resetAlertClosed ok => ok
  | .donate .. | .completeDonationButtonPressed | .adjustActiveDonationsButtonPressed => false
  | _ => o.asked

/-- The saved bucket whose rows the screen has been set up with. -/
def startedFrom (u : UserManager) (screen : BucketScreen) : Option BucketModel :=
  u.completeDonation.filter fun saved =>
    saved.type == screen.vc.donateType && saved.donatedOrganisations == screen.vc.tableData

def next (o : Origin) (a : App) (e : Interaction × List Effect) (a' : App) : Origin :=
  match a.opened e.1 with
  | some screen =>
    { asked := o.askedAfter e.1
      started := startedFrom a.userManager screen
      replaces := e.1 = .adjustActiveDonationsButtonPressed ∧ a.userManager.completeDonation ≠ none ∧
        startedFrom a.userManager screen = none }
  | none =>
    { asked := o.askedAfter e.1
      started := if e.1.saves then a'.userManager.completeDonation else o.started
      replaces := o.replaces }

end Origin

/-- The ways in which a saved bucket may go. -/
inductive Permitted (saved : BucketModel) (o : Origin) : Interaction × List Effect → Prop
  | saved {i : Interaction} {l : List Effect} (hi : i.saves = true)
      (h : o.started = some saved ∨ o.asked = true) : Permitted saved o (i, l)
  | checkedOut {l : List Effect} {donateAmount tipsAmount : Int} {isOneTimeMode : Bool}
      (h : .showDonateResult donateAmount tipsAmount isOneTimeMode ∈ l) :
      Permitted saved o (.completeCheckoutButtonPressed, l)
  | loggedOut {l : List Effect} (h : .redirectToAuth ∈ l) : Permitted saved o (.logoutButtonPressed, l)

/-- Nothing is saved from a bucket of My Impacts that was opened over a saved bucket. -/
def KeepsImpacts (s : App × Origin) (e : Interaction × List Effect) : Prop :=
  e.1.saves = true → s.2.replaces = false

/-! ## A checkout -/

namespace DonateConfirmation

variable {vc : DonateConfirmation} {w w' : World} {h : List Frame} {l : List Effect}

/-- The saved bucket stays, or the success screen is shown. -/
def SavedUntilDone (w w' : World) (l : List Effect) : Prop :=
  w'.1.userManager.completeDonation = w.1.userManager.completeDonation ∨
    ∃ donateAmount tipsAmount isOneTimeMode,
      Effect.showDonateResult donateAmount tipsAmount isOneTimeMode ∈ l

theorem SavedUntilDone.after {w₁ : World} {l' : List Effect}
    (hw : w₁.1.userManager.completeDonation = w.1.userManager.completeDonation)
    (h : SavedUntilDone w₁ w' l') (hl : l' ⊆ l) : SavedUntilDone w w' l := by
  rcases h with h | ⟨donateAmount, tipsAmount, mode, h⟩
  · exact .inl (h.trans hw)
  · exact .inr ⟨donateAmount, tipsAmount, mode, hl h⟩

theorem savedUntilDone_handler {success : Bool}
    (hy : (vc.sendToUpdateDonatesHandler success).Yields Answers w h w' l) : SavedUntilDone w w' l := by
  cases success with
  | true => exact .inr ⟨_, _, _, (handler_effects hy).2.mpr rfl⟩
  | false =>
    have hwithin : (vc.sendToUpdateDonatesHandler false).Within (browsing fun _ => False) := by
      intro d
      dsimp only
      split
      · exact within_updateDefaultDonateAmount (k := fun _ => vc.completionBlock false) allowsCalls_browsing
          fun _ => ⟨trivial, trivial, trivial⟩
      · exact ⟨trivial, trivial, trivial⟩
    exact .inl (within_yields (respects_browses fun _ _ _ _ h => h) hwithin hy).1.completeDonation

/-- The loops of a recording leave the rest to the handler. -/
theorem savedUntilDone_recording {α : Type} {xs : List α}
    {write? : String → α → Option (Branch Bool Request.Response)}
    (hrecords : ∀ uid a b, write? uid a = some b → b.1.Records)
    (hr : Recording Answers xs write? vc.sendToUpdateDonatesHandler w h w' l) : SavedUntilDone w w' l := by
  cases hr with
  | nothing _ hw => exact .inl (by rw [hw])
  | signedOut _ _ hk => exact (savedUntilDone_handler hk).after rfl (List.subset_append_right _ _)
  | answered _ _ hperm hserve hk =>
    have hd := (servesAll_record (fun a ha => by
      obtain ⟨x, -, hx⟩ := List.mem_filterMap.mp (hperm.subset (List.mem_map_of_mem ha))
      exact hrecords _ x _ hx) hserve).1
    exact (savedUntilDone_handler hk).after (by rw [hd]) (List.Subset.refl _)

theorem savedUntilDone_sendToUpdateDonates (hy : vc.sendToUpdateDonates.Yields Answers w h w' l) :
    SavedUntilDone w w' l := by
  obtain ⟨l', rfl, hrecording⟩ := sendToUpdateDonates_cases hy
  exact (savedUntilDone_recording (fun _ _ _ => write?_records) hrecording).after rfl
    (List.subset_cons_self _ _)

theorem savedUntilDone_addOneTimePaymentToFirebase
    (hy : vc.addOneTimePaymentToFirebase.Yields Answers w h w' l) : SavedUntilDone w w' l := by
  obtain ⟨l', rfl, hrecording⟩ := addOneTimePaymentToFirebase_cases hy
  have hrecords : ∀ uid (p : String × Int) b, some (paymentWrite uid w.1.now p) = some b →
      b.1.Records := by
    intro uid p b hb
    cases hb
    exact trivial
  exact (savedUntilDone_recording hrecords hrecording).after rfl (List.subset_cons_self _ _)

theorem savedUntilDone_press (hp : vc.Presses w w' l) : SavedUntilDone w w' l := by
  rcases presses_iff.mp hp with ⟨-, hy⟩ | ⟨-, n, -, rfl, rfl⟩ | ⟨-, -, n, -, hy⟩
  · exact savedUntilDone_sendToUpdateDonates hy
  · exact .inl rfl
  · have hcharged : (vc.charged n w).1.userManager.completeDonation =
        w.1.userManager.completeDonation := rfl
    rw [recording] at hy
    split at hy
    · exact (savedUntilDone_addOneTimePaymentToFirebase hy).after hcharged (List.Subset.refl _)
    · obtain ⟨w₁, l₁, l₂, htips, rfl, hk⟩ := addTips_cases hy
      have hkept : w₁.1.userManager.completeDonation = w.1.userManager.completeDonation := by
        cases htips with
        | skipped | signedOut | rejected => exact hcharged
        | written => rfl
      exact (savedUntilDone_sendToUpdateDonates hk).after hkept (List.subset_append_right _ _)

end DonateConfirmation

/-! ## Where a bucket comes from -/

/-- The type of the buckets that a page of the flow leads to. -/
def Page.flowType? : Page → Option DonateType
  | .adjustOneTimePaymentAmount _ => some .once
  | .chooseAmount _ | .chooseRecipients _ => some .monthly
  | _ => none

/-- A flow goes on unasked only where no bucket of another type is saved. -/
def FlowFree (o : Origin) (u : UserManager) (donateType : DonateType) : Prop :=
  o.asked = true ∨ ∀ saved, u.completeDonation = some saved → saved.type = donateType

/-- What holds between two touches: pages of a flow, also under a bucket, are free to go on;
and a bucket screen has been asked for, or its own bucket is the saved one, unless it was
opened by My Impacts. -/
structure Tracked (o : Origin) (a : App) : Prop where
  flow : ∀ t, a.page.flowType? = some t → FlowFree o a.userManager t
  below : ∀ below screen, a.page = .bucket below screen → below.screen = none ∧
    ∀ t, below.flowType? = some t → screen.vc.donateType = t ∧ FlowFree o a.userManager t
  bucket : ∀ below screen, a.page = .bucket below screen → ∀ saved,
    a.userManager.completeDonation = some saved →
      o.asked = true ∨ o.started = some saved ∨ o.replaces = true

section Tracked

variable {o : Origin} {a b : App} {P : MyBucket → Prop} {l : List Effect} {page : Page}

theorem tracked_of_page (hf : ∀ t, a.page.flowType? = some t → FlowFree o a.userManager t)
    (hs : a.page.screen = none) : Tracked o a := by
  refine ⟨hf, fun below screen hp => ?_, fun below screen hp => ?_⟩
  · rw [hp] at hs
    cases hs
  · rw [hp] at hs
    cases hs

theorem tracked_of_flowType (hf : a.page.flowType? = none) (hs : a.page.screen = none) : Tracked o a :=
  tracked_of_page (fun t ht => by rw [hf] at ht; cases ht) hs

/-- Only the page and the saved bucket matter. -/
theorem Tracked.congr (ht : Tracked o a) (hp : b.page = a.page)
    (hu : b.userManager.completeDonation = a.userManager.completeDonation) : Tracked o b := by
  have hfree : ∀ t, FlowFree o a.userManager t → FlowFree o b.userManager t := by
    intro t hf
    rwa [FlowFree, hu]
  refine ⟨fun t h => hfree t (ht.flow t (hp ▸ h)), fun below screen h => ?_,
    fun below screen h saved hs => ?_⟩
  · obtain ⟨hnone, hbelow⟩ := ht.below below screen (hp ▸ h)
    exact ⟨hnone, fun t hb => ⟨(hbelow t hb).1, hfree t (hbelow t hb).2⟩⟩
  · exact ht.bucket below screen (hp ▸ h) saved (hu ▸ hs)

/-- Screens stay in their mode. -/
def InMode (P : MyBucket → Prop) (a : App) : Prop :=
  ∀ below screen, a.page = .bucket below screen → ∀ vc, P vc →
    vc.isOneTimePaymentMode = screen.vc.isOneTimePaymentMode

theorem tracked_shown {e : Effect} (he : e.Browses P) (hP : InMode P a) (ht : Tracked o a) :
    Tracked o (a.shown e) := by
  have hreplaced : ∀ below screen vc, a.page = .bucket below screen → P vc →
      Tracked o { a with page := .bucket below ⟨vc, .rows⟩ } := by
    intro below screen vc hp hvc
    refine ⟨nofun, ?_, ?_⟩
    · rintro _ _ ⟨⟩
      obtain ⟨hnone, hbelow⟩ := ht.below below screen hp
      refine ⟨hnone, fun t hb => ⟨?_, (hbelow t hb).2⟩⟩
      rw [← (hbelow t hb).1, MyBucket.donateType, MyBucket.donateType, hP below screen hp vc hvc]
    · rintro _ _ ⟨⟩ saved hs
      exact ht.bucket below screen hp saved hs
  unfold App.shown
  split
  case h_1 | h_2 | h_3 | h_4 => exact tracked_of_flowType rfl rfl
  case h_5 hp => exact tracked_of_page (fun t h => ht.flow t (by rw [hp]; exact h)) rfl
  case h_6 hp => exact ht.congr rfl rfl
  case h_7 vc below screen hp => exact hreplaced below screen vc hp he
  case h_8 vc below screen hp => exact hreplaced below screen vc hp he
  case h_9 => exact he.elim
  case h_10 => exact ht

theorem inMode_shown {e : Effect} (he : e.Browses P) (ha : InMode P a) : InMode P (a.shown e) := by
  unfold App.shown
  split
  case h_1 | h_2 | h_3 | h_4 | h_5 =>
    intro below screen h
    cases h
  case h_6 hp =>
    intro below screen h
    rw [show a.page = .bucket below screen from h] at hp
    cases hp
  case h_7 vc below screen hp | h_8 vc below screen hp =>
    rintro _ _ ⟨⟩ vc' hvc'
    exact (ha below screen hp vc' hvc').trans (ha below screen hp vc he).symm
  case h_9 => exact he.elim
  case h_10 => exact ha

theorem tracked_foldl_shown (hl : ∀ e ∈ l, e.Browses P) (hP : InMode P a) (ht : Tracked o a) :
    Tracked o (l.foldl App.shown a) :=
  (App.foldl_shown (P := fun a => InMode P a ∧ Tracked o a)
    (fun _ e he ha => ⟨inMode_shown (hl e he) ha.1, tracked_shown (hl e he) ha.1 ha.2⟩) ⟨hP, ht⟩).2

/-- After a checkout the bucket is still there, or its page is gone. -/
theorem page_of_closes {vc : DonateConfirmation} (hl : ∀ e ∈ l, e.Closes vc) :
    (l.foldl App.shown a).page = a.page ∨ (l.foldl App.shown a).page = .root ∨
      (l.foldl App.shown a).page = .auth := by
  refine App.foldl_shown (P := fun b => b.page = a.page ∨ b.page = .root ∨ b.page = .auth)
    (fun b e he hb => ?_) (.inl rfl)
  have hc := hl e he
  unfold App.shown
  split
  case h_1 => exact .inr (.inr rfl)
  case h_2 | h_3 | h_4 | h_5 | h_6 | h_7 | h_8 => exact hc.elim
  case h_9 => exact .inr (.inl rfl)
  case h_10 => exact hb

/-- The success screen takes the bucket away. -/
theorem page_of_done {vc : DonateConfirmation} {donateAmount tipsAmount : Int} {mode : Bool}
    (hp : a.page.screen ≠ none ∨ a.page = .root ∨ a.page = .auth) (hl : ∀ e ∈ l, e.Closes vc)
    (hd : .showDonateResult donateAmount tipsAmount mode ∈ l) :
    (l.foldl App.shown a).page = .root ∨ (l.foldl App.shown a).page = .auth := by
  induction l generalizing a with
  | nil => cases hd
  | cons e l ih =>
    have hrest : ∀ e ∈ l, e.Closes vc := fun e' he => hl e' (List.mem_cons_of_mem e he)
    rcases List.mem_cons.mp hd with rfl | hd
    · have hgone : (a.shown (.showDonateResult donateAmount tipsAmount mode)).page = .root ∨
          (a.shown (.showDonateResult donateAmount tipsAmount mode)).page = .auth := by
        obtain ⟨w, page, ds⟩ := a
        cases page with
        | bucket => exact .inl rfl
        | _ => simp_all [Page.screen, App.shown]
      rcases page_of_closes (a := a.shown (.showDonateResult donateAmount tipsAmount mode)) hrest
        with h | h | h
      · rcases hgone with hg | hg
        · exact .inl (h.trans hg)
        · exact .inr (h.trans hg)
      · exact .inl h
      · exact .inr h
    · have hone := page_of_closes (a := a) (l := [e])
        (fun e' he => hl e' (List.mem_singleton.mp he ▸ List.mem_cons_self))
      refine ih ?_ hrest hd
      rcases hone with h | h | h
      · rw [show (a.shown e).page = a.page from h]
        exact hp
      · exact .inr (.inl h)
      · exact .inr (.inr h)

end Tracked

/-! ## Events of the screen -/

section Events

variable {u u' : UserManager} {b b' : BucketScreen} {e : BucketEvent}

theorem step_isOneTimePaymentMode (hs : BucketScreen.step e (u, b) = some (u', b')) :
    b'.vc.isOneTimePaymentMode = b.vc.isOneTimePaymentMode := by
  obtain ⟨vc, front⟩ := b
  cases e <;> cases front <;>
    simp only [BucketScreen.step, reduceCtorEq, Option.some.injEq, Prod.mk.injEq,
      Option.ite_none_right_eq_some] at hs
  case completeButtonPressed.rows | adjustSliderChanged.adjust =>
    obtain ⟨-, -, rfl⟩ := hs
    rfl
  case adjustContinuePressed.adjust =>
    obtain ⟨-, rfl⟩ := hs
    rw [BucketScreen.viewWillAppear_vc]
    rfl
  case adjustBackPressed.adjust | confirmationBackPressed.confirmation =>
    obtain ⟨-, rfl⟩ := hs
    rw [BucketScreen.viewWillAppear_vc]
  all_goals
    obtain ⟨-, rfl⟩ := hs
    rfl

theorem step_completeDonation (hs : BucketScreen.step e (u, b) = some (u', b')) :
    if (Interaction.bucket e).saves then
      u'.completeDonation = some { donatedOrganisations := b.vc.tableData, type := b.vc.donateType }
    else u'.completeDonation = u.completeDonation := by
  have hsave : (b.vc.save u).completeDonation =
      some { donatedOrganisations := b.vc.tableData, type := b.vc.donateType } := by
    unfold MyBucket.save MyBucket.donateType DonateType.ofOneTimeMode
    split <;> rfl
  rcases BucketScreen.step_userManager hs with
    ⟨rfl | rfl, rfl⟩ | ⟨rfl, a, -, rfl⟩ | ⟨hcomplete, hkeep, rfl⟩
  · exact hsave
  · exact hsave
  · show (a.continueButtonPressed u).completeDonation = u.completeDonation
    unfold AdjustDonateAmount.continueButtonPressed
    split <;> rfl
  · have hsaves : (Interaction.bucket e).saves = false := by
      unfold Interaction.saves
      split <;> simp_all
    simp [hsaves]

end Events

/-! ## One touch -/

section Touch

variable {o : Origin} {a b a' : App} {i : Interaction} {p : Prog} {l : List Effect} {u : UserManager}
  {saved : BucketModel} {vc : MyBucket} {below page : Page}

theorem opened_of_press (h : App.press i a = some (b, p)) :
    a.opened i = if a.page.screen = none then b.page.screen else none := by
  rw [App.opened, h]
  rfl

theorem next_of_same (ho : a.opened i = none) (hs : i.saves = false) :
    o.next a (i, l) a' = { o with asked := o.askedAfter i } := by
  rw [Origin.next]
  simp only [ho, hs]
  rfl

/-- Unless My Impacts opens it, a bucket over a saved one of its type starts with its rows. -/
theorem startedFrom_viewDidLoad (hc : u.completeDonation = some saved) (ht : saved.type = vc.donateType)
    (hm : vc.isOneTimePaymentMode = true ∨ vc.myImpactDonates = none) :
    Origin.startedFrom u (BucketScreen.viewDidLoad u vc) = some saved := by
  have hmode := (MyBucket.viewDidLoad_fields u vc).2.1
  have hrows : (BucketScreen.viewDidLoad u vc).vc.tableData = saved.donatedOrganisations := by
    rw [MyBucket.donateType] at ht
    cases honce : vc.isOneTimePaymentMode with
    | true =>
      have hsaved : u.savedRows .once = some saved.donatedOrganisations := by
        rw [UserManager.savedRows, hc]
        exact if_pos (by rw [ht, honce]; rfl)
      simp [BucketScreen.viewDidLoad, honce, MyBucket.setupOneTimePaymentUI, hsaved]
    | false =>
      have hsaved : u.savedRows .monthly = some saved.donatedOrganisations := by
        rw [UserManager.savedRows, hc]
        exact if_pos (by rw [ht, honce]; rfl)
      have hnone : vc.myImpactDonates = none := hm.resolve_left (by rw [honce]; simp)
      simp [BucketScreen.viewDidLoad, honce, MyBucket.setupMonthlyPaymentUI, hsaved, hnone]
  rw [Origin.startedFrom, hc, Option.filter_some, if_pos]
  rw [Bool.and_eq_true, beq_iff_eq, beq_iff_eq]
  exact ⟨by rw [ht, MyBucket.donateType, MyBucket.donateType, hmode], hrows.symm⟩

theorem Recipient.bucket_donateType (recipient : Recipient) (donateType : DonateType) :
    (recipient.bucket (donateType == .once)).donateType = donateType := by
  rw [MyBucket.donateType, Recipient.bucket_isOneTimePaymentMode]
  cases donateType <;> rfl

theorem donateType_viewDidLoad (u : UserManager) (vc : MyBucket) :
    (BucketScreen.viewDidLoad u vc).vc.donateType = vc.donateType := by
  rw [MyBucket.donateType, MyBucket.donateType, (MyBucket.viewDidLoad_fields u vc).2.1]

theorem type_of_donateStepOne {recipient : Recipient} {donateType : DonateType}
    (hs : donateStepOne recipient donateType u = .bucket vc) (hc : u.completeDonation = some saved) :
    saved.type = vc.donateType ∧ vc.myImpactDonates = none := by
  rw [donateStepOne, hc] at hs
  dsimp only at hs
  split at hs
  case isTrue htype =>
    cases hs
    exact ⟨htype.trans (recipient.bucket_donateType donateType).symm, recipient.bucket_myImpactDonates _⟩
  case isFalse => cases hs

theorem startedFrom_congr {u' : UserManager} (hu : u'.completeDonation = u.completeDonation)
    (screen : BucketScreen) : Origin.startedFrom u' screen = Origin.startedFrom u screen := by
  rw [Origin.startedFrom, Origin.startedFrom, hu]

/-- What is noted about a bucket that is pushed. -/
theorem next_of_opened {screen : BucketScreen} (ho : a.opened i = some screen) :
    o.next a (i, l) a' =
      { asked := o.askedAfter i
        started := Origin.startedFrom a.userManager screen
        replaces := i = .adjustActiveDonationsButtonPressed ∧
          a.userManager.completeDonation ≠ none ∧ Origin.startedFrom a.userManager screen = none } := by
  rw [Origin.next]
  simp only [ho]

/-- A bucket has been asked for, or started from the saved one, unless My Impacts opened it. -/
theorem tracked_opens (hpress : App.press i a = some ((b.pushed below vc).1, p)) (ht : Tracked o a)
    (h : App.Opens a i below vc b) : Tracked (o.next a (i, l) a') (b.pushed below vc).1 := by
  have hnone : a.page.screen = none ∧ below.screen = none := by
    cases h with
    | adjusted hp | created hp => exact ⟨by rw [hp]; rfl, by rw [hp]; rfl⟩
    | donate hp | reset hp | completeDonation hp | myImpacts hp => exact ⟨by rw [hp]; rfl, rfl⟩
  have hopened : a.opened i = some (BucketScreen.viewDidLoad b.userManager vc) := by
    rw [opened_of_press hpress, if_pos hnone.1]
    rfl
  have hsame : b.userManager.completeDonation = a.userManager.completeDonation := by
    cases h <;> rfl
  have hown : ∀ saved, b.userManager.completeDonation = some saved → saved.type = vc.donateType →
      vc.isOneTimePaymentMode = true ∨ vc.myImpactDonates = none →
      Origin.startedFrom a.userManager (BucketScreen.viewDidLoad b.userManager vc) = some saved := by
    intro saved hc htype hm
    rw [← startedFrom_congr hsame]
    exact startedFrom_viewDidLoad hc htype hm
  rw [next_of_opened hopened]
  refine ⟨nofun, ?_, ?_⟩
  · rintro _ _ ⟨⟩
    refine ⟨hnone.2, fun t hb => ?_⟩
    rw [donateType_viewDidLoad, FlowFree]
    cases h with
    | @adjusted recipient _ hp =>
      refine ⟨?_, ht.flow t hb⟩
      rw [hp] at hb
      obtain rfl := Option.some.inj hb
      exact recipient.bucket_donateType .once
    | @created recipient hp =>
      refine ⟨?_, ht.flow t hb⟩
      rw [hp] at hb
      obtain rfl := Option.some.inj hb
      exact recipient.bucket_donateType .monthly
    | donate | reset | completeDonation | myImpacts => cases hb
  · rintro _ _ ⟨⟩ saved hsaved
    have hc := hsame.symm.trans hsaved
    cases h with
    | donate hp hs =>
      obtain ⟨htype, hm⟩ := type_of_donateStepOne hs hc
      exact .inr (.inl (hown saved hsaved htype (.inr hm)))
    | reset => exact .inl rfl
    | @adjusted recipient _ hp =>
      rcases ht.flow .once (by rw [hp]; rfl) with hasked | htype
      · exact .inl hasked
      · refine .inr (.inl (hown saved hsaved ?_ (.inr (recipient.bucket_myImpactDonates _))))
        exact (htype saved hc).trans (recipient.bucket_donateType .once).symm
    | @created recipient hp =>
      rcases ht.flow .monthly (by rw [hp]; rfl) with hasked | htype
      · exact .inl hasked
      · refine .inr (.inl (hown saved hsaved ?_ (.inr (recipient.bucket_myImpactDonates _))))
        exact (htype saved hc).trans (recipient.bucket_donateType .monthly).symm
    | @completeDonation completeDonation hp hcomplete =>
      obtain rfl := Option.some.inj (hcomplete.symm.trans hc)
      refine .inr (.inl (hown completeDonation hsaved ?_ (.inr rfl)))
      cases htype : completeDonation.type <;> simp [MyBucket.donateType, DonateType.ofOneTimeMode]
    | myImpacts hp =>
      cases hs : Origin.startedFrom a.userManager (BucketScreen.viewDidLoad a.userManager
          { myImpactDonates := some a.activeDonates }) with
      | none => exact .inr (.inr (by simp [hc]))
      | some started =>
        rw [Origin.startedFrom, hc] at hs
        obtain rfl := Option.some.inj (Option.filter_eq_some_iff.mp hs).1
        exact .inr (.inl rfl)

/-- An event keeps the bucket screen's origin; a bucket saved from it is its own. -/
theorem tracked_event {e : BucketEvent} {screen screen' : BucketScreen} (ht : Tracked o a)
    (hp : a.page = .bucket below screen)
    (hs : BucketScreen.step e (a.userManager, screen) = some (u, screen')) :
    Tracked (o.next a (.bucket e, l) (a.setDevice (a.world.1.setUserManager u)))
      { a.setDevice (a.world.1.setUserManager u) with page := App.stepped below e screen' } := by
  have hopened : a.opened (.bucket e) = none := by
    rw [App.opened, hp]
    rfl
  obtain ⟨hnone, hbelow⟩ := ht.below below screen hp
  have hmode : screen'.vc.donateType = screen.vc.donateType := by
    rw [MyBucket.donateType, MyBucket.donateType, step_isOneTimePaymentMode hs]
  have hfree : ∀ t, below.flowType? = some t → screen'.vc.donateType = t ∧ FlowFree o u t := by
    intro t hb
    obtain ⟨htype, hf⟩ := hbelow t hb
    refine ⟨hmode.trans htype, ?_⟩
    have hsaved := step_completeDonation hs
    split at hsaved
    · refine .inr fun saved hc => ?_
      obtain rfl := Option.some.inj (hsaved.symm.trans hc)
      exact htype
    · rw [FlowFree, hsaved]
      exact hf
  have hnext : (o.next a (.bucket e, l) (a.setDevice (a.world.1.setUserManager u))) =
      { o with started := if (Interaction.bucket e).saves then u.completeDonation else o.started } := by
    rw [Origin.next]
    simp only [hopened]
    rfl
  rw [hnext]
  by_cases hleft : screen'.front = .left
  · by_cases he : e = .keepBrowsingButtonPressed
    · rw [App.stepped, if_pos hleft, if_pos he]
      exact tracked_of_flowType rfl rfl
    · rw [App.stepped, if_pos hleft, if_neg he]
      exact tracked_of_page (fun t h => (hfree t h).2) hnone
  · rw [App.stepped, if_neg hleft]
    refine ⟨nofun, ?_, ?_⟩
    · rintro _ _ ⟨⟩
      exact ⟨hnone, hfree⟩
    · rintro _ _ ⟨⟩ saved hc
      have hsaved := step_completeDonation hs
      by_cases hi : (Interaction.bucket e).saves = true
      · exact .inr (.inl ((if_pos hi).trans hc))
      · rw [if_neg hi] at hsaved ⊢
        exact ht.bucket below screen hp saved (hsaved.symm.trans hc)

/-- The flow goes on unasked only where nothing is saved. -/
theorem donateStepOne_page? {recipient : Recipient} {donateType t : DonateType} {page : Page}
    (hs : (donateStepOne recipient donateType u).page? recipient = some page)
    (ht : page.flowType? = some t) : u.completeDonation = none := by
  cases hc : u.completeDonation with
  | none => rfl
  | some saved =>
    rw [donateStepOne, hc] at hs
    dsimp only at hs
    split at hs
    · cases hs
    · cases hs
      cases ht

theorem page?_screen {recipient : Recipient} {step : DonateStep} {page : Page}
    (hs : step.page? recipient = some page) : page.screen = none := by
  cases step <;> cases hs <;> rfl

/-- A touch that leads to another page. -/
theorem tracked_leads {page : Page} (ht : Tracked o a) (hpress : App.press i a = some ({ a with page }, p))
    (h : App.Leads a i page) : Tracked (o.next a (i, l) a') { a with page } := by
  have hnone : page.screen = none := by
    cases h with
    | presentRoot | cancelled | left | back => rfl
    | donate hp hs | reset hp hs => exact page?_screen hs
  have hopened : a.opened i = none := by
    rw [opened_of_press hpress]
    split
    · exact hnone
    · rfl
  refine tracked_of_page (fun t hflow => ?_) hnone
  rw [FlowFree]
  cases h with
  | presentRoot | cancelled | left => cases hflow
  | donate hp hs =>
    refine .inr fun saved hc => ?_
    have hfree : a.userManager.completeDonation = none := donateStepOne_page? hs hflow
    cases hfree.symm.trans hc
  | reset hp hs =>
    rw [next_of_same hopened rfl]
    exact .inl rfl
  | back hp =>
    rw [next_of_same hopened rfl]
    exact ht.flow t (by rw [hp]; exact hflow)

/-- A touch that only calls a program leaves the origin as it is. -/
theorem next_of_call (hi : i.call = some p)
    (hp : page = a.page ∨ a.page = .auth ∧ ∃ authentication, page = .authenticating authentication)
    (hpress : App.press i a = some ({ a with page }, p)) : o.next a (i, l) a' = o := by
  have hopened : a.opened i = none := by
    rw [opened_of_press hpress]
    split
    case isTrue hs =>
      rcases hp with rfl | ⟨-, authentication, rfl⟩
      · exact hs
      · rfl
    case isFalse => rfl
  rw [next_of_same hopened (by cases i <;> first | rfl | cases hi)]
  cases i <;> first | rfl | cases hi

/-- What a settled load or call leaves of what was tracked. -/
theorem tracked_yields {w' : World} (hP : InMode P b) (hp : p.Within (browsing P))
    (hy : p.Yields Answers b.world [] w' l) (ht : Tracked o b) :
    Tracked o (l.foldl App.shown { b with world := w' }) := by
  obtain ⟨hkept, hl⟩ := within_yields (respects_browses fun _ _ _ _ h => h) hp hy
  exact tracked_foldl_shown hl hP (ht.congr rfl hkept.completeDonation)

/-- A checkout that leaves its bucket there leaves the saved one. -/
theorem tracked_checkout {confirmation : DonateConfirmation} {w' : World} (ht : Tracked o a)
    (hp : a.page = .bucket below ⟨vc, .confirmation confirmation⟩)
    (hy : confirmation.Presses a.world w' l) : Tracked o (l.foldl App.shown { a with world := w' }) := by
  have hl := closes_press hy
  have hgone : ∀ c : App, c.page = .root ∨ c.page = .auth → Tracked o c := by
    rintro ⟨w, page, activeDonates⟩ (rfl | rfl)
    · exact tracked_of_flowType rfl rfl
    · exact tracked_of_flowType rfl rfl
  rcases DonateConfirmation.savedUntilDone_press hy with hkept | ⟨donateAmount, tipsAmount, mode, hd⟩
  · rcases page_of_closes (a := { a with world := w' }) hl with h | h | h
    · refine ht.congr h ?_
      rw [App.userManager, App.foldl_shown_world]
      exact hkept
    · exact hgone _ (.inl h)
    · exact hgone _ (.inr h)
  · exact hgone _ (page_of_done (.inl fun h => by rw [hp] at h; cases h) hl hd)

/-- What a screen may do between two touches is kept track of by the origin. -/
theorem tracked_step (ht : Tracked o a) (hs : App.Step (fun _ => Answers) a (i, l) a') :
    Tracked (o.next a (i, l) a') a' := by
  obtain ⟨b, p, w', hpress, hy, rfl⟩ := hs
  dsimp only at hpress hy
  cases App.press_cases hpress with
  | @calls _ page _ hi hp =>
    rw [next_of_call hi hp hpress]
    refine tracked_yields (P := fun _ => False) (fun _ _ _ _ h => h.elim) (within_call hi) hy ?_
    rcases hp with rfl | ⟨-, authentication, rfl⟩
    · exact ht
    · exact tracked_of_flowType rfl rfl
  | leads h =>
    obtain ⟨rfl, rfl⟩ := yields_stop.mp hy
    exact tracked_leads ht hpress h
  | adjusts hp =>
    obtain ⟨rfl, rfl⟩ := yields_stop.mp hy
    exact tracked_of_flowType rfl rfl
  | @opens _ below vc b h =>
    refine tracked_yields ?_ (within_viewDidLoad vc) hy (tracked_opens hpress ht h)
    rintro _ _ ⟨⟩ vc' hmode
    exact hmode.trans (MyBucket.viewDidLoad_fields b.userManager vc).2.1.symm
  | event hp hl hs =>
    obtain ⟨rfl, rfl⟩ := yields_stop.mp hy
    exact tracked_event ht hp hs
  | checkout hp =>
    have hopened : a.opened .completeCheckoutButtonPressed = none := by
      rw [App.opened, hp]
      rfl
    rw [next_of_same hopened rfl]
    exact tracked_checkout ht hp hy
  | logout hp =>
    rcases Settings.yields_logoutButtonPressed.mp hy with ⟨-, rfl, rfl⟩ | ⟨-, rfl, rfl⟩
    · exact tracked_of_flowType rfl rfl
    · obtain ⟨w, page, activeDonates⟩ := a
      obtain rfl : page = .root := hp
      exact tracked_of_flowType rfl rfl
  | signedOut =>
    obtain ⟨rfl, rfl⟩ := yields_stop.mp hy
    have hopened : a.opened .signedOut = none := by
      rw [opened_of_press hpress]
      split
      case isTrue h => exact h
      case isFalse => rfl
    rw [next_of_same hopened rfl]
    exact ht.congr rfl rfl

/-- What a touch permits to happen to the saved bucket. -/
theorem permitted_step (ht : Tracked o a) (hok : KeepsImpacts (a, o) (i, l))
    (hs : App.Step (fun _ => Answers) a (i, l) a') (hsaved : a.userManager.completeDonation = some saved)
    (hchanged : a'.userManager.completeDonation ≠ some saved) : Permitted saved o (i, l) := by
  obtain ⟨b, p, w', hpress, hy, rfl⟩ := hs
  dsimp only at hpress hy
  rw [App.userManager, App.foldl_shown_world] at hchanged
  have hbrowses : ∀ {P}, p.Within (browsing P) →
      b.userManager.completeDonation = a.userManager.completeDonation → Permitted saved o (i, l) := by
    intro P hp hb
    have hkept := (within_yields (respects_browses fun _ _ _ _ h => h) hp hy).1.completeDonation
    exact absurd (hkept.trans (hb.trans hsaved)) hchanged
  cases App.press_cases hpress with
  | calls hi => exact hbrowses (P := fun _ => False) (within_call hi) rfl
  | leads | adjusts | signedOut => exact hbrowses (P := fun _ => False) trivial rfl
  | @opens _ _ vc _ h => exact hbrowses (within_viewDidLoad vc) (by cases h <;> rfl)
  | @event e below screen screen' u hp hl hstep =>
    obtain ⟨rfl, rfl⟩ := yields_stop.mp hy
    have hafter := step_completeDonation hstep
    by_cases hi : (Interaction.bucket e).saves = true
    · refine .saved hi ?_
      rcases ht.bucket below screen hp saved hsaved with hasked | hstarted | hreplaces
      · exact .inr hasked
      · exact .inl hstarted
      · cases (hok hi).symm.trans hreplaces
    · rw [if_neg hi] at hafter
      exact absurd (hafter.trans hsaved) hchanged
  | checkout hp =>
    rcases DonateConfirmation.savedUntilDone_press hy with hkept | ⟨donateAmount, tipsAmount, mode, hd⟩
    · exact absurd (hkept.trans hsaved) hchanged
    · exact .checkedOut hd
  | logout hp =>
    rcases Settings.yields_logoutButtonPressed.mp hy with ⟨-, rfl, rfl⟩ | ⟨-, rfl, rfl⟩
    · exact .loggedOut (List.mem_singleton.mpr rfl)
    · exact absurd hsaved hchanged

end Touch

/-! ## Every run -/

section Runs

variable {a₀ a a' : App} {o : Origin} {i : Interaction} {l : List Effect} {saved : BucketModel}

theorem tracked_launched (hl : a₀.Launched) : Tracked {} a₀ := by
  have hpage := hl.page
  split at hpage
  · exact tracked_of_flowType (by rw [hpage]; rfl) (by rw [hpage]; rfl)
  · exact tracked_of_flowType (by rw [hpage]; rfl) (by rw [hpage]; rfl)

/-- While nothing is saved from a bucket that My Impacts put before another saved one, no saved
bucket is lost but by a save from its own rows, a save that was asked for, a checkout that
succeeded or a logout. -/
theorem permitted_of_changed (hl : a₀.Launched)
    (h : History (recorded (App.Step fun _ => Answers) Origin.next) KeepsImpacts (a₀, {}) (a, o))
    (hok : KeepsImpacts (a, o) (i, l)) (hs : App.Step (fun _ => Answers) a (i, l) a')
    (hsaved : a.userManager.completeDonation = some saved)
    (hchanged : a'.userManager.completeDonation ≠ some saved) : Permitted saved o (i, l) := by
  have htracked : Tracked o a := by
    refine h.invariant (I := fun s => Tracked s.2 s.1) ?_ (tracked_launched hl)
    rintro s ⟨i, l⟩ s' ht - ⟨hstep, hnext⟩
    rw [hnext]
    exact tracked_step ht hstep
  exact permitted_step htracked hok hs hsaved hchanged

end Runs

/-- What Ann has kept. -/
def annBucket : BucketModel :=
  { donatedOrganisations := [{ amount := 10, organisation := BucketScreen.shelter }], type := .once }

theorem history_annBucket (Ok : App × Origin → Interaction × List Effect → Prop)
    (hok : ∀ a e, Ok (a, {}) e) :
    History (recorded (App.Step fun _ => Answers) Origin.next) Ok (annApp, {})
      (keptApp, { started := some annBucket }) := by
  have hstart : History (recorded (App.Step fun _ => Answers) Origin.next) Ok (annApp, {}) (annApp, {}) :=
    .refl
  have hdonate := hstart.note (e := (.donate (.organisation BucketScreen.shelter) .once, []))
    (hok _ _) ⟨_, _, _, rfl, ⟨_, .refl, rfl⟩, rfl⟩
  have hopen := hdonate.note (e := (.adjustContinuePressed 10, _)) (hok _ _)
    ⟨_, _, _, rfl, ⟨_, .refl, rfl⟩, rfl⟩
  exact hopen.note (e := (.bucket .keepBrowsingButtonPressed, [])) (hok _ _)
    ⟨_, _, _, rfl, ⟨_, .refl, rfl⟩, rfl⟩

/-- Ann comes back to her bucket, deletes its row and keeps that. -/
theorem permitted_of_changed_ann :
    ∃ a o, History (recorded (App.Step fun _ => Answers) Origin.next) KeepsImpacts (annApp, {}) (a, o) ∧
      Permitted annBucket o (.bucket .keepBrowsingButtonPressed, []) := by
  have hkept := history_annBucket KeepsImpacts fun _ _ _ => rfl
  have hback := hkept.note (e := (.completeDonationButtonPressed, _)) nofun
    ⟨_, _, _, rfl, ⟨_, .refl, rfl⟩, rfl⟩
  have hdeleted := hback.note (e := (.bucket (.rowDeleted 0), [])) nofun
    ⟨_, _, _, rfl, ⟨_, .refl, rfl⟩, rfl⟩
  exact ⟨_, _, hdeleted, permitted_of_changed launched_annApp hdeleted (fun _ => rfl)
    ⟨_, _, _, rfl, ⟨_, .refl, rfl⟩, rfl⟩ rfl nofun⟩

/-- My Impacts puts a bucket of its own before the one that Ann has kept. -/
theorem not_permitted_of_changed :
    ¬ ∀ (a₀ a a' : App) (o : Origin) (i : Interaction) (l : List Effect) (saved : BucketModel),
      a₀.Launched →
      History (recorded (App.Step fun _ => Answers) Origin.next) (fun _ _ => True) (a₀, {}) (a, o) →
      App.Step (fun _ => Answers) a (i, l) a' → a.userManager.completeDonation = some saved →
      a'.userManager.completeDonation ≠ some saved → Permitted saved o (i, l) := by
  intro hall
  have hkept := history_annBucket (fun _ _ => True) fun _ _ => trivial
  have himpacts := hkept.note (e := (.adjustActiveDonationsButtonPressed, _)) trivial
    ⟨_, _, _, rfl, ⟨_, .refl, rfl⟩, rfl⟩
  have hlost := hall _ _ _ _ (.bucket .keepBrowsingButtonPressed) [] annBucket launched_annApp himpacts
    ⟨_, _, _, rfl, ⟨_, .refl, rfl⟩, rfl⟩ rfl nofun
  cases hlost with
  | saved hi h =>
    rcases h with h | h
    · exact absurd h (by decide)
    · exact absurd h (by decide)

end Pledge
