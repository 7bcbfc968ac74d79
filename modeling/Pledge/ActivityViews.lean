import Pledge.SavedBucket

/-!
# Activity views

A view that is covered while requests are in flight is uncovered when they have been answered,
whatever they are answered, unless a load or a checkout has lost its completion.
-/

namespace Pledge

open EventLoop

/-- `UIView.startActivityAnimating` and `stopActivityAnimating`: whether the view is covered after
the effect, by whether it was before. -/
def Effect.activity (animating : Bool) : Effect → Bool
  | .startActivityAnimating => true
  | .stopActivityAnimating => false
  | _ => animating

/-- The view is left covered. -/
def animating (l : List Effect) : Bool := l.foldl Effect.activity false

/-- The view is left uncovered, covered or not before. -/
def Stopped (l : List Effect) : Prop := ∀ covered, l.foldl Effect.activity covered = false

/-- The screen waits for the organisations of a cause that has none. -/
def MyBucket.AwaitsNothing (vc : MyBucket) (s : Server) : Prop :=
  ∃ cause, vc.cause = some cause ∧ vc.organizations = none ∧ ∀ id, ¬ s.InCause cause.id id

/-- The loop of the checkout has nothing to count. -/
def DonateConfirmation.RecordsNothing (vc : DonateConfirmation) (d : Device) : Prop :=
  if vc.isOneTimeMode = true ∧ ¬ vc.Skips d then vc.payments = [] else vc.donateItems = []

/-- The touch opens a bucket that waits for nothing, or confirms a checkout that records nothing. -/
inductive App.Forgets (a : App) : Interaction → Prop
  | load {i : Interaction} {screen : BucketScreen} (ho : a.opened i = some screen)
      (hf : screen.front = .loading) (hn : screen.vc.AwaitsNothing a.world.2) : Forgets a i
  | checkout {below : Page} {vc : MyBucket} {confirmation : DonateConfirmation}
      (hp : a.page = .bucket below ⟨vc, .confirmation confirmation⟩)
      (hn : confirmation.RecordsNothing a.world.1) : Forgets a .completeCheckoutButtonPressed

/-- The page, or one below it, takes no touch before an answer comes. -/
def Page.Waits : Page → Prop
  | .authenticating _ => True
  | .bucket below screen => screen.front = .loading ∨ below.Waits
  | _ => False

variable {w w' : World} {h : List Frame} {l l' : List Effect} {P : MyBucket → Prop}

/-! ## Covering and uncovering -/

theorem animating_of_notMem (hl : .startActivityAnimating ∉ l) : animating l = false := by
  unfold animating
  induction l with
  | nil => rfl
  | cons o l ih =>
    have ho : Effect.activity false o = false := by
      cases o <;> first | rfl | exact absurd List.mem_cons_self hl
    rw [List.foldl_cons, ho]
    exact ih fun hm => hl (List.mem_cons_of_mem o hm)

theorem Stopped.append (hl : Stopped l') : Stopped (l ++ l') := by
  intro covered
  rw [List.foldl_append]
  exact hl _

theorem Stopped.cons {o : Effect} (hl : Stopped l) : Stopped (o :: l) := fun _ => hl _

theorem stopped_stop_cons {o : Effect} (ho : o ≠ .startActivityAnimating) :
    Stopped [.stopActivityAnimating, o] := by
  intro covered
  cases o <;> first | rfl | exact absurd rfl ho

/-- Writing the default amount changes nothing about what comes after it. -/
theorem stopped_updateDefaultDonateAmount {amount : Int} {k : Bool → Prog}
    (hk : ∀ b w h l, (k b).Yields Answers w h w' l → Stopped l)
    (hy : (FirestoreManager.updateDefaultDonateAmount amount k).Yields Answers w h w' l) : Stopped l := by
  cases hu : w.1.currentUser with
  | none =>
    obtain ⟨l', rfl, hrest⟩ := yields_withUid_signedOut hu hy
    exact (hk _ _ _ _ hrest).cons
  | some uid =>
    by_cases hne : w.1.userManager.user.map LendUser.defaultDonateAmount = some amount
    · exact hk _ _ _ _ ((yields_updateDefaultDonateAmount_of_eq hu hne).mp hy)
    · rcases (yields_updateDefaultDonateAmount hu hne).mp hy with hy | ⟨old, -, hy⟩
      · exact hk _ _ _ _ hy
      · exact hk _ _ _ _ hy

/-! ## Checkouts -/

namespace DonateConfirmation

variable {vc : DonateConfirmation} {success : Bool}

theorem stopped_completionBlock (hy : (vc.completionBlock success).Yields Answers w h w' l) :
    Stopped l := by
  have hf := yields_completionBlock.mp hy
  unfold Finishes at hf
  split at hf <;> obtain ⟨-, rfl⟩ := hf <;> exact stopped_stop_cons nofun

theorem stopped_sendToUpdateDonatesHandler
    (hy : (vc.sendToUpdateDonatesHandler success).Yields Answers w h w' l) : Stopped l := by
  rw [sendToUpdateDonatesHandler, yields_read] at hy
  split at hy
  · exact stopped_updateDefaultDonateAmount (fun _ _ _ _ => stopped_completionBlock) hy
  · exact stopped_completionBlock hy

/-- A loop that has something to count comes to the handler. -/
theorem animating_recording {α : Type} {xs : List α}
    {write? : String → α → Option (Branch Bool Request.Response)}
    (hr : Recording Answers xs write? vc.sendToUpdateDonatesHandler w h w' l) :
    animating (.startActivityAnimating :: l) = true ↔ xs = [] := by
  cases hr with
  | nothing hnil => exact iff_of_true rfl hnil
  | signedOut _ hne hk =>
    refine iff_of_false ?_ hne
    rw [animating, (stopped_sendToUpdateDonatesHandler hk).append.cons, Bool.not_eq_true]
  | answered _ hne _ _ hk =>
    refine iff_of_false ?_ hne
    rw [animating, (stopped_sendToUpdateDonatesHandler hk).cons, Bool.not_eq_true]

theorem animating_sendToUpdateDonates (hy : vc.sendToUpdateDonates.Yields Answers w h w' l) :
    .startActivityAnimating ∈ l ∧ (animating l = true ↔ vc.donateItems = []) := by
  obtain ⟨l', rfl, hr⟩ := sendToUpdateDonates_cases hy
  exact ⟨List.mem_cons_self, animating_recording hr⟩

theorem animating_addOneTimePaymentToFirebase
    (hy : vc.addOneTimePaymentToFirebase.Yields Answers w h w' l) :
    .startActivityAnimating ∈ l ∧ (animating l = true ↔ vc.payments = []) := by
  obtain ⟨l', rfl, hr⟩ := addOneTimePaymentToFirebase_cases hy
  exact ⟨List.mem_cons_self, animating_recording hr⟩

/-- The view stays covered after a press that comes to a loop over nothing. -/
theorem animating_press (hp : vc.Presses w w' l) :
    animating l = true ↔ .startActivityAnimating ∈ l ∧ vc.RecordsNothing w.1 := by
  unfold RecordsNothing
  rcases presses_iff.mp hp with ⟨hs, hy⟩ | ⟨-, n, -, -, rfl⟩ | ⟨hs, -, n, -, hy⟩
  · obtain ⟨hm, hiff⟩ := animating_sendToUpdateDonates hy
    rw [if_neg fun hc => hc.2 hs, hiff, and_iff_right hm]
  · simp [animating]
  · unfold recording at hy
    cases hmode : vc.isOneTimeMode with
    | true =>
      rw [hmode, if_pos rfl] at hy
      obtain ⟨hm, hiff⟩ := animating_addOneTimePaymentToFirebase hy
      rw [if_pos ⟨rfl, hs⟩, hiff, and_iff_right hm]
    | false =>
      rw [hmode, if_neg nofun] at hy
      obtain ⟨w₁, l₁, l₂, htips, rfl, hrest⟩ := addTips_cases hy
      obtain ⟨hm, hiff⟩ := animating_sendToUpdateDonates hrest
      have hfirst : animating (l₁ ++ l₂) = animating l₂ := by
        cases htips <;> rfl
      rw [if_neg nofun, hfirst, hiff, and_iff_right (List.mem_append_right l₁ hm)]

end DonateConfirmation

/-! ## Loads -/

/-- A fetch by cause answers, unless it succeeds and the cause has no organisations. -/
theorem fetchOrganisationsByCause_cases {causeId : String} {k : Option (List OrganisationItem) → Prog}
    (hy : (FirestoreManager.fetchOrganisationsByCause causeId k).Yields Answers w h w' l) :
    (l = [] ∧ ∀ id, ¬ w.2.InCause causeId id) ∨
      (∃ w₁, (k none).Yields Answers w₁ h w' l) ∨
      ∃ w₁ organisations id, (k (some organisations)).Yields Answers w₁ h w' l ∧ w.2.InCause causeId id := by
  obtain ⟨snapshot, w₁, ⟨rfl, hs⟩, hend⟩ := yields_ask.mp hy
  cases snapshot with
  | none => exact .inr (.inl ⟨w₁, hend⟩)
  | some documents =>
    obtain ⟨documents, hsnap, rfl⟩ := hs _ rfl
    have hof := ofCause_snapshot hsnap causeId
    rw [FirestoreManager.organisationsCallback] at hend
    generalize List.filterMap OrganisationItem.init? _ = result at hend hof
    cases result with
    | nil =>
      obtain ⟨-, rfl⟩ := yields_stop.mp hend
      exact .inl ⟨rfl, fun id hid => List.not_mem_nil ((hof.mem_iff id).mpr hid)⟩
    | cons o result =>
      obtain ⟨w₂, _, -, hk⟩ := yields_fetchFilters (by simpa using hend)
      exact .inr (.inr ⟨w₂, _, o.id, yields_read.mp hk, (hof.mem_iff o.id).mp List.mem_cons_self⟩)

namespace MyBucket

variable {vc : MyBucket}

/-- How a load ends: it waits for nothing, or it shows its rows, or the alert. -/
inductive Loaded (vc : MyBucket) (s : Server) : List Effect → Prop
  | waits (hn : vc.AwaitsNothing s) : Loaded vc s []
  | rows {vc' : MyBucket} (hn : ¬ vc.AwaitsNothing s) : Loaded vc s [.stopActivityAnimating, .reloadData vc']
  | alert {vc' : MyBucket} : Loaded vc s [.stopActivityAnimating, .bucketNetworkErrorAlert vc']
  | redirected {vc' : MyBucket} :
      Loaded vc s [.redirectToAuth, .stopActivityAnimating, .bucketNetworkErrorAlert vc']

theorem loaded_loadCauseOrganisations
    (hy : (vc.loadCauseOrganisations (vc.cause.map Cause.id) loadDataCompletionHandler).Yields
      Answers w h w' l) : Loaded vc w.2 l := by
  unfold loadCauseOrganisations at hy
  cases hc : vc.cause with
  | none =>
    rw [hc] at hy
    obtain ⟨-, rfl⟩ := yields_loadDataCompletionHandler.mp hy
    exact .rows fun ⟨cause, hcause, _⟩ => by rw [hc] at hcause; cases hcause
  | some cause =>
    cases ho : vc.organizations with
    | some organizations =>
      rw [hc, ho] at hy
      obtain ⟨-, rfl⟩ := yields_loadDataCompletionHandler.mp hy
      exact .rows fun ⟨_, _, hnone, _⟩ => by rw [ho] at hnone; cases hnone
    | none =>
      rw [hc, ho] at hy
      rcases fetchOrganisationsByCause_cases hy with ⟨rfl, hn⟩ | ⟨w₁, hend⟩ | ⟨w₁, os, id, hend, hid⟩
      · exact .waits ⟨cause, hc, ho, hn⟩
      · obtain ⟨-, rfl⟩ := yields_loadDataCompletionHandler.mp hend
        exact .alert
      · obtain ⟨-, rfl⟩ := yields_loadDataCompletionHandler.mp hend
        refine .rows fun ⟨cause', hcause, _, hn⟩ => hn id ?_
        obtain rfl := Option.some.inj (hc.symm.trans hcause)
        exact hid

theorem loaded_loadData (hy : vc.loadData.Yields Answers w h w' l) :
    ∃ l', l = .startActivityAnimating :: l' ∧ Loaded vc w.2 l' := by
  obtain ⟨l', rfl, hload⟩ := yields_emit.mp hy
  refine ⟨l', rfl, ?_⟩
  cases hmode : vc.isOneTimePaymentMode with
  | true =>
    rw [hmode, if_pos rfl] at hload
    exact loaded_loadCauseOrganisations hload
  | false =>
    cases hu : w.1.currentUser with
    | none =>
      obtain ⟨-, hl⟩ := yields_loadData_signedOut hmode hu hy
      obtain rfl := (List.cons.inj hl).2
      exact .redirected
    | some uid =>
      rw [hmode, if_neg nofun, loadDonates] at hload
      obtain ⟨w₁, h₁, donates, hsame, hend, -⟩ := yields_fetchDonates hu hload
      cases donates with
      | none =>
        obtain ⟨-, rfl⟩ := yields_loadDataCompletionHandler.mp hend
        exact .alert
      | some donates =>
        have hloaded : Loaded { vc with donates } _ l' := loaded_loadCauseOrganisations hend
        rw [hsame.server] at hloaded
        cases hloaded with
        | waits hn => exact .waits hn
        | rows hn => exact .rows hn
        | alert => exact .alert
        | redirected => exact .redirected

/-- The view stays covered after a load that waits for nothing. -/
theorem animating_loaded {s : Server} (hl : Loaded vc s l) :
    animating (.startActivityAnimating :: l) = true ↔
      vc.AwaitsNothing s ∧ ∀ vc', .bucketNetworkErrorAlert vc' ∉ l := by
  cases hl with
  | waits hn => exact iff_of_true rfl ⟨hn, nofun⟩
  | rows hn => exact iff_of_false nofun fun hc => hn hc.1
  | @alert vc' => exact iff_of_false nofun fun hc => hc.2 vc' (by simp)
  | @redirected vc' => exact iff_of_false nofun fun hc => hc.2 vc' (by simp)

end MyBucket

/-! ## Calls -/

/-- No view is covered. -/
def uncovered : Footprint Device Effect Request where
  asks _ := True
  modifies _ := True
  emits o := o ≠ .startActivityAnimating

theorem uncovered_emits {o : Effect} (ho : o ≠ .startActivityAnimating) : uncovered.emits o := ho

theorem uncovered_withUid {otherwise : Prog} {body : String → Prog} (ho : otherwise.Within uncovered)
    (hb : ∀ uid, (body uid).Within uncovered) : (FirestoreManager.withUid otherwise body).Within uncovered :=
  within_withUid (uncovered_emits nofun) ho hb

theorem uncovered_fetchUpdateUser {k : Bool → Prog} (hk : ∀ b, (k b).Within uncovered) :
    (FirestoreManager.fetchUpdateUser k).Within uncovered := by
  refine uncovered_withUid (hk _) fun uid => within_ask.mpr ⟨trivial, fun snapshot => ?_⟩
  split
  · exact ⟨trivial, hk _⟩
  · exact hk _

theorem uncovered_fetchDonates {k : Option (List DonateItem) → Prog} (hk : ∀ r, (k r).Within uncovered) :
    (FirestoreManager.fetchDonates k).Within uncovered := by
  refine uncovered_withUid (hk _) fun uid => within_ask.mpr ⟨trivial, fun snapshot => ?_⟩
  cases snapshot with
  | none => exact hk _
  | some documents =>
    refine ⟨trivial, ?_⟩
    show (if (documents.filterMap DonateItemRef.init?).isEmpty = true then k (some []) else _).Within _
    split
    · exact hk _
    · unfold FirestoreManager.fetchOrganisationsIn
      split
      · exact hk _
      · exact fun d => within_fanOut (fun _ _ => trivial) fun frame d => hk _

theorem uncovered_startDonate (donateAmount : Int) :
    (StartDonate.continueButtonPressed donateAmount).Within uncovered := by
  refine within_andThen (uncovered_withUid trivial fun uid d => ?_) ⟨trivial, trivial⟩
  dsimp only
  split
  · refine within_ask.mpr ⟨trivial, fun error => ?_⟩
    split
    · exact ⟨trivial, trivial⟩
    · exact trivial
  · exact trivial

theorem uncovered_loadActiveDonates : MyImpacts.loadActiveDonates.Within uncovered := by
  refine uncovered_fetchUpdateUser fun _ => uncovered_fetchDonates fun lends => ?_
  cases lends <;> exact ⟨uncovered_emits nofun, trivial⟩

/-- An authentication reports once, and shows nothing else. -/
theorem yields_authentication {authentication : Authentication}
    (hy : authentication.call.Yields Answers w h w' l) : ∃ success, l = [.reported success] := by
  cases authentication with
  | signIn email password =>
    obtain ⟨error, w₁, ha, hend⟩ := yields_ask.mp (yields_modify.mp hy)
    cases error with
    | some e => exact ⟨false, (yields_emit_stop.mp hend).2⟩
    | none =>
      obtain ⟨uid, -, rfl⟩ := ha
      obtain ⟨snapshot, w₂, -, hend⟩ := yields_ask.mp (yields_read.mp hend)
      split at hend
      · exact ⟨true, (yields_emit_stop.mp (yields_modify.mp hend)).2⟩
      · exact ⟨true, (yields_emit_stop.mp hend).2⟩
  | signUp email password displayName =>
    obtain ⟨⟨user, error⟩, w₁, ha, hend⟩ := yields_ask.mp hy
    cases error with
    | some e => exact ⟨false, (yields_emit_stop.mp hend).2⟩
    | none =>
      cases user with
      | none => exact ⟨false, (yields_emit_stop.mp hend).2⟩
      | some uid =>
        obtain ⟨-, -, rfl⟩ := ha
        cases displayName with
        | none =>
          obtain ⟨_, _, -, hend⟩ := yields_ask.mp (yields_modify.mp hend)
          exact ⟨true, (yields_emit_stop.mp hend).2⟩
        | some name =>
          obtain ⟨_, _, -, hend⟩ := yields_ask.mp (yields_read.mp hend)
          obtain ⟨_, _, -, hend⟩ := yields_ask.mp (yields_modify.mp hend)
          exact ⟨true, (yields_emit_stop.mp hend).2⟩

theorem stopped_chooseAmount {donateAmount : Int}
    (hy : (ChooseAmountStepOne.continueButtonPressed donateAmount).Yields Answers w h w' l) : Stopped l := by
  obtain ⟨l', rfl, hwrite⟩ := yields_emit.mp hy
  refine (stopped_updateDefaultDonateAmount (fun success w h l hk => ?_) hwrite).cons
  obtain ⟨l', rfl, hend⟩ := yields_emit.mp hk
  cases success <;> obtain ⟨-, rfl⟩ := yields_emit_stop.mp hend <;> exact stopped_stop_cons nofun

/-- No call of the store leaves its view covered. -/
theorem animating_call {i : Interaction} {p : Prog} (hi : i.call = some p) (hy : p.Yields Answers w h w' l) :
    animating l = false := by
  have hsilent : p.Within uncovered → animating l = false := fun hp =>
    animating_of_notMem fun hm => (within_yields respects_true hp hy).2 _ hm rfl
  cases i <;> cases hi
  · obtain ⟨success, rfl⟩ := yields_authentication hy
    rfl
  · exact hsilent (uncovered_startDonate _)
  · exact hsilent (uncovered_fetchUpdateUser fun _ => trivial)
  · exact hsilent uncovered_loadActiveDonates
  · exact stopped_chooseAmount hy false

/-! ## Runs of the app -/

namespace App

variable {a b a' : App} {i : Interaction} {p q : Prog} {below : Page} {vc : MyBucket}

/-- Nothing that is shown makes a page wait. -/
theorem not_waits_shown (hp : ¬ a.page.Waits) (o : Effect) : ¬ (a.shown o).page.Waits := by
  unfold shown
  split <;> simp_all [Page.Waits]

theorem not_waits_foldl_shown (hp : ¬ a.page.Waits) : ¬ (l.foldl shown a).page.Waits :=
  foldl_shown (P := fun a => ¬ a.page.Waits) (fun _ o _ hp => not_waits_shown hp o) hp

theorem page_of_call (hpress : press i a = some (b, p)) (hi : i.call = some q) :
    b.page = a.page ∨ ∃ authentication, i = .authenticate authentication ∧
      b.page = .authenticating authentication := by
  unfold press at hpress
  split at hpress
  case h_1 =>
    cases hpress
    exact .inr ⟨_, rfl, rfl⟩
  case h_2 | h_4 | h_5 | h_6 | h_12 =>
    cases hpress
    exact .inl rfl
  case h_22 => cases hpress
  all_goals cases hi

/-- What the set-up of a pushed bucket leads to. -/
theorem opens_cases (ho : Opens a i below vc b) (hy : vc.viewDidLoad.Yields Answers b.world h w' l) :
    ((BucketScreen.viewDidLoad b.userManager vc).front ≠ .loading ∧
        l = [.reloadData (BucketScreen.viewDidLoad b.userManager vc).vc]) ∨
      ((BucketScreen.viewDidLoad b.userManager vc).front = .loading ∧
        ∃ l', l = .startActivityAnimating :: l' ∧
          (BucketScreen.viewDidLoad b.userManager vc).vc.Loaded a.world.2 l') := by
  have hserver : b.world.2 = a.world.2 := by cases ho <;> rfl
  rw [MyBucket.yields_viewDidLoad] at hy
  split at hy
  · rename_i hf
    obtain ⟨l', rfl, hloaded⟩ := MyBucket.loaded_loadData hy
    rw [hserver] at hloaded
    exact .inr ⟨hf, l', rfl, hloaded⟩
  · rename_i hf
    exact .inl ⟨hf, hy.2⟩

theorem opened_of_opens (ho : Opens a i below vc b) (hpress : press i a = some ((b.pushed below vc).1, p)) :
    a.opened i = some (BucketScreen.viewDidLoad b.userManager vc) := by
  have hscreen : a.page.screen = none := by
    cases ho with
    | donate hp | reset hp | adjusted hp | created hp | completeDonation hp | myImpacts hp => rw [hp]; rfl
  rw [opened_of_press hpress, if_pos hscreen]
  rfl

theorem forgets_opens_iff (ho : Opens a i below vc b)
    (hpress : press i a = some ((b.pushed below vc).1, p)) :
    a.Forgets i ↔ (BucketScreen.viewDidLoad b.userManager vc).front = .loading ∧
      (BucketScreen.viewDidLoad b.userManager vc).vc.AwaitsNothing a.world.2 := by
  have hopened := opened_of_opens ho hpress
  constructor
  · intro hforgets
    cases hforgets with
    | load ho' hf hn =>
      obtain rfl := Option.some.inj (hopened.symm.trans ho')
      exact ⟨hf, hn⟩
    | checkout => cases ho
  · rintro ⟨hf, hn⟩
    exact .load hopened hf hn

theorem not_forgets_call (hpress : press i a = some (b, p)) (hi : i.call = some q) : ¬ a.Forgets i := by
  intro hforgets
  cases hforgets with
  | load ho hf hn =>
    rw [opened_of_press hpress] at ho
    split at ho
    · rename_i hscreen
      rcases page_of_call hpress hi with hp | ⟨authentication, -, hp⟩
      · rw [hp, hscreen] at ho
        cases ho
      · rw [hp] at ho
        cases ho
    · cases ho
  | checkout => cases hi

theorem forgets_checkout_iff {confirmation : DonateConfirmation}
    (hp : a.page = .bucket below ⟨vc, .confirmation confirmation⟩) :
    a.Forgets .completeCheckoutButtonPressed ↔ confirmation.RecordsNothing a.world.1 := by
  constructor
  · intro hforgets
    cases hforgets with
    | load ho =>
      rw [App.opened, hp] at ho
      cases ho
    | checkout hp' hn =>
      obtain ⟨-, -, rfl⟩ : _ ∧ _ ∧ _ := by simpa using hp.symm.trans hp'
      exact hn
  · exact .checkout hp

/-- A touch leaves a view covered where it has lost a completion, and only there. -/
theorem animating_step_iff (hs : App.Step (fun _ => Answers) a (i, l) a') :
    animating l = true ↔
      .startActivityAnimating ∈ l ∧ a.Forgets i ∧ ∀ vc, .bucketNetworkErrorAlert vc ∉ l := by
  obtain ⟨b, p, w', hpress, hy, rfl⟩ := hs
  dsimp only at hpress hy
  have hsilent : .startActivityAnimating ∉ l → (animating l = true ↔
      .startActivityAnimating ∈ l ∧ a.Forgets i ∧ ∀ vc, .bucketNetworkErrorAlert vc ∉ l) := fun hl =>
    iff_of_false (by rw [animating_of_notMem hl]; nofun) fun hc => hl hc.1
  cases App.press_cases hpress with
  | calls hi =>
    refine iff_of_false ?_ fun hc => not_forgets_call hpress hi hc.2.1
    rw [animating_call hi hy]
    nofun
  | leads | adjusts | event | signedOut =>
    obtain ⟨-, rfl⟩ := yields_stop.mp hy
    exact hsilent nofun
  | @opens _ below vc b ho =>
    rw [forgets_opens_iff ho hpress]
    rcases opens_cases ho hy with ⟨hf, rfl⟩ | ⟨hf, l', rfl, hloaded⟩
    · exact iff_of_false nofun fun hc => hf hc.2.1.1
    · rw [MyBucket.animating_loaded hloaded, and_iff_right List.mem_cons_self, and_iff_right hf]
      simp
  | checkout hp =>
    have halert : ∀ vc, .bucketNetworkErrorAlert vc ∉ l := fun vc hm => closes_press hy _ hm
    rw [forgets_checkout_iff hp, DonateConfirmation.animating_press hy, and_iff_left halert]
  | logout =>
    rcases Settings.yields_logoutButtonPressed.mp hy with ⟨-, rfl, -⟩ | ⟨-, rfl, -⟩
    · exact hsilent (by simp)
    · exact hsilent (by simp)

theorem front_step {u u' : UserManager} {screen screen' : BucketScreen} {e : BucketEvent}
    (hl : screen.front ≠ .loading) (hs : BucketScreen.step e (u, screen) = some (u', screen')) :
    screen'.front ≠ .loading := by
  have happears : ∀ vc : MyBucket, (BucketScreen.viewWillAppear vc).front ≠ .loading := by
    intro vc
    unfold BucketScreen.viewWillAppear
    split <;> simp
  obtain ⟨vc, front⟩ := screen
  cases e <;> cases front <;>
    simp only [BucketScreen.step, reduceCtorEq, Option.some.injEq, Prod.mk.injEq,
      Option.ite_none_right_eq_some] at hs
  case loaded.loading | loadFailed.loading => exact absurd rfl hl
  case adjustContinuePressed.adjust | adjustBackPressed.adjust | confirmationBackPressed.confirmation =>
    obtain ⟨-, rfl⟩ := hs
    exact happears _
  case adjustSliderChanged.adjust | completeButtonPressed.rows =>
    obtain ⟨-, -, rfl⟩ := hs
    simp
  all_goals
    obtain ⟨-, rfl⟩ := hs
    simp

/-- A page that waits has been left covered. -/
theorem not_waits_step (ha : ¬ a.page.Waits) (hs : App.Step (fun _ => Answers) a (i, l) a')
    (hl : animating l = false) : ¬ a'.page.Waits := by
  obtain ⟨b, p, w', hpress, hy, rfl⟩ := hs
  dsimp only at hpress hy
  cases App.press_cases hpress with
  | @calls _ page _ hi =>
    rcases page_of_call hpress hi with hp | ⟨authentication, rfl, hp⟩
    · refine not_waits_foldl_shown ?_
      rw [hp]
      exact ha
    · cases hi
      obtain ⟨success, rfl⟩ := yields_authentication hy
      obtain rfl : page = .authenticating authentication := hp
      cases authentication <;> cases success <;> nofun
  | leads hleads =>
    obtain ⟨-, rfl⟩ := yields_stop.mp hy
    cases hleads with
    | presentRoot | cancelled | left | back => nofun
    | @donate recipient donateType page hp hs =>
      cases hstep : donateStepOne recipient donateType a.userManager <;> rw [hstep] at hs <;> cases hs <;> nofun
    | @reset recipient donateType page hp hs =>
      cases hstep : donateStepTwo recipient donateType a.userManager <;> rw [hstep] at hs <;> cases hs <;> nofun
  | adjusts =>
    obtain ⟨-, rfl⟩ := yields_stop.mp hy
    nofun
  | @opens _ below vc b ho =>
    have hbelow : ¬ below.Waits := by
      cases ho with
      | adjusted | created => exact ha
      | donate | reset | completeDonation | myImpacts => nofun
    rcases opens_cases ho hy with ⟨hf, rfl⟩ | ⟨hf, l', rfl, hloaded⟩
    · exact fun hw => hw.elim nofun hbelow
    · cases hloaded with
      | waits => cases hl
      | rows | alert => exact fun hw => hw.elim nofun hbelow
      | redirected => nofun
  | @event e below screen screen' u hp hf hstep =>
    obtain ⟨-, rfl⟩ := yields_stop.mp hy
    have hbelow : ¬ below.Waits := fun hw => ha (by rw [hp]; exact .inr hw)
    show ¬ (stepped below e screen').Waits
    unfold stepped
    split
    · split
      · nofun
      · exact hbelow
    · exact fun hw => hw.elim (front_step hf hstep) hbelow
  | checkout | signedOut => exact not_waits_foldl_shown ha
  | logout => exact not_waits_foldl_shown ha

end App

/-- In every run whose touches have uncovered their views, each answered by the servers before the next,
the next touch does so as well, unless it opens a bucket of a cause that has no organisations and no
fetch fails, or confirms a checkout that has nothing to record; and no page waits with its view
uncovered. -/
theorem covered_of_history {a₀ a a' : App} {i : Interaction} (hl : a₀.Launched)
    (h : History (App.Step fun _ => Answers) (fun _ e => animating e.2 = false) a₀ a)
    (hs : App.Step (fun _ => Answers) a (i, l) a') :
    (animating l = true ↔
      .startActivityAnimating ∈ l ∧ a.Forgets i ∧ ∀ vc, .bucketNetworkErrorAlert vc ∉ l) ∧
    (a'.page.Waits → animating l = true) := by
  refine ⟨App.animating_step_iff hs, fun hw => ?_⟩
  have hstart : ¬ a₀.page.Waits := by
    rw [hl.page]
    split <;> nofun
  have ha : ¬ a.page.Waits := by
    refine h.invariant (I := fun a => ¬ a.page.Waits) ?_ hstart
    rintro a ⟨i, l⟩ a' ha hl hs
    exact App.not_waits_step ha hs hl
  by_contra hcovered
  exact App.not_waits_step ha hs (by simpa using hcovered) hw

/-- Ann gives once to a cause without organisations, and waits for them. -/
theorem covered_of_history_ann : ∃ a a',
    History (App.Step fun _ => Answers) (fun _ e => animating e.2 = false) annApp a ∧
      App.Step (fun _ => Answers) a (.adjustContinuePressed 10, [.startActivityAnimating]) a' ∧
      a.Forgets (.adjustContinuePressed 10) ∧ a'.page.Waits := by
  have hdonate : History (App.Step fun _ => Answers) (fun _ e => animating e.2 = false) annApp
      { annApp with page := .adjustOneTimePaymentAmount (.cause { id := "hunger" }) } :=
    .tail (e := (.donate (.cause { id := "hunger" }) .once, [])) .refl rfl
      ⟨_, _, _, rfl, ⟨_, .refl, rfl⟩, rfl⟩
  have hnone : Answers ({ annApp.world.1 with
        userManager := annApp.userManager.setOneTimeDonateAmout 10 }, annApp.world.2)
      (.getOrganisationsByCause "hunger") (some []) _ :=
    ⟨rfl, fun l hl => ⟨[], .nil, (Option.some.inj hl).symm⟩⟩
  have hstep : App.Step (fun _ => Answers)
      { annApp with page := .adjustOneTimePaymentAmount (.cause { id := "hunger" }) }
      (.adjustContinuePressed 10, [.startActivityAnimating]) _ :=
    ⟨_, _, _, rfl, yields_emit.mpr ⟨_, rfl, yields_ask.mpr ⟨_, _, hnone, yields_stop.mpr ⟨rfl, rfl⟩⟩⟩, rfl⟩
  exact ⟨_, _, hdonate, hstep, ((covered_of_history launched_annApp hdonate hstep).1.mp rfl).2.1, .inl rfl⟩

end Pledge
