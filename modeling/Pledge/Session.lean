import Pledge.Authentication
import Pledge.DonateFlow
import Pledge.EventLoop.Footprint
import Pledge.EventLoop.Histories
import Pledge.RecordMirror

/-!
# The app in use

The screens the user can reach, what a touch does on the screen in front, and the runs of
the app in which a touch is answered in full before the next one. Most screens that wait are
covered by their activity view; the tips of an accepted charge, the record loads of Home and My
Impacts and the write of StartDonate wait uncovered, and what a touch meanwhile leads to is not
among these runs, but among those of `Busy.Step`.
-/

namespace Pledge

open EventLoop

/-- `SettingsViewController.logoutButtonPressed`. -/
def Settings.logoutButtonPressed : Prog :=
  .read fun d =>
    if d.signOutError.isNone then
      .modify (fun d => { d with currentUser := none, userManager := d.userManager.resetUserData }) <|
        .emit .redirectToAuth .stop
    else .emit .showToastAlert .stop

theorem Settings.yields_logoutButtonPressed {serve : World → (r : Request) → r.Response → World → Prop}
    {w w' : World} {h : List Frame} {l : List Effect} :
    Settings.logoutButtonPressed.Yields serve w h w' l ↔
      (w.1.signOutError = none ∧ l = [.redirectToAuth] ∧
        w' = ({ w.1 with currentUser := none, userManager := w.1.userManager.resetUserData }, w.2)) ∨
      (w.1.signOutError ≠ none ∧ l = [.showToastAlert] ∧ w' = w) := by
  rw [Settings.logoutButtonPressed, yields_read]
  cases he : w.1.signOutError with
  | none =>
    simp only [Option.isNone_none, if_true, yields_modify, yields_emit_stop]
    simp [and_comm]
  | some error =>
    simp only [Option.isNone_some, Bool.false_eq_true, if_false, yields_emit_stop]
    simp [and_comm]

/-- The screen in front. A bucket lies on the page it was pushed from; `root` stands for the
tabs and the pages that only lead on. -/
inductive Page
  | auth
  | authenticating (authentication : Authentication)
  | startDonate
  | root
  | resetAlert (recipient : Recipient) (donateType : DonateType)
  | adjustOneTimePaymentAmount (recipient : Recipient)
  | chooseAmount (recipient : Recipient)
  | chooseRecipients (recipient : Recipient)
  | bucket (below : Page) (screen : BucketScreen)
deriving DecidableEq, Repr

def Page.screen : Page → Option BucketScreen
  | .bucket _ screen => some screen
  | _ => none

/-- `activeDonates` is kept by the My Impacts tab. -/
structure App where
  world : World
  page : Page := .auth
  activeDonates : List DonateItem := []

inductive Interaction
  | authenticate (authentication : Authentication)
  | startDonate (donateAmount : Int)
  | presentRoot
  | fetchUpdateUser
  | loadActiveDonates
  | donate (recipient : Recipient) (donateType : DonateType)
  | resetAlertClosed (ok : Bool)
  | adjustContinuePressed (donateAmount : Int)
  | adjustBackPressed (donateAmount : Int)
  | chooseAmount (donateAmount : Int)
  | createButtonPressed
  | backButtonPressed
  | completeDonationButtonPressed
  | adjustActiveDonationsButtonPressed
  | bucket (e : BucketEvent)
  | completeCheckoutButtonPressed
  | logoutButtonPressed
  | signedOut
deriving DecidableEq, Repr

namespace App

def userManager (a : App) : UserManager := a.world.1.userManager

def setDevice (a : App) (d : Device) : App := { a with world := (d, a.world.2) }

/-- `pushViewController(vc, animated: true)` of a bucket. -/
def pushed (a : App) (below : Page) (vc : MyBucket) : App × Prog :=
  ({ a with page := .bucket below (BucketScreen.viewDidLoad a.userManager vc) }, vc.viewDidLoad)

def donated (a : App) (recipient : Recipient) : DonateStep → App × Prog
  | .bucket vc => a.pushed .root vc
  | .resetAlert donateType => ({ a with page := .resetAlert recipient donateType }, .stop)
  | .adjustOneTimePaymentAmount => ({ a with page := .adjustOneTimePaymentAmount recipient }, .stop)
  | .chooseAmount => ({ a with page := .chooseAmount recipient }, .stop)

/-- `oneTimeDonateAmout = amount`. -/
def adjusted (a : App) (amount : Int) : App :=
  a.setDevice (a.world.1.setUserManager (a.userManager.setOneTimeDonateAmout amount))

/-- The page after an event of the bucket screen. -/
def stepped (below : Page) (e : BucketEvent) (screen : BucketScreen) : Page :=
  if screen.front = .left then
    if e = .keepBrowsingButtonPressed then .root else below
  else .bucket below screen

/-- What a touch does at once, and the program that it starts; `none` where the page in front
does not take it. Signing out may also happen to the app from outside. -/
def press (i : Interaction) (a : App) : Option (App × Prog) :=
  match i, a.page with
  | .authenticate authentication, .auth =>
    some ({ a with page := .authenticating authentication }, authentication.call)
  | .startDonate donateAmount, .startDonate => some (a, StartDonate.continueButtonPressed donateAmount)
  | .presentRoot, .startDonate => some ({ a with page := .root }, .stop)
  | .fetchUpdateUser, .root => some (a, FirestoreManager.fetchUpdateUser fun _ => .stop)
  | .fetchUpdateUser, .bucket _ ⟨_, .tipsPopup⟩ =>
    some (a, FirestoreManager.fetchUpdateUser fun _ => .stop)
  | .loadActiveDonates, .root => some (a, MyImpacts.loadActiveDonates)
  | .donate recipient donateType, .root =>
    some (a.donated recipient (donateStepOne recipient donateType a.userManager))
  | .resetAlertClosed true, .resetAlert recipient donateType =>
    some (a.donated recipient (donateStepTwo recipient donateType a.userManager))
  | .resetAlertClosed false, .resetAlert _ _ => some ({ a with page := .root }, .stop)
  | .adjustContinuePressed donateAmount, .adjustOneTimePaymentAmount recipient =>
    some ((a.adjusted donateAmount).pushed a.page (recipient.bucket true))
  | .adjustBackPressed donateAmount, .adjustOneTimePaymentAmount _ =>
    some ({ a.adjusted donateAmount with page := .root }, .stop)
  | .chooseAmount donateAmount, .chooseAmount _ =>
    some (a, ChooseAmountStepOne.continueButtonPressed donateAmount)
  | .createButtonPressed, .chooseRecipients recipient => some (a.pushed a.page (recipient.bucket false))
  | .backButtonPressed, .chooseRecipients recipient =>
    some ({ a with page := .chooseAmount recipient }, .stop)
  | .backButtonPressed, .chooseAmount _ => some ({ a with page := .root }, .stop)
  | .completeDonationButtonPressed, .root =>
    a.userManager.completeDonation.map fun completeDonation =>
      a.pushed .root { isOneTimePaymentMode := completeDonation.type == .once }
  | .adjustActiveDonationsButtonPressed, .root =>
    some (a.pushed .root { myImpactDonates := some a.activeDonates })
  | .bucket e, .bucket below screen =>
    if screen.front = .loading then none
    else
      (BucketScreen.step e (a.userManager, screen)).map fun s =>
        ({ a.setDevice (a.world.1.setUserManager s.1) with page := stepped below e s.2 }, .stop)
  | .completeCheckoutButtonPressed, .bucket _ ⟨_, .confirmation vc⟩ =>
    some (a, vc.completeCheckoutButtonPressed)
  | .logoutButtonPressed, .root => some (a, Settings.logoutButtonPressed)
  | .signedOut, _ => some (a.setDevice { a.world.1 with currentUser := none }, .stop)
  | _, _ => none

/-- What an effect does to the screens. -/
def shown (a : App) (o : Effect) : App :=
  match o, a.page with
  | .redirectToAuth, _ => { a with page := .auth, activeDonates := [] }
  | .reported true, .authenticating (.signIn ..) => { a with page := .root }
  | .reported true, .authenticating (.signUp ..) => { a with page := .startDonate }
  | .reported false, .authenticating _ => { a with page := .auth }
  | .showChooseRecipients, .chooseAmount recipient => { a with page := .chooseRecipients recipient }
  | .showActiveDonates activeDonates, .root => { a with activeDonates }
  | .reloadData vc, .bucket below _ => { a with page := .bucket below ⟨vc, .rows⟩ }
  | .bucketNetworkErrorAlert vc, .bucket below _ => { a with page := .bucket below ⟨vc, .rows⟩ }
  | .showDonateResult .., .bucket _ _ => { a with page := .root }
  | _, _ => a

/-- A touch, and everything it brings about, until nothing is in flight any more. `serve i`
answers the requests that `i` leads to. Touches that are taken while a request is in flight are
left out. -/
def Step (serve : Interaction → World → (r : Request) → r.Response → World → Prop) (a : App)
    (e : Interaction × List Effect) (a' : App) : Prop :=
  ∃ b p w', press e.1 a = some (b, p) ∧ p.Yields (serve e.1) b.world [] w' e.2 ∧
    a' = e.2.foldl shown { b with world := w' }

end App

/-! ## What a touch can do -/

/-- The programs that are called for what they fetch or write. -/
def Interaction.call : Interaction → Option Prog
  | authenticate authentication => some authentication.call
  | startDonate donateAmount => some (StartDonate.continueButtonPressed donateAmount)
  | fetchUpdateUser => some (FirestoreManager.fetchUpdateUser fun _ => .stop)
  | loadActiveDonates => some MyImpacts.loadActiveDonates
  | chooseAmount donateAmount => some (ChooseAmountStepOne.continueButtonPressed donateAmount)
  | _ => none

/-- The page of a step that is not the bucket itself. -/
def DonateStep.page? (recipient : Recipient) : DonateStep → Option Page
  | bucket _ => none
  | resetAlert donateType => some (.resetAlert recipient donateType)
  | adjustOneTimePaymentAmount => some (.adjustOneTimePaymentAmount recipient)
  | chooseAmount => some (.chooseAmount recipient)

namespace App

/-- Touches that only lead from one page to another. -/
inductive Leads (a : App) : Interaction → Page → Prop
  | presentRoot (hp : a.page = .startDonate) : Leads a .presentRoot .root
  | cancelled {recipient : Recipient} {donateType : DonateType}
      (hp : a.page = .resetAlert recipient donateType) : Leads a (.resetAlertClosed false) .root
  | left {recipient : Recipient} (hp : a.page = .chooseAmount recipient) :
      Leads a .backButtonPressed .root
  | donate {recipient : Recipient} {donateType : DonateType} {page : Page} (hp : a.page = .root)
      (hs : (donateStepOne recipient donateType a.userManager).page? recipient = some page) :
      Leads a (.donate recipient donateType) page
  | reset {recipient : Recipient} {donateType : DonateType} {page : Page}
      (hp : a.page = .resetAlert recipient donateType)
      (hs : (donateStepTwo recipient donateType a.userManager).page? recipient = some page) :
      Leads a (.resetAlertClosed true) page
  | back {recipient : Recipient} (hp : a.page = .chooseRecipients recipient) :
      Leads a .backButtonPressed (.chooseAmount recipient)

/-- The bucket pushed by a touch, and the app in which it is pushed. -/
inductive Opens (a : App) : Interaction → (below : Page) → MyBucket → App → Prop
  | donate {recipient : Recipient} {donateType : DonateType} {vc : MyBucket} (hp : a.page = .root)
      (hs : donateStepOne recipient donateType a.userManager = .bucket vc) :
      Opens a (.donate recipient donateType) .root vc a
  | reset {recipient : Recipient} {donateType : DonateType} {vc : MyBucket}
      (hp : a.page = .resetAlert recipient donateType)
      (hs : donateStepTwo recipient donateType a.userManager = .bucket vc) :
      Opens a (.resetAlertClosed true) .root vc a
  | adjusted {recipient : Recipient} {donateAmount : Int}
      (hp : a.page = .adjustOneTimePaymentAmount recipient) :
      Opens a (.adjustContinuePressed donateAmount) a.page (recipient.bucket true) (a.adjusted donateAmount)
  | created {recipient : Recipient} (hp : a.page = .chooseRecipients recipient) :
      Opens a .createButtonPressed a.page (recipient.bucket false) a
  | completeDonation {completeDonation : BucketModel} (hp : a.page = .root)
      (hc : a.userManager.completeDonation = some completeDonation) :
      Opens a .completeDonationButtonPressed .root
        { isOneTimePaymentMode := completeDonation.type == .once } a
  | myImpacts (hp : a.page = .root) :
      Opens a .adjustActiveDonationsButtonPressed .root { myImpactDonates := some a.activeDonates } a

/-- What `press` does, by what becomes of the bucket screen. -/
inductive Pressed (a : App) : Interaction → App → Prog → Prop
  | calls {i : Interaction} {page : Page} {p : Prog} (hi : i.call = some p)
      (hp : page = a.page ∨ a.page = .auth ∧ ∃ authentication, page = .authenticating authentication) :
      Pressed a i { a with page } p
  | leads {i : Interaction} {page : Page} (h : Leads a i page) : Pressed a i { a with page } .stop
  | adjusts {recipient : Recipient} {donateAmount : Int}
      (hp : a.page = .adjustOneTimePaymentAmount recipient) :
      Pressed a (.adjustBackPressed donateAmount) { a.adjusted donateAmount with page := .root } .stop
  | opens {i : Interaction} {below : Page} {vc : MyBucket} {b : App} (h : Opens a i below vc b) :
      Pressed a i (b.pushed below vc).1 vc.viewDidLoad
  | event {e : BucketEvent} {below : Page} {screen screen' : BucketScreen} {u : UserManager}
      (hp : a.page = .bucket below screen) (hl : screen.front ≠ .loading)
      (hs : BucketScreen.step e (a.userManager, screen) = some (u, screen')) :
      Pressed a (.bucket e)
        { a.setDevice (a.world.1.setUserManager u) with page := stepped below e screen' } .stop
  | checkout {below : Page} {vc : MyBucket} {confirmation : DonateConfirmation}
      (hp : a.page = .bucket below ⟨vc, .confirmation confirmation⟩) :
      Pressed a .completeCheckoutButtonPressed a confirmation.completeCheckoutButtonPressed
  | logout (hp : a.page = .root) : Pressed a .logoutButtonPressed a Settings.logoutButtonPressed
  | signedOut : Pressed a .signedOut (a.setDevice { a.world.1 with currentUser := none }) .stop

variable {a b : App} {i : Interaction} {p : Prog}

theorem pressed_donated {recipient : Recipient} {s : DonateStep}
    (hl : ∀ page, s.page? recipient = some page → Leads a i page)
    (ho : ∀ vc, s = .bucket vc → Opens a i .root vc a) (h : a.donated recipient s = (b, p)) :
    Pressed a i b p := by
  cases s <;> cases h
  case bucket vc => exact .opens (ho vc rfl)
  all_goals exact .leads (hl _ rfl)

theorem press_cases (h : press i a = some (b, p)) : Pressed a i b p := by
  unfold press at h
  split at h
  case h_1 hp =>
    cases h
    exact .calls rfl (.inr ⟨hp, _, rfl⟩)
  case h_2 | h_4 | h_5 | h_6 | h_12 =>
    cases h
    exact .calls rfl (.inl rfl)
  case h_3 hp =>
    cases h
    exact .leads (.presentRoot hp)
  case h_9 hp =>
    cases h
    exact .leads (.cancelled hp)
  case h_15 hp =>
    cases h
    exact .leads (.left hp)
  case h_7 hp =>
    exact pressed_donated (fun _ hs => .donate hp hs) (fun _ hs => .donate hp hs) (Option.some.inj h)
  case h_8 hp =>
    exact pressed_donated (fun _ hs => .reset hp hs) (fun _ hs => .reset hp hs) (Option.some.inj h)
  case h_10 hp =>
    cases h
    exact .opens (.adjusted hp)
  case h_11 hp =>
    cases h
    exact .adjusts hp
  case h_13 hp =>
    cases h
    exact .opens (.created hp)
  case h_14 hp =>
    cases h
    exact .leads (.back hp)
  case h_16 hp =>
    obtain ⟨completeDonation, hc, h⟩ := Option.map_eq_some_iff.mp h
    cases h
    exact .opens (.completeDonation hp hc)
  case h_17 hp =>
    cases h
    exact .opens (.myImpacts hp)
  case h_18 below screen hp =>
    split at h
    · cases h
    · rename_i hl
      obtain ⟨⟨u, screen'⟩, hs, h⟩ := Option.map_eq_some_iff.mp h
      cases h
      exact .event hp hl hs
  case h_19 hp =>
    cases h
    exact .checkout hp
  case h_20 hp =>
    cases h
    exact .logout hp
  case h_21 =>
    cases h
    exact .signedOut
  case h_22 => cases h

end App

end Pledge
