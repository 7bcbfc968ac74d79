import Pledge.EventLoop.Runs
import Pledge.MyBucket

/-!
# The services behind the app

The requests the app issues, the answers their callbacks receive, and what Firebase and
the payment endpoints do with them. The app's code reads and changes the device; the
servers change only when a request is answered.
-/

namespace Pledge

/-- `PaymentManager.Result`. -/
inductive PaymentResult
  | success (token : String)
  | failure
deriving DecidableEq, Repr

/-- The callback arguments of `createUser`. -/
structure AuthResult where
  user : Option String := none
  error : Option String := none
deriving DecidableEq, Repr

/-- The requests issued by `FirestoreManager`, and the payment sheet. -/
inductive Request
  | signIn (email password : String)
  | createUser (email password : String)
  | commitChanges (displayName : String)
  | sendPasswordReset (email : String)
  | setUser (uid : String) (data : UserDoc)
  | getUser (uid : String)
  | updateUser (uid : String) (data : UserDoc)
  | getFilters
  | getOrganisationsByCause (causeId : String)
  | getOrganisations
  | getOrganisationsIn (ids : List String)
  | getCauses
  | addPayment (uid : String) (data : PaymentDoc)
  | getPaymentHistory (uid : String)
  | addDonate (uid : String) (data : DonateDoc)
  | setDonate (uid id : String) (data : DonateDoc)
  | deleteDonate (uid id : String)
  | getDonates (uid : String)
  | getDonatesForOrganisation (organisationId : String)
  | pay (amount : Int) (isOneTimeMode : Bool)
deriving DecidableEq, Repr

/-- What a callback receives: the error of a write, the snapshot of a read. -/
abbrev Request.Response : Request → Type
  | .createUser .. => AuthResult
  | .getUser .. => Option (Document UserDoc)
  | .getFilters => Option (List (Document FilterDoc))
  | .getOrganisationsByCause .. => Option (List (Document OrganisationDoc))
  | .getOrganisations => Option (List (Document OrganisationDoc))
  | .getOrganisationsIn .. => Option (List (Document OrganisationDoc))
  | .getCauses => Option (List (Document CauseDoc))
  | .getPaymentHistory .. => Option (List (Document PaymentDoc))
  | .getDonates .. => Option (List (Document DonateDoc))
  | .getDonatesForOrganisation .. => Option (List (Document DonateDoc))
  | .pay .. => PaymentResult
  | .signIn .. => Option String
  | .commitChanges .. => Option String
  | .sendPasswordReset .. => Option String
  | .setUser .. => Option String
  | .updateUser .. => Option String
  | .addPayment .. => Option String
  | .addDonate .. => Option String
  | .setDonate .. => Option String
  | .deleteDonate .. => Option String

/-- What the servers hold for one user. Ids of deleted pledges are not issued again. -/
structure Account where
  email : Option String := none
  user : Option UserDoc := none
  donates : Collection DonateDoc := ∅
  deletedDonates : List String := []
  paymentHistory : Collection PaymentDoc := ∅

/-- `journal` lists the requests the servers have carried out, oldest first; a charge
taken by a payment endpoint is recorded as its `pay` request. -/
structure Server where
  account : String → Account := fun _ => {}
  filters : Collection FilterDoc := ∅
  organisations : Collection OrganisationDoc := ∅
  causes : Collection CauseDoc := ∅
  journal : List Request := []

/-- The iteration order of a `Set`: unspecified, but each element comes once. -/
def SetOrder : Type := { f : List String → List String // ∀ l, (f l).Perm l.dedup }

def SetOrder.dedup : SetOrder := ⟨List.dedup, fun _ => .rfl⟩

/-- `currentUser` is the signed-in uid, `signOutError` what `Auth.auth().signOut()` throws. -/
structure Device where
  userManager : UserManager := {}
  currentUser : Option String := none
  donateRefs : Option (List DonateItemRef) := none
  filters : List FilterItem := []
  filtersDict : Collection FilterItem := ∅
  now : Nat := 0
  signOutError : Option String := none
  setOrder : SetOrder := .dedup

abbrev World : Type := Device × Server

namespace Server

def setAccount (s : Server) (uid : String) (a : Account) : Server :=
  { s with account := Function.update s.account uid a }

def record (s : Server) (l : List Request) : Server := { s with journal := s.journal ++ l }

@[simp] theorem setAccount_account (s : Server) (uid : String) (a : Account) :
    (s.setAccount uid a).account uid = a := by
  simp [setAccount]

@[simp] theorem setAccount_journal (s : Server) (uid : String) (a : Account) :
    (s.setAccount uid a).journal = s.journal := rfl

@[simp] theorem setAccount_organisations (s : Server) (uid : String) (a : Account) :
    (s.setAccount uid a).organisations = s.organisations := rfl

@[simp] theorem record_account (s : Server) (l : List Request) :
    (s.record l).account = s.account := rfl

@[simp] theorem record_journal (s : Server) (l : List Request) :
    (s.record l).journal = s.journal ++ l := rfl

@[simp] theorem record_organisations (s : Server) (l : List Request) :
    (s.record l).organisations = s.organisations := rfl

end Server

namespace Device

def setUserManager (d : Device) (u : UserManager) : Device := { d with userManager := u }

@[simp] theorem setUserManager_userManager (d : Device) (u : UserManager) :
    (d.setUserManager u).userManager = u := rfl

@[simp] theorem setUserManager_currentUser (d : Device) (u : UserManager) :
    (d.setUserManager u).currentUser = d.currentUser := rfl

end Device

/-- A write of account `uid` is carried out and recorded, or rejected with an error. -/
def Written (w : World) (r : Request) (uid : String) (ok : Account → Account → Prop)
    (error : Option String) (w' : World) : Prop :=
  match error with
  | none => ∃ a, ok (w.2.account uid) a ∧ w' = (w.1, (w.2.setAccount uid a).record [r])
  | some _ => w' = w

/-- How the services may answer a request in `w`, leaving `w'`. Every request may fail.
A charge that was taken may still be reported as a failure; a reported success means that
the endpoint has taken the amount. Without a user record no charge is requested. A snapshot is
what the servers hold; an answer out of what the device has kept is an `AnswersFrom`. -/
def Answers (w : World) : (r : Request) → r.Response → World → Prop
  | .signIn email _, error, w' =>
    match error with
    | none => ∃ uid, (w.2.account uid).email = some email ∧
        w' = ({ w.1 with currentUser := some uid }, w.2)
    | some _ => w' = w
  | .createUser email password, result, w' =>
    match result.error, result.user with
    | none, some uid =>
      (∀ u, (w.2.account u).email ≠ some email) ∧ (w.2.account uid).email = none ∧
        w' = ({ w.1 with currentUser := some uid },
          (w.2.setAccount uid { w.2.account uid with email := some email }).record
            [.createUser email password])
    | _, _ => w' = w
  | .commitChanges _, _, w' => w' = w
  | .sendPasswordReset _, _, w' => w' = w
  | .setUser uid data, error, w' =>
    Written w (.setUser uid data) uid (fun a b => b = { a with user := some data }) error w'
  | .getUser uid, snapshot, w' =>
    w' = w ∧ (snapshot = none ∨ snapshot = some ⟨uid, (w.2.account uid).user⟩)
  | .updateUser uid data, error, w' =>
    Written w (.updateUser uid data) uid
      (fun a b => ∃ old, a.user = some old ∧ b = { a with user := some (old.update data) }) error w'
  | .getFilters, snapshot, w' =>
    w' = w ∧ ∀ l, snapshot = some l → w.2.filters.Snapshot l
  | .getOrganisationsByCause causeId, snapshot, w' =>
    w' = w ∧ ∀ l, snapshot = some l → ∃ l', w.2.organisations.Snapshot l' ∧
      l = l'.filter fun d => (d.data.map OrganisationDoc.causes).getD [] |>.contains causeId
  | .getOrganisations, snapshot, w' =>
    w' = w ∧ ∀ l, snapshot = some l → w.2.organisations.Snapshot l
  | .getOrganisationsIn ids, snapshot, w' =>
    w' = w ∧ ∀ l, snapshot = some l → ∃ l', w.2.organisations.Snapshot l' ∧
      l = l'.filter fun d => ids.contains d.documentID
  | .getCauses, snapshot, w' =>
    w' = w ∧ ∀ l, snapshot = some l → w.2.causes.Snapshot l
  | .addPayment uid data, error, w' =>
    Written w (.addPayment uid data) uid (fun a b => ∃ id, id ∉ a.paymentHistory ∧
      b = { a with paymentHistory := a.paymentHistory.insert id data }) error w'
  | .getPaymentHistory uid, snapshot, w' =>
    w' = w ∧ ∀ l, snapshot = some l → (w.2.account uid).paymentHistory.Snapshot l
  | .addDonate uid data, error, w' =>
    Written w (.addDonate uid data) uid (fun a b => ∃ id, id ∉ a.donates ∧ id ∉ a.deletedDonates ∧
      b = { a with donates := a.donates.insert id data }) error w'
  | .setDonate uid id data, error, w' =>
    Written w (.setDonate uid id data) uid (fun a b =>
      b = { a with donates :=
        a.donates.insert id (((a.donates.lookup id).getD {}).merge data) }) error w'
  | .deleteDonate uid id, error, w' =>
    Written w (.deleteDonate uid id) uid
      (fun a b => b = { a with
        donates := a.donates.erase id
        deletedDonates := id :: a.deletedDonates }) error w'
  | .getDonates uid, snapshot, w' =>
    w' = w ∧ ∀ l, snapshot = some l → (w.2.account uid).donates.Snapshot l
  | .getDonatesForOrganisation _, _, w' => w' = w
  | .pay amount isOneTimeMode, result, w' =>
    ∃ n, (∀ token, result = .success token → 1 ≤ n) ∧ (w.1.userManager.user = none → n = 0) ∧
      w' = (w.1, w.2.record (.replicate n (.pay amount isOneTimeMode)))

theorem written_frame {w w' : World} {r : Request} {uid : String} {ok : Account → Account → Prop}
    {error : Option String} (h : Written w r uid ok error w') :
    w'.1 = w.1 ∧ ∃ n, w'.2 = { w.2 with
      account := w'.2.account
      journal := w.2.journal ++ List.replicate n r } := by
  cases error with
  | some e =>
    obtain rfl : w' = w := h
    exact ⟨rfl, 0, by simp⟩
  | none =>
    obtain ⟨a, -, rfl⟩ := h
    exact ⟨rfl, 1, rfl⟩

/-- An answer may sign a user in, change accounts, and add copies of its request to the journal.
Everything else stays. -/
theorem answers_frame {w w' : World} {r : Request} {a : r.Response} (h : Answers w r a w') :
    w'.1 = { w.1 with currentUser := w'.1.currentUser } ∧ ∃ n, w'.2 = { w.2 with
      account := w'.2.account
      journal := w.2.journal ++ List.replicate n r } := by
  have hsame : w' = w → w'.1 = { w.1 with currentUser := w'.1.currentUser } ∧ ∃ n, w'.2 = { w.2 with
      account := w'.2.account
      journal := w.2.journal ++ List.replicate n r } := by
    rintro rfl
    exact ⟨rfl, 0, by simp⟩
  cases r with
  | signIn email password =>
    cases a with
    | none =>
      obtain ⟨_, -, rfl⟩ := h
      exact ⟨rfl, 0, by simp⟩
    | some e => exact hsame h
  | createUser email password =>
    obtain ⟨_ | user, _ | error⟩ := a
    · exact hsame h
    · exact hsame h
    · obtain ⟨-, -, rfl⟩ := h
      exact ⟨rfl, 1, rfl⟩
    · exact hsame h
  | commitChanges | sendPasswordReset | getDonatesForOrganisation => exact hsame h
  | getUser | getFilters | getOrganisationsByCause | getOrganisations | getOrganisationsIn |
      getCauses | getPaymentHistory | getDonates => exact hsame h.1
  | setUser | updateUser | addPayment | addDonate | setDonate | deleteDonate =>
    simp only [Answers] at h
    obtain ⟨hd, hs⟩ := written_frame h
    exact ⟨by rw [hd], hs⟩
  | pay amount isOneTimeMode =>
    obtain ⟨n, -, -, rfl⟩ := h
    exact ⟨rfl, n, rfl⟩

/-- The answer of a request that fails. -/
def Request.rejected : (r : Request) → r.Response
  | .createUser .. => { error := some "error" }
  | .getUser .. => none
  | .getFilters => none
  | .getOrganisationsByCause .. => none
  | .getOrganisations => none
  | .getOrganisationsIn .. => none
  | .getCauses => none
  | .getPaymentHistory .. => none
  | .getDonates .. => none
  | .getDonatesForOrganisation .. => none
  | .pay .. => .failure
  | .signIn .. => some "error"
  | .commitChanges .. => some "error"
  | .sendPasswordReset .. => some "error"
  | .setUser .. => some "error"
  | .updateUser .. => some "error"
  | .addPayment .. => some "error"
  | .addDonate .. => some "error"
  | .setDonate .. => some "error"
  | .deleteDonate .. => some "error"

/-- Every request may fail without a trace. -/
theorem answers_rejected (w : World) (r : Request) : Answers w r r.rejected w := by
  cases r with
  | pay amount isOneTimeMode =>
    exact ⟨0, by simp [Request.rejected], fun _ => rfl, by simp [Server.record]⟩
  | _ => simp [Answers, Request.rejected, Written]

/-- The servers' side of an answer, for requests that leave the device alone. -/
def Serves (s : Server) (r : Request) (a : r.Response) (s' : Server) : Prop :=
  ∃ d : Device, Answers (d, s) r a (d, s')

theorem answers_total (w : World) (r : Request) : ∃ a w', Answers w r a w' :=
  ⟨r.rejected, w, answers_rejected w r⟩

/-- Everything the user sees, and what an operation reports to its caller. The bucket screen
is shown by `reloadData` once it has its rows; its own alert leaves it as it is. -/
inductive Effect
  | redirectToAuth
  | startActivityAnimating
  | stopActivityAnimating
  | networkErrorAlert
  | showDonateResult (donateAmount tipsAmount : Int) (isOneTimeMode : Bool)
  | reloadData (vc : MyBucket)
  | bucketNetworkErrorAlert (vc : MyBucket)
  | showToastAlert
  | showChooseRecipients
  | showActiveDonates (activeDonates : List DonateItem)
  | showPrevSupported (prevSupported : List OrganisationItem)
  | completed
  | reported (success : Bool)
deriving DecidableEq, Repr

/-- The variables captured by the closures of one loop over requests. -/
structure Frame where
  queryCount : Nat := 0
  isError : Bool := false
  result : List OrganisationItem := []
deriving DecidableEq, Repr, Inhabited

abbrev Prog : Type := EventLoop.Program Device Frame Effect Request.Response

abbrev Loop : Type := EventLoop.Config Device Server Frame Effect Request.Response

end Pledge
