import Pledge.Chunked
import Pledge.EventLoop.Yields
import Pledge.World

/-!
# FirestoreManager

Every operation takes its completion as a continuation and returns to its caller once its
first request is issued, as the source does.
-/

namespace Pledge

open EventLoop (Program yields_read yields_emit)

theorem chunked_setOrder_ne_nil {ids : List String} (setOrder : SetOrder)
    (hids : ¬ ids.isEmpty = true) : chunked (setOrder.1 ids) 10 ≠ [] := by
  intro hnil
  have hflat : (chunked (setOrder.1 ids) 10).flatten = setOrder.1 ids := flatten_chunked _ (by omega)
  rw [hnil, List.flatten_nil] at hflat
  have hperm := setOrder.2 ids
  rw [← hflat, List.nil_perm] at hperm
  exact hids (by simpa using hperm)

namespace Device

/-- `filters` with its `didSet`. -/
def setFilters (d : Device) (filters : List FilterItem) : Device :=
  { d with filters, filtersDict := filters.foldl (fun dict f => dict.insert f.id f) ∅ }

def addFiltersToOrganisations (d : Device) (organisations : List OrganisationItem) :
    List OrganisationItem :=
  organisations.map fun organisation =>
    match organisation.fieldId with
    | some filterId => { organisation with filterName := (d.filtersDict.lookup filterId).map FilterItem.name }
    | none => organisation

/-- `UserManager.shared.user?.… = …`. -/
def updateUser (d : Device) (f : LendUser → LendUser) : Device :=
  d.setUserManager { d.userManager with user := d.userManager.user.map f }

end Device

namespace FirestoreManager

/-- `guard let uid = currentUser?.uid else { Coordinator.redirectToAuth(); … }`. -/
def withUid (otherwise : Prog) (body : String → Prog) : Prog :=
  .read fun d =>
    match d.currentUser with
    | none => .emit .redirectToAuth otherwise
    | some uid => body uid

def addUser (uid email : String) (displayName : Option String) (completion : Bool → Prog) : Prog :=
  .ask (.setUser uid { email := some email, displayName }) fun error => completion error.isNone

def fetchUpdateUser (completion : Bool → Prog) : Prog :=
  withUid (completion false) fun uid =>
    .ask (.getUser uid) fun snapshot =>
      match LendUser.init? snapshot with
      | some user =>
        .modify (fun d => d.setUserManager { d.userManager with user := some user }) (completion true)
      | none => completion false

def signIn (email password : String) (completion : Option String → Prog) : Prog :=
  .modify (fun d => if d.signOutError.isNone then { d with currentUser := none } else d) <|
    .ask (.signIn email password) fun error =>
      match error with
      | some e => completion (some e)
      | none => fetchUpdateUser fun _ => completion none

def signUp (email password : String) (displayName : Option String)
    (completion : Bool → Option String → Prog) : Prog :=
  let addUserBlock (uid : String) : Prog :=
    .modify (fun d => d.setUserManager
      { d.userManager with user := some { email, displayName } }) <|
      addUser uid email displayName fun _ => completion true none
  .ask (.createUser email password) fun authResult =>
    match authResult.error, authResult.user with
    | some e, _ => completion false (some e)
    | none, none => completion false none
    | none, some uid =>
      match displayName with
      | some displayName =>
        .read fun d =>
          match d.currentUser with
          | some _ => .ask (.commitChanges displayName) fun _ => addUserBlock uid
          | none => .stop
      | none => addUserBlock uid

def resetPassword (email : String) (completion : Option String → Prog) : Prog :=
  .ask (.sendPasswordReset email) completion

def fetchFilters (usingCache : Bool) (completion : Option (List FilterItem) → Prog) : Prog :=
  .read fun d =>
    if usingCache && !d.filters.isEmpty then completion (some d.filters)
    else
      .ask .getFilters fun snapshot =>
        match snapshot with
        | none => completion none
        | some documents =>
          let result := documents.filterMap FilterItem.init?
          if !result.isEmpty then .modify (·.setFilters result) (completion (some result))
          else completion (some result)

/-- The common callback of the fetches by cause and of all organisations. -/
def organisationsCallback (completion : Option (List OrganisationItem) → Prog)
    (snapshot : Option (List (Document OrganisationDoc))) : Prog :=
  match snapshot with
  | none => completion none
  | some documents =>
    let result := documents.filterMap OrganisationItem.init?
    if !result.isEmpty then
      fetchFilters true fun _ => .read fun d => completion (some (d.addFiltersToOrganisations result))
    else .stop

def fetchOrganisationsByCause (causeId : String)
    (completion : Option (List OrganisationItem) → Prog) : Prog :=
  .ask (.getOrganisationsByCause causeId) (organisationsCallback completion)

/-- The second argument of `completion` is the last document of the snapshot. -/
def fetchOrganisations
    (completion : Option (List OrganisationItem) → Option (Document OrganisationDoc) → Prog) : Prog :=
  .ask .getOrganisations fun snapshot =>
    organisationsCallback (fun result => completion result (snapshot.bind List.getLast?)) snapshot

def updateDefaultDonateAmount (amount : Int) (completion : Bool → Prog) : Prog :=
  withUid (completion false) fun uid =>
    .read fun d =>
      if d.userManager.user.map LendUser.defaultDonateAmount ≠ some amount then
        .ask (.updateUser uid { defaultDonateAmount := some amount }) fun error =>
          if error.isNone then
            .modify (·.updateUser fun user => { user with defaultDonateAmount := amount })
              (completion error.isNone)
          else completion error.isNone
      else completion true

def fetchCauses (completion : Option (List Cause) → Prog) : Prog :=
  .ask .getCauses fun snapshot => completion (snapshot.map (·.filterMap Cause.init?))

def addTips (amount : Int) (completion : Bool → Prog) : Prog :=
  withUid (completion false) fun uid =>
    .ask (.updateUser uid { tipsAmount := some amount }) fun error =>
      if error.isNone then
        .modify (·.updateUser fun user => { user with tips := some amount }) (completion error.isNone)
      else completion error.isNone

def addOneTimeDonate (organisationId : String) (amount : Int) (date : Nat)
    (completion : Bool → Prog) : Prog :=
  withUid (completion false) fun uid =>
    .ask (.addPayment uid { amount := some amount, organisation := some organisationId, date := some date })
      fun error => completion error.isNone

def addDonate (organisationId : String) (amount : Int) (completion : Bool → Prog) : Prog :=
  withUid (completion false) fun uid =>
    .ask (.addDonate uid { amount := some amount, organisation := some organisationId })
      fun error => completion error.isNone

def editDonate (id : String) (data : DonateDoc) (completion : Bool → Prog) : Prog :=
  withUid (completion false) fun uid =>
    .ask (.setDonate uid id data) fun error => completion error.isNone

def deleteDonate (id : String) (completion : Bool → Prog) : Prog :=
  withUid (completion false) fun uid =>
    .ask (.deleteDonate uid id) fun error => completion error.isNone

def fetchDonateRefs (completion : Option (List DonateItemRef) → Prog) : Prog :=
  withUid (completion none) fun uid =>
    .ask (.getDonates uid) fun snapshot =>
      match snapshot with
      | none => completion none
      | some documents =>
        let result := documents.filterMap DonateItemRef.init?
        .modify (fun d => { d with donateRefs := some result }) (completion (some result))

/-- `fetchOrganisations(ids:)`: one query for each chunk of ten ids, joined by a count. An id that
is none makes the SDK throw on the way, as `running` has it. -/
def fetchOrganisationsIn (ids : List String) (completion : List OrganisationItem → Prog) : Prog :=
  if ids.isEmpty then completion []
  else
    .read fun d =>
      let uniqIds := d.setOrder.1 ids
      let chunked := chunked uniqIds 10
      .fanOut chunked (fun chunkedItem => .getOrganisationsIn chunkedItem)
        (fun _ snapshot => (snapshot.getD []).filterMap OrganisationItem.init?) {}
        (fun frame organisations =>
          { frame with queryCount := frame.queryCount + 1, result := frame.result ++ organisations })
        (fun frame => frame.queryCount == chunked.length)
        fun frame => .read fun d => completion (d.addFiltersToOrganisations frame.result)

def fetchPaymentHistory (completion : Option (List OrganisationItem) → Prog) : Prog :=
  withUid (completion none) fun uid =>
    .ask (.getPaymentHistory uid) fun snapshot =>
      match snapshot with
      | none => completion none
      | some documents =>
        let data := documents.filterMap fun d => d.data.bind PaymentDoc.organisation
        fetchOrganisationsIn data fun organisations => completion (some organisations)

/-- The pledges whose organisation was fetched, in the order of the pledge query. -/
def joinDonates (donateRefs : List DonateItemRef) (organisations : List OrganisationItem) :
    List DonateItem :=
  let orgsDict : Collection OrganisationItem :=
    organisations.foldl (fun dict o => dict.insert o.id o) ∅
  donateRefs.filterMap fun ref =>
    (orgsDict.lookup ref.organisationId).map fun orgItem =>
      { id := ref.id, amount := ref.amount, organisation := orgItem }

def fetchDonates (completion : Option (List DonateItem) → Prog) : Prog :=
  fetchDonateRefs fun donateRefs =>
    match donateRefs with
    | none => completion none
    | some donateRefs =>
      if donateRefs.isEmpty then completion (some [])
      else
        fetchOrganisationsIn (donateRefs.map DonateItemRef.organisationId) fun organisations =>
          completion (some (joinDonates donateRefs organisations))

def fetchDonatesForOrganisation (id : String) (completion : Option (List DonateItemRef) → Prog) : Prog :=
  .ask (.getDonatesForOrganisation id) fun snapshot =>
    completion (snapshot.map (·.filterMap DonateItemRef.init?))

end FirestoreManager

section WithUid

variable {serve : World → (r : Request) → r.Response → World → Prop} {w w' : World} {h : List Frame}
  {l : List Effect} {otherwise : Prog} {body : String → Prog} {uid : String}

theorem yields_withUid_signedIn (hu : w.1.currentUser = some uid) :
    (FirestoreManager.withUid otherwise body).Yields serve w h w' l ↔
      (body uid).Yields serve w h w' l := by
  rw [FirestoreManager.withUid, yields_read, hu]

/-- Nobody is signed in: the body is replaced by a redirect. -/
theorem yields_withUid_signedOut (hu : w.1.currentUser = none)
    (hy : (FirestoreManager.withUid otherwise body).Yields serve w h w' l) :
    ∃ l', l = .redirectToAuth :: l' ∧ otherwise.Yields serve w h w' l' := by
  rw [FirestoreManager.withUid, yields_read, hu] at hy
  exact yields_emit.mp hy

variable {amount : Int} {k : Bool → Prog}

/-- The recorded amount is not written again. -/
theorem yields_updateDefaultDonateAmount_of_eq (hu : w.1.currentUser = some uid)
    (he : w.1.userManager.user.map LendUser.defaultDonateAmount = some amount) :
    (FirestoreManager.updateDefaultDonateAmount amount k).Yields serve w h w' l ↔
      (k true).Yields serve w h w' l := by
  rw [FirestoreManager.updateDefaultDonateAmount, yields_withUid_signedIn hu, yields_read]
  simp only [he, ne_eq, not_true_eq_false, if_false]

theorem yields_updateDefaultDonateAmount_of_ne (hu : w.1.currentUser = some uid)
    (hne : w.1.userManager.user.map LendUser.defaultDonateAmount ≠ some amount) :
    (FirestoreManager.updateDefaultDonateAmount amount k).Yields serve w h w' l ↔
      (Program.ask (.updateUser uid { defaultDonateAmount := some amount }) fun error : Option String =>
        if error.isNone then
          .modify (·.updateUser fun user => { user with defaultDonateAmount := amount }) (k error.isNone)
        else k error.isNone).Yields serve w h w' l := by
  rw [FirestoreManager.updateDefaultDonateAmount, yields_withUid_signedIn hu, yields_read]
  simp only [hne, ne_eq, not_false_eq_true, if_true]

end WithUid

end Pledge
