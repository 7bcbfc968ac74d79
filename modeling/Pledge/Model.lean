import Mathlib.Algebra.Order.Ring.Int
import Mathlib.Data.List.AList

/-!
# Records

The values that screens and the store exchange, and how documents decode into them.
A field of a document is `none` when it is missing or has another type.
-/

namespace Pledge

/-- A document snapshot; `data` is `none` when the document does not exist. -/
structure Document (α : Type) where
  documentID : String
  data : Option α
deriving DecidableEq, Repr

/-- The documents of one collection by id. -/
abbrev Collection (α : Type) : Type := AList fun _ : String => α

/-- What a query over a whole collection may return, in some order. -/
def Collection.Snapshot {α : Type} (c : Collection α) (documents : List (Document α)) : Prop :=
  documents.Perm (c.entries.map fun e => ⟨e.1, some e.2⟩)

/-! ## Organisations, causes and filters -/

structure OrganisationDoc where
  about : Option String := none
  name : Option String := none
  field : Option String := none
  causes : List String := []
deriving DecidableEq, Repr

structure OrganisationItem where
  id : String
  about : String := ""
  name : String := ""
  fieldId : Option String := none
  filterName : Option String := none
deriving DecidableEq, Repr

def OrganisationItem.init? (document : Document OrganisationDoc) : Option OrganisationItem :=
  document.data.map fun data =>
    { id := document.documentID
      about := data.about.getD ""
      name := data.name.getD ""
      fieldId := data.field }

structure CauseDoc where
  name : Option String := none
deriving DecidableEq, Repr

structure Cause where
  id : String
  name : String := ""
deriving DecidableEq, Repr

def Cause.init? (document : Document CauseDoc) : Option Cause :=
  document.data.map fun data => { id := document.documentID, name := data.name.getD "" }

/-- `imageUrl` is the URL its text parses to. -/
structure FilterDoc where
  name : Option String := none
  imageUrl : Option String := none
deriving DecidableEq, Repr

structure FilterItem where
  id : String
  name : String
  imageUrl : String
deriving DecidableEq, Repr

def FilterItem.init? (document : Document FilterDoc) : Option FilterItem :=
  document.data.bind fun data =>
    data.imageUrl.map fun imageUrl =>
      { id := document.documentID, name := data.name.getD "", imageUrl := imageUrl }

/-! ## Pledges -/

/-- A document of the `Donates` collection. -/
structure DonateDoc where
  amount : Option Int := none
  organisation : Option String := none
deriving DecidableEq, Repr

/-- `setData(data, merge: true)` on a document; fields absent from `data` are kept. -/
def DonateDoc.merge (old data : DonateDoc) : DonateDoc :=
  { amount := data.amount <|> old.amount, organisation := data.organisation <|> old.organisation }

structure DonateItemRef where
  id : String
  amount : Int
  organisationId : String
deriving DecidableEq, Repr

def DonateItemRef.init? (document : Document DonateDoc) : Option DonateItemRef :=
  match document.data with
  | some { amount := some amount, organisation := some organisationId } =>
    some { id := document.documentID, amount, organisationId }
  | _ => none

structure DonateItem where
  id : String
  amount : Int
  organisation : OrganisationItem
deriving DecidableEq, Repr

/-- A document of the payment history. -/
structure PaymentDoc where
  amount : Option Int := none
  organisation : Option String := none
  date : Option Nat := none
deriving DecidableEq, Repr

/-! ## Users -/

structure UserDoc where
  email : Option String := none
  displayName : Option String := none
  defaultDonateAmount : Option Int := none
  tipsAmount : Option Int := none
deriving DecidableEq, Repr

/-- `updateData(data)`: the given fields replace the stored ones. -/
def UserDoc.update (old data : UserDoc) : UserDoc :=
  { email := data.email <|> old.email
    displayName := data.displayName <|> old.displayName
    defaultDonateAmount := data.defaultDonateAmount <|> old.defaultDonateAmount
    tipsAmount := data.tipsAmount <|> old.tipsAmount }

structure LendUser where
  email : String
  displayName : Option String
  defaultDonateAmount : Int := 0
  tips : Option Int := none
deriving DecidableEq, Repr

def LendUser.init? (document : Option (Document UserDoc)) : Option LendUser :=
  (document.bind Document.data).bind fun data =>
    data.email.map fun email =>
      { email
        displayName := data.displayName
        defaultDonateAmount := data.defaultDonateAmount.getD 0
        tips := data.tipsAmount }

/-- `(displayName ?? "").components(separatedBy: " ")`. -/
def LendUser.nameComponents (user : LendUser) : List String :=
  (((user.displayName.getD "").toList.splitOn ' ').map String.ofList)

def LendUser.firstName (user : LendUser) : Option String := user.nameComponents.head?

def LendUser.lastName (user : LendUser) : Option String := user.nameComponents.getLast?

/-! ## Buckets -/

inductive DonateType
  | once
  | monthly
deriving DecidableEq, Repr

structure OrganisationWithAmount where
  amount : Int
  organisation : OrganisationItem
  donateId : Option String := none
deriving DecidableEq, Repr

structure BucketModel where
  donatedOrganisations : List OrganisationWithAmount
  type : DonateType
deriving DecidableEq, Repr

/-- The sum of the row amounts. -/
def totalSum (rows : List OrganisationWithAmount) : Int := (rows.map (·.amount)).sum

namespace Constants

def minAmount : Int := 1
def maxCauseAmount : Int := 300

end Constants

namespace Constants.Error

def emailInputError : String := "Email is not valid"
def passwordInputError : String := "Password is too short. 6 chars minimum"
def unexpectedError : String := "Unexpected error please try again"

end Constants.Error

/-- The session record; `storedOneTimeDonateAmout` is the persisted user default. -/
structure UserManager where
  user : Option LendUser := none
  completeDonation : Option BucketModel := none
  tmpDonateAmount : Option Int := none
  storedOneTimeDonateAmout : Option Int := none
deriving DecidableEq, Repr

namespace UserManager

def defaultDonateAmount (u : UserManager) : Int :=
  (u.user.map LendUser.defaultDonateAmount).getD 0

def oneTimeDonateAmout (u : UserManager) : Int :=
  u.storedOneTimeDonateAmout.getD Constants.minAmount

def setOneTimeDonateAmout (u : UserManager) (amount : Int) : UserManager :=
  { u with storedOneTimeDonateAmout := some amount }

def shouldSetAmount (u : UserManager) : Bool :=
  u.tmpDonateAmount.isNone && u.defaultDonateAmount == 0

def resetUserData (u : UserManager) : UserManager :=
  { u with user := none, completeDonation := none, tmpDonateAmount := none }

def tipsAmount (u : UserManager) : Int := (u.user.bind LendUser.tips).getD 0

/-- `(user?.defaultDonateAmount ?? 0) + (user?.tips ?? 0)`. -/
def userDonateAndTips (u : UserManager) : Int :=
  (u.user.map LendUser.defaultDonateAmount).getD 0 + (u.user.bind LendUser.tips).getD 0

theorem userDonateAndTips_eq (u : UserManager) :
    u.userDonateAndTips = u.defaultDonateAmount + u.tipsAmount := rfl

end UserManager

end Pledge
