import Pledge.Format.Fields
import Pledge.PledgeStore

/-!
# Stored documents

The documents of a user as Firestore stores them, field by field, under the records of the
model. What the app writes and what it reads go through the same keys.
-/

namespace Pledge

open Fields MachineInt

/-! ## Keys -/

namespace LendUserKey

def email : String := "email"
def displayName : String := "displayName"
def defaultDonateAmount : String := "defaultDonateAmount"
def tipsAmount : String := "tipsAmount"

theorem nodup : [email, displayName, defaultDonateAmount, tipsAmount].Nodup := by decide

end LendUserKey

namespace DonateItemKey

def amount : String := "amount"
def organisation : String := "organisation"

theorem nodup : [amount, organisation].Nodup := by decide

theorem nodup_date : [amount, organisation, "date"].Nodup := by decide

end DonateItemKey

/-! ## Records -/

/-- The dictionary of a write. -/
def UserDoc.fields (data : UserDoc) : Dictionary :=
  dictionary [
    (LendUserKey.email, data.email.map .string),
    (LendUserKey.displayName, data.displayName.map .string),
    (LendUserKey.defaultDonateAmount, data.defaultDonateAmount.map .ofInt),
    (LendUserKey.tipsAmount, data.tipsAmount.map .ofInt)]

def UserDoc.ofFields (data : Dictionary) : UserDoc :=
  { email := data.read Value.asString? LendUserKey.email
    displayName := data.read Value.asString? LendUserKey.displayName
    defaultDonateAmount := data.read Value.asInt? LendUserKey.defaultDonateAmount
    tipsAmount := data.read Value.asInt? LendUserKey.tipsAmount }

def DonateDoc.fields (data : DonateDoc) : Dictionary :=
  dictionary [
    (DonateItemKey.amount, data.amount.map .ofInt),
    (DonateItemKey.organisation, data.organisation.map .string)]

def DonateDoc.ofFields (data : Dictionary) : DonateDoc :=
  { amount := data.read Value.asInt? DonateItemKey.amount
    organisation := data.read Value.asString? DonateItemKey.organisation }

def PaymentDoc.fields (data : PaymentDoc) : Dictionary :=
  dictionary [
    (DonateItemKey.amount, data.amount.map .ofInt),
    (DonateItemKey.organisation, data.organisation.map .string),
    ("date", data.date.map .timestamp)]

def PaymentDoc.ofFields (data : Dictionary) : PaymentDoc :=
  { amount := data.read Value.asInt? DonateItemKey.amount
    organisation := data.read Value.asString? DonateItemKey.organisation
    date := data.read Value.asTimestamp? "date" }

/-- An amount that is given is a 64-bit integer. -/
def AmountInRange (amount : Option Int) : Prop := ∀ x, amount = some x → InRange x

/-- The amounts of a write are Swift integers. -/
def Request.InRange : Request → Prop
  | .setUser _ data | .updateUser _ data =>
    AmountInRange data.defaultDonateAmount ∧ AmountInRange data.tipsAmount
  | .addPayment _ data => AmountInRange data.amount
  | .addDonate _ data | .setDonate _ _ data => AmountInRange data.amount
  | _ => True

/-! ## Reading back what was written -/

theorem asInt?_of_inRange {amount : Option Int} (h : AmountInRange amount) :
    ∀ x, amount = some x → (Value.ofInt x).asInt? = some x :=
  fun x hx => Value.asInt?_ofInt (h x hx)

/-- `updateData(data)`. -/
theorem UserDoc.ofFields_written {data : UserDoc} (hd : AmountInRange data.defaultDonateAmount)
    (ht : AmountInRange data.tipsAmount) (old : Dictionary) :
    UserDoc.ofFields (data.fields ∪ old) = (UserDoc.ofFields old).update data := by
  simp only [UserDoc.ofFields, UserDoc.fields, UserDoc.update, UserDoc.mk.injEq]
  refine ⟨?_, ?_, ?_, ?_⟩
  · exact read_written _ _ _ LendUserKey.nodup rfl fun _ _ => rfl
  · exact read_written _ _ _ LendUserKey.nodup rfl fun _ _ => rfl
  · exact read_written _ _ _ LendUserKey.nodup rfl (asInt?_of_inRange hd)
  · exact read_written _ _ _ LendUserKey.nodup rfl (asInt?_of_inRange ht)

/-- `setData(data, merge: true)`. -/
theorem DonateDoc.ofFields_written {data : DonateDoc} (h : AmountInRange data.amount) (old : Dictionary) :
    DonateDoc.ofFields (data.fields ∪ old) = (DonateDoc.ofFields old).merge data := by
  simp only [DonateDoc.ofFields, DonateDoc.fields, DonateDoc.merge, DonateDoc.mk.injEq]
  refine ⟨?_, ?_⟩
  · exact read_written _ _ _ DonateItemKey.nodup rfl (asInt?_of_inRange h)
  · exact read_written _ _ _ DonateItemKey.nodup rfl fun _ _ => rfl

theorem PaymentDoc.ofFields_written {data : PaymentDoc} (h : AmountInRange data.amount) (old : Dictionary) :
    PaymentDoc.ofFields (data.fields ∪ old) =
      { amount := data.amount <|> (PaymentDoc.ofFields old).amount
        organisation := data.organisation <|> (PaymentDoc.ofFields old).organisation
        date := data.date <|> (PaymentDoc.ofFields old).date } := by
  simp only [PaymentDoc.ofFields, PaymentDoc.fields, PaymentDoc.mk.injEq]
  refine ⟨?_, ?_, ?_⟩
  · exact read_written _ _ _ DonateItemKey.nodup_date rfl (asInt?_of_inRange h)
  · exact read_written _ _ _ DonateItemKey.nodup_date rfl fun _ _ => rfl
  · exact read_written _ _ _ DonateItemKey.nodup_date rfl fun _ _ => rfl

/-! ### New documents -/

theorem UserDoc.ofFields_fields {data : UserDoc} (hd : AmountInRange data.defaultDonateAmount)
    (ht : AmountInRange data.tipsAmount) : UserDoc.ofFields data.fields = data := by
  have h := UserDoc.ofFields_written hd ht ∅
  rw [AList.union_empty] at h
  rw [h]
  simp [UserDoc.update, UserDoc.ofFields, Dictionary.read]

theorem DonateDoc.ofFields_fields {data : DonateDoc} (h : AmountInRange data.amount) :
    DonateDoc.ofFields data.fields = data := by
  have hw := DonateDoc.ofFields_written h ∅
  rw [AList.union_empty] at hw
  rw [hw]
  simp [DonateDoc.merge, DonateDoc.ofFields, Dictionary.read]

theorem PaymentDoc.ofFields_fields {data : PaymentDoc} (h : AmountInRange data.amount) :
    PaymentDoc.ofFields data.fields = data := by
  have hw := PaymentDoc.ofFields_written h ∅
  rw [AList.union_empty] at hw
  rw [hw]
  simp [PaymentDoc.ofFields, Dictionary.read]

/-! ## Accounts -/

/-- What the servers hold for one user, field by field. -/
structure RawAccount where
  email : Option String := none
  user : Option Dictionary := none
  donates : Collection Dictionary := ∅
  deletedDonates : List String := []
  paymentHistory : Collection Dictionary := ∅

/-- The account as the model has it. -/
def RawAccount.view (a : RawAccount) : Account :=
  { email := a.email
    user := a.user.map UserDoc.ofFields
    donates := mapValues DonateDoc.ofFields a.donates
    deletedDonates := a.deletedDonates
    paymentHistory := mapValues PaymentDoc.ofFields a.paymentHistory }

/-- What Firestore may do to the documents of `uid` when a request is answered: `setData`,
`updateData`, `addDocument`, `setData` with `merge`, `delete`. -/
inductive RawChange (uid : String) : Request → RawAccount → RawAccount → Prop
  | kept (r : Request) (a : RawAccount) : RawChange uid r a a
  | created (email password : String) (a : RawAccount) :
      RawChange uid (.createUser email password) a { a with email := some email }
  | userSet (data : UserDoc) (a : RawAccount) :
      RawChange uid (.setUser uid data) a { a with user := some data.fields }
  | userUpdated {old : Dictionary} (data : UserDoc) (a : RawAccount) (hold : a.user = some old) :
      RawChange uid (.updateUser uid data) a { a with user := some (data.fields ∪ old) }
  | paymentAdded {id : String} (data : PaymentDoc) (a : RawAccount) (hid : id ∉ a.paymentHistory) :
      RawChange uid (.addPayment uid data) a
        { a with paymentHistory := a.paymentHistory.insert id data.fields }
  | donateAdded {id : String} (data : DonateDoc) (a : RawAccount) (hid : id ∉ a.donates)
      (hdel : id ∉ a.deletedDonates) :
      RawChange uid (.addDonate uid data) a { a with donates := a.donates.insert id data.fields }
  | donateSet (id : String) (data : DonateDoc) (a : RawAccount) :
      RawChange uid (.setDonate uid id data) a
        { a with donates := a.donates.insert id (data.fields ∪ (a.donates.lookup id).getD ∅) }
  | donateDeleted (id : String) (a : RawAccount) :
      RawChange uid (.deleteDonate uid id) a
        { a with donates := a.donates.erase id, deletedDonates := id :: a.deletedDonates }

/-- The answers to a list of requests, one after the other. -/
inductive Writes {α : Type} (change : Request → α → α → Prop) : List Request → α → α → Prop
  | nil (a : α) : Writes change [] a a
  | cons {r : Request} {rs : List Request} {a b c : α} (h : change r a b) (t : Writes change rs b c) :
      Writes change (r :: rs) a c

variable {uid : String} {r : Request} {rs : List Request} {a b : RawAccount} {c : Account}

/-- A merge into a document that may not be there. -/
theorem ofFields_merged {data : DonateDoc} (h : AmountInRange data.amount) (id : String) :
    DonateDoc.ofFields (data.fields ∪ (a.donates.lookup id).getD ∅) =
      ((a.view.donates.lookup id).getD {}).merge data := by
  rw [DonateDoc.ofFields_written h, RawAccount.view, lookup_mapValues]
  cases a.donates.lookup id with
  | none => rfl
  | some old => rfl

section View

variable (a : RawAccount)

theorem view_setUser (data : Dictionary) :
    { a with user := some data }.view = { a.view with user := some (UserDoc.ofFields data) } := rfl

theorem view_setDonate (id : String) (data : Dictionary) :
    { a with donates := a.donates.insert id data }.view =
      { a.view with donates := a.view.donates.insert id (DonateDoc.ofFields data) } := by
  simp [RawAccount.view]

theorem view_deleteDonate (id : String) :
    { a with donates := a.donates.erase id, deletedDonates := id :: a.deletedDonates }.view =
      { a.view with donates := a.view.donates.erase id, deletedDonates := id :: a.view.deletedDonates } := by
  simp [RawAccount.view]

theorem view_addPayment (id : String) (data : Dictionary) :
    { a with paymentHistory := a.paymentHistory.insert id data }.view =
      { a.view with paymentHistory := a.view.paymentHistory.insert id (PaymentDoc.ofFields data) } := by
  simp [RawAccount.view]

end View

/-- What Firestore does to the fields, the model does to the records. -/
theorem RawChange.view (hr : r.InRange) (h : RawChange uid r a b) :
    AccountChange uid r a.view b.view := by
  cases h with
  | kept => exact .kept r _
  | created email password => exact .created email password _
  | userSet data =>
    rw [view_setUser, UserDoc.ofFields_fields hr.1 hr.2]
    exact .userSet data _
  | userUpdated data a hold =>
    rw [view_setUser, UserDoc.ofFields_written hr.1 hr.2]
    exact .userUpdated data _ (congrArg (Option.map UserDoc.ofFields) hold)
  | paymentAdded data a hid =>
    rw [view_addPayment, PaymentDoc.ofFields_fields hr]
    exact .paymentAdded data _ fun hmem => hid (mem_mapValues.mp hmem)
  | donateAdded data a hid hdel =>
    rw [view_setDonate, DonateDoc.ofFields_fields hr]
    exact .donateAdded data _ (fun hmem => hid (mem_mapValues.mp hmem)) hdel
  | donateSet id data =>
    rw [view_setDonate, ofFields_merged hr]
    exact .donateSet id data _
  | donateDeleted id =>
    rw [view_deleteDonate]
    exact .donateDeleted id _

/-- What the model does to the records, Firestore can do to the fields. -/
theorem AccountChange.exists_raw (hr : r.InRange) {d : Account} (hd : d = a.view)
    (h : AccountChange uid r d c) : ∃ b, RawChange uid r a b ∧ b.view = c := by
  cases h with
  | kept => exact ⟨a, .kept r a, hd.symm⟩
  | created email password =>
    subst hd
    exact ⟨_, .created email password a, rfl⟩
  | userSet data =>
    subst hd
    refine ⟨_, .userSet data a, ?_⟩
    rw [view_setUser, UserDoc.ofFields_fields hr.1 hr.2]
  | userUpdated data d hold =>
    subst hd
    obtain ⟨old, ha, rfl⟩ := Option.map_eq_some_iff.mp hold
    refine ⟨_, .userUpdated data a ha, ?_⟩
    rw [view_setUser, UserDoc.ofFields_written hr.1 hr.2]
  | paymentAdded data d hid =>
    subst hd
    refine ⟨_, .paymentAdded data a fun hmem => hid (mem_mapValues.mpr hmem), ?_⟩
    rw [view_addPayment, PaymentDoc.ofFields_fields hr]
  | donateAdded data d hid hdel =>
    subst hd
    refine ⟨_, .donateAdded data a (fun hmem => hid (mem_mapValues.mpr hmem)) hdel, ?_⟩
    rw [view_setDonate, DonateDoc.ofFields_fields hr]
  | donateSet id data =>
    subst hd
    refine ⟨_, .donateSet id data a, ?_⟩
    rw [view_setDonate, ofFields_merged hr]
  | donateDeleted id =>
    subst hd
    exact ⟨_, .donateDeleted id a, view_deleteDonate a id⟩

/-! ## Runs of writes -/

/-- The records of the model are the stored documents seen through the decoders: any sequence of
writes does to the one what it does to the other. -/
theorem writes_view_iff (hrs : ∀ r ∈ rs, r.InRange) :
    (∃ b, Writes (RawChange uid) rs a b ∧ b.view = c) ↔ Writes (AccountChange uid) rs a.view c := by
  constructor
  · rintro ⟨b, h, rfl⟩
    induction h with
    | nil a => exact .nil _
    | cons h _ ih =>
      rw [List.forall_mem_cons] at hrs
      exact .cons (h.view hrs.1) (ih hrs.2)
  · intro h
    generalize ha : a.view = a' at h
    induction h generalizing a with
    | nil => exact ⟨a, .nil a, ha⟩
    | cons h _ ih =>
      rw [List.forall_mem_cons] at hrs
      obtain ⟨b, hb, hview⟩ := h.exists_raw hrs.1 ha.symm
      obtain ⟨d, hd, hview'⟩ := ih hrs.2 hview
      exact ⟨d, .cons hb hd, hview'⟩

/-- Ann's pledge of five, raised to seven. -/
def annRaises : List Request :=
  [.addDonate "ann" { amount := some 5, organisation := some "kitchen" },
    .setDonate "ann" "pledge" { amount := some 7 }]

/-- The stored fields of Ann's pledge are those of the record that the model keeps. -/
theorem writes_view_ann : ∃ b, Writes (RawChange "ann") annRaises {} b ∧
    b.view = { donates := AList.singleton "pledge" { amount := some 7, organisation := some "kitchen" } } := by
  have hrange : ∀ r ∈ annRaises, r.InRange := by
    simp [annRaises, Request.InRange, AmountInRange]
    decide
  refine (writes_view_iff hrange).mpr ?_
  have hnew : "pledge" ∉ (RawAccount.view {}).donates := by decide
  exact .cons (.donateAdded _ _ hnew List.not_mem_nil) (.cons (.donateSet "pledge" { amount := some 7 } _) (.nil _))

/-! ## What writes leave alone -/

/-- The value of a field of a document that may not be there. -/
def fieldOf (document : Option Dictionary) (key : String) : Option Value := document.bind (·.lookup key)

theorem fieldOf_written {fields : List (String × Option Value)} (old : Option Dictionary) {key : String}
    (hkey : key ∉ fields.map Prod.fst) : fieldOf (some (dictionary fields ∪ old.getD ∅)) key = fieldOf old key := by
  unfold fieldOf
  rw [Option.bind_some, lookup_written_of_notMem _ _ hkey]
  cases old with
  | none => rfl
  | some old => rfl

/-- A request that ends what was in the document of pledge `id`. -/
def Request.DeletesDonate (id : String) : Request → Prop
  | .deleteDonate _ id' => id' = id
  | _ => False

def Request.SetsUser : Request → Prop
  | .setUser .. => True
  | _ => False

/-- What the app did not write itself stays as it was. -/
structure LeavesAlone (rs : List Request) (a b : RawAccount) : Prop where
  payment : ∀ id document, a.paymentHistory.lookup id = some document →
    b.paymentHistory.lookup id = some document
  donate : ∀ id, id ∈ a.donates → (∀ r ∈ rs, ¬ r.DeletesDonate id) → id ∈ b.donates ∧
    ∀ key, key ∉ [DonateItemKey.amount, DonateItemKey.organisation] →
      fieldOf (b.donates.lookup id) key = fieldOf (a.donates.lookup id) key
  user : (∀ r ∈ rs, ¬ r.SetsUser) → ∀ key,
    key ∉ [LendUserKey.email, LendUserKey.displayName, LendUserKey.defaultDonateAmount, LendUserKey.tipsAmount] →
      fieldOf b.user key = fieldOf a.user key

theorem LeavesAlone.refl (rs : List Request) (a : RawAccount) : LeavesAlone rs a a :=
  ⟨fun _ _ h => h, fun _ hid _ => ⟨hid, fun _ _ => rfl⟩, fun _ _ _ => rfl⟩

theorem LeavesAlone.trans {rs' : List Request} {d : RawAccount} (h : LeavesAlone rs a b) (h' : LeavesAlone rs' b d) :
    LeavesAlone (rs ++ rs') a d where
  payment id document hid := h'.payment id document (h.payment id document hid)
  donate id hid hr := by
    obtain ⟨hb, hfield⟩ := h.donate id hid fun r hmem => hr r (List.mem_append_left _ hmem)
    obtain ⟨hd, hfield'⟩ := h'.donate id hb fun r hmem => hr r (List.mem_append_right _ hmem)
    exact ⟨hd, fun key hkey => (hfield' key hkey).trans (hfield key hkey)⟩
  user hr key hkey :=
    (h'.user (fun r hmem => hr r (List.mem_append_right _ hmem)) key hkey).trans
      (h.user (fun r hmem => hr r (List.mem_append_left _ hmem)) key hkey)

theorem leavesAlone_paymentHistory {id : String} {document : Dictionary} (hid : id ∉ a.paymentHistory) :
    LeavesAlone rs a { a with paymentHistory := a.paymentHistory.insert id document } := by
  refine ⟨fun id' document' h => ?_, fun _ hid _ => ⟨hid, fun _ _ => rfl⟩, fun _ _ _ => rfl⟩
  have hne : id' ≠ id := by
    rintro rfl
    exact hid (AList.lookup_isSome.mp (by rw [h]; rfl))
  exact (AList.lookup_insert_ne hne).trans h

theorem leavesAlone_donates {donates : Collection Dictionary} (deleted : List String)
    (h : ∀ id, id ∈ a.donates → (∀ r ∈ rs, ¬ r.DeletesDonate id) → id ∈ donates ∧
      ∀ key, key ∉ [DonateItemKey.amount, DonateItemKey.organisation] →
        fieldOf (donates.lookup id) key = fieldOf (a.donates.lookup id) key) :
    LeavesAlone rs a { a with donates, deletedDonates := deleted } :=
  ⟨fun _ _ h => h, h, fun _ _ _ => rfl⟩

theorem RawChange.leavesAlone (h : RawChange uid r a b) : LeavesAlone [r] a b := by
  cases h with
  | kept => exact .refl _ _
  | created => exact ⟨fun _ _ h => h, fun _ hid _ => ⟨hid, fun _ _ => rfl⟩, fun _ _ _ => rfl⟩
  | userSet data =>
    refine ⟨fun _ _ h => h, fun _ hid _ => ⟨hid, fun _ _ => rfl⟩, fun hr => ?_⟩
    exact (hr _ List.mem_cons_self trivial).elim
  | userUpdated data a hold =>
    refine ⟨fun _ _ h => h, fun _ hid _ => ⟨hid, fun _ _ => rfl⟩, fun _ key hkey => ?_⟩
    rw [hold]
    exact fieldOf_written (some _) hkey
  | paymentAdded data a hid => exact leavesAlone_paymentHistory hid
  | donateAdded data a hid hdel =>
    refine leavesAlone_donates _ fun id' hid' _ => ?_
    have hne := ne_of_mem_of_not_mem hid' hid
    rw [AList.lookup_insert_ne hne]
    exact ⟨(AList.mem_insert _).mpr (.inr hid'), fun _ _ => rfl⟩
  | donateSet id data =>
    refine leavesAlone_donates a.deletedDonates fun id' hid' _ =>
      ⟨(AList.mem_insert _).mpr (.inr hid'), fun key hkey => ?_⟩
    by_cases he : id' = id
    · subst he
      rw [AList.lookup_insert]
      exact fieldOf_written _ hkey
    · rw [AList.lookup_insert_ne he]
  | donateDeleted id =>
    refine leavesAlone_donates _ fun id' hid' hr => ?_
    have hne : id' ≠ id := fun he => hr _ List.mem_cons_self he.symm
    rw [AList.lookup_erase_ne hne]
    exact ⟨AList.mem_erase.mpr ⟨hne, hid'⟩, fun _ _ => rfl⟩

/-- Whatever is written in whatever order, no payment that was recorded is changed or lost, a
pledge keeps the fields that the app does not know until it is deleted, and a user record keeps
them until it is set up anew. -/
theorem writes_leavesAlone (h : Writes (RawChange uid) rs a b) : LeavesAlone rs a b := by
  induction h with
  | nil a => exact .refl _ a
  | cons h _ ih => exact h.leavesAlone.trans ih

/-- A pledge of Ann's with a field that the app does not know. -/
def annNoted : RawAccount :=
  { donates := AList.singleton "pledge" (AList.singleton "note" (.string "thanks")) }

/-- The note is still there after Ann has pledged again and changed the amount. -/
theorem writes_leavesAlone_ann : ∃ b, Writes (RawChange "ann") annRaises annNoted b ∧
    fieldOf (b.donates.lookup "pledge") "note" = some (.string "thanks") := by
  have hnew : "second" ∉ annNoted.donates := by decide
  have hwrites : Writes (RawChange "ann") annRaises annNoted _ :=
    .cons (.donateAdded _ _ hnew List.not_mem_nil) (.cons (.donateSet "pledge" { amount := some 7 } _) (.nil _))
  obtain ⟨-, hfield⟩ := (writes_leavesAlone hwrites).donate "pledge" (by decide)
    (by simp [annRaises, Request.DeletesDonate])
  exact ⟨_, hwrites, hfield "note" (by decide)⟩

end Pledge
