import Pledge.ChunkedFetch

/-! Which operations of the store answer their caller exactly once. -/
namespace Pledge

open EventLoop FirestoreManager

/-- The completion-taking operations of `FirestoreManager`. -/
inductive Operation
  | signIn (email password : String)
  | signUp (email password : String) (displayName : Option String)
  | resetPassword (email : String)
  | addUser (uid email : String) (displayName : Option String)
  | fetchUpdateUser
  | fetchFilters (usingCache : Bool)
  | fetchOrganisationsByCause (causeId : String)
  | fetchOrganisations
  | updateDefaultDonateAmount (amount : Int)
  | fetchCauses
  | addTips (amount : Int)
  | addOneTimeDonate (organisationId : String) (amount : Int) (date : Nat)
  | fetchPaymentHistory
  | addDonate (organisationId : String) (amount : Int)
  | editDonate (id : String) (data : DonateDoc)
  | deleteDonate (id : String)
  | fetchDonateRefs
  | fetchDonates
  | fetchDonatesForOrganisation (id : String)
  | fetchOrganisationsIn (ids : List String)

/-- A completion that only leaves a mark. -/
def completion : Prog := .emit .completed .stop

/-- The operation called with that completion. -/
def Operation.call : Operation → Prog
  | .signIn email password => FirestoreManager.signIn email password fun _ => completion
  | .signUp email password displayName =>
    FirestoreManager.signUp email password displayName fun _ _ => completion
  | .resetPassword email => FirestoreManager.resetPassword email fun _ => completion
  | .addUser uid email displayName => FirestoreManager.addUser uid email displayName fun _ => completion
  | .fetchUpdateUser => FirestoreManager.fetchUpdateUser fun _ => completion
  | .fetchFilters usingCache => FirestoreManager.fetchFilters usingCache fun _ => completion
  | .fetchOrganisationsByCause causeId =>
    FirestoreManager.fetchOrganisationsByCause causeId fun _ => completion
  | .fetchOrganisations => FirestoreManager.fetchOrganisations fun _ _ => completion
  | .updateDefaultDonateAmount amount =>
    FirestoreManager.updateDefaultDonateAmount amount fun _ => completion
  | .fetchCauses => FirestoreManager.fetchCauses fun _ => completion
  | .addTips amount => FirestoreManager.addTips amount fun _ => completion
  | .addOneTimeDonate organisationId amount date =>
    FirestoreManager.addOneTimeDonate organisationId amount date fun _ => completion
  | .fetchPaymentHistory => FirestoreManager.fetchPaymentHistory fun _ => completion
  | .addDonate organisationId amount =>
    FirestoreManager.addDonate organisationId amount fun _ => completion
  | .editDonate id data => FirestoreManager.editDonate id data fun _ => completion
  | .deleteDonate id => FirestoreManager.deleteDonate id fun _ => completion
  | .fetchDonateRefs => FirestoreManager.fetchDonateRefs fun _ => completion
  | .fetchDonates => FirestoreManager.fetchDonates fun _ => completion
  | .fetchDonatesForOrganisation id =>
    FirestoreManager.fetchDonatesForOrganisation id fun _ => completion
  | .fetchOrganisationsIn ids => FirestoreManager.fetchOrganisationsIn ids fun _ => completion

/-- One outcome for each request: what its callback receives, and the device (cache,
current user) that the callback finds. -/
abbrev Outcomes : Type := (r : Request) → r.Response × Device

def Outcomes.serve (outcomes : Outcomes) (w : World) (r : Request) (a : r.Response) (w' : World) :
    Prop := outcomes r = (a, w'.1) ∧ w'.2 = w.2

def answered (e : Effect) : ℕ := if e = .completed then 1 else 0

/-- A snapshot none of whose documents decodes to an organisation. -/
def NothingDecodes (snapshot : Option (List (Document OrganisationDoc))) : Prop :=
  snapshot.map (·.filterMap OrganisationItem.init?) = some []

/-- One of these is not the id of a document. -/
def Unfit (ids : List String) : Prop := ∃ id ∈ ids, isDocumentID id = false

/-- The outcomes under which an operation never calls its completion: it forgets it, or a request
cannot be built. -/
def Operation.Drops (outcomes : Outcomes) (d : Device) : Operation → Prop
  | .signUp email password displayName =>
    (outcomes (.createUser email password)).1.error = none ∧
    (outcomes (.createUser email password)).1.user.isSome ∧ displayName.isSome ∧
    (outcomes (.createUser email password)).2.currentUser = none
  | .fetchOrganisationsByCause causeId => NothingDecodes (outcomes (.getOrganisationsByCause causeId)).1
  | .fetchOrganisations => NothingDecodes (outcomes .getOrganisations).1
  | .fetchPaymentHistory => ∃ uid documents, d.currentUser = some uid ∧
      (outcomes (.getPaymentHistory uid)).1 = some documents ∧
      Unfit (documents.filterMap fun document => document.data.bind PaymentDoc.organisation)
  | .editDonate id _ => d.currentUser.isSome ∧ isDocumentPath id = false
  | .deleteDonate id => d.currentUser.isSome ∧ isDocumentPath id = false
  | .fetchDonates => ∃ uid documents, d.currentUser = some uid ∧
      (outcomes (.getDonates uid)).1 = some documents ∧
      Unfit ((documents.filterMap DonateItemRef.init?).map DonateItemRef.organisationId)
  | .fetchOrganisationsIn ids => Unfit ids
  | _ => False

theorem serve_total (outcomes : Outcomes) (w : World) (r : Request) :
    ∃ a w', outcomes.serve w r a w' := ⟨(outcomes r).1, ((outcomes r).2, w.2), rfl, rfl⟩

section Weighs

variable {serve : World → (r : Request) → r.Response → World → Prop} {n : ℕ} {w : World} {uid : String}
  {outcomes : Outcomes}

theorem weighs_completion (w : World) : (running completion).Weighs serve answered w 1 :=
  weighs_emit weighs_stop

theorem weighs_reading {k : Device → Prog} (hk : (running (k w.1)).Weighs serve answered w n) :
    (running (.read k)).Weighs serve answered w n := weighs_read hk

theorem weighs_asking {r : Request} {callback : r.Response → Prog} (hr : r.raises = false)
    (hc : ∀ a w', serve w r a w' → (running (callback a)).Weighs serve answered w' n) :
    (running (.ask r callback)).Weighs serve answered w n := by
  rw [running, upTo_ask hr]
  exact weighs_ask hc

/-- Nobody is signed in, and the completion is called at once; or somebody is. -/
theorem weighs_withUid_of {otherwise : Prog} {body : String → Prog}
    (ho : (running otherwise).Weighs serve answered w n)
    (hb : ∀ uid, w.1.currentUser = some uid → (running (body uid)).Weighs serve answered w n) :
    (running (withUid otherwise body)).Weighs serve answered w n := by
  refine weighs_reading ?_
  cases hu : w.1.currentUser with
  | none =>
    have hemit := weighs_emit (o := Effect.redirectToAuth) ho
    rwa [show answered .redirectToAuth + n = n from Nat.zero_add n] at hemit
  | some uid => exact hb uid hu

theorem weighs_withUid {otherwise : Prog} {body : String → Prog}
    (ho : (running otherwise).Weighs serve answered w n)
    (hb : ∀ uid, (running (body uid)).Weighs serve answered w n) :
    (running (withUid otherwise body)).Weighs serve answered w n :=
  weighs_withUid_of ho fun uid _ => hb uid

theorem weighs_withUid_of_signedIn {otherwise : Prog} {body : String → Prog}
    (hu : w.1.currentUser = some uid) (hb : (running (body uid)).Weighs serve answered w n) :
    (running (withUid otherwise body)).Weighs serve answered w n := by
  refine weighs_reading ?_
  rw [hu]
  exact hb

theorem weighs_fetchUpdateUser {k : Bool → Prog}
    (hk : ∀ b w, (running (k b)).Weighs serve answered w n) :
    (running (fetchUpdateUser k)).Weighs serve answered w n := by
  refine weighs_withUid (hk _ w) fun uid => weighs_asking rfl fun snapshot w' _ => ?_
  split
  · exact weighs_modify (hk _ _)
  · exact hk _ _

theorem weighs_signIn {email password : String} {k : Option String → Prog}
    (hk : ∀ e w, (running (k e)).Weighs serve answered w n) :
    (running (signIn email password k)).Weighs serve answered w n := by
  refine weighs_modify (weighs_asking rfl fun error w' _ => ?_)
  cases error with
  | none => exact weighs_fetchUpdateUser fun _ => hk _
  | some e => exact hk _ _

theorem weighs_fetchFilters {usingCache : Bool} {k : Option (List FilterItem) → Prog}
    (hk : ∀ l w, (running (k l)).Weighs serve answered w n) :
    (running (fetchFilters usingCache k)).Weighs serve answered w n := by
  refine weighs_reading ?_
  split
  · exact hk _ _
  · refine weighs_asking rfl fun snapshot w' _ => ?_
    cases snapshot with
    | none => exact hk _ _
    | some documents =>
      dsimp only
      split
      · exact weighs_modify (hk _ _)
      · exact hk _ _

theorem weighs_organisationsCallback {k : Option (List OrganisationItem) → Prog}
    {snapshot : Option (List (Document OrganisationDoc))} (hs : ¬ NothingDecodes snapshot)
    (hk : ∀ l w, (running (k l)).Weighs serve answered w n) :
    (running (organisationsCallback k snapshot)).Weighs serve answered w n := by
  cases snapshot with
  | none => exact hk none w
  | some documents =>
    have hr : documents.filterMap OrganisationItem.init? ≠ [] := fun h => hs (congrArg some h)
    have hne : (!(documents.filterMap OrganisationItem.init?).isEmpty) = true := by simpa using hr
    rw [organisationsCallback]
    simp only [hne, if_true]
    exact weighs_fetchFilters fun _ w => weighs_reading (hk _ w)

/-- The callback returns without calling its completion when nothing decodes. -/
theorem weighs_organisationsCallback_of_nothingDecodes
    {k : Option (List OrganisationItem) → Prog} {snapshot : Option (List (Document OrganisationDoc))}
    (hs : NothingDecodes snapshot) :
    (running (organisationsCallback k snapshot)).Weighs serve answered w 0 := by
  cases snapshot with
  | none => simp [NothingDecodes] at hs
  | some documents =>
    have hr : documents.filterMap OrganisationItem.init? = [] := Option.some.inj hs
    rw [organisationsCallback, hr]
    exact weighs_stop

theorem weighs_updateDefaultDonateAmount {amount : Int} {k : Bool → Prog}
    (hk : ∀ b w, (running (k b)).Weighs serve answered w n) :
    (running (updateDefaultDonateAmount amount k)).Weighs serve answered w n := by
  refine weighs_withUid (hk _ w) fun uid => weighs_reading ?_
  split
  · refine weighs_asking rfl fun error w' _ => ?_
    split
    · exact weighs_modify (hk _ _)
    · exact hk _ _
  · exact hk _ _

theorem weighs_addTips {amount : Int} {k : Bool → Prog}
    (hk : ∀ b w, (running (k b)).Weighs serve answered w n) :
    (running (addTips amount k)).Weighs serve answered w n := by
  refine weighs_withUid (hk _ w) fun uid => weighs_asking rfl fun error w' _ => ?_
  split
  · exact weighs_modify (hk _ _)
  · exact hk _ _

theorem weighs_fetchDonateRefs {k : Option (List DonateItemRef) → Prog}
    (hk : ∀ l w, (running (k l)).Weighs serve answered w n) :
    (running (fetchDonateRefs k)).Weighs serve answered w n := by
  refine weighs_withUid (hk _ w) fun uid => weighs_asking rfl fun snapshot w' _ => ?_
  cases snapshot with
  | none => exact hk _ _
  | some documents => exact weighs_modify (hk _ _)

/-! ### Fetches by id -/

theorem weighs_fetchOrganisationsIn {ids : List String} {k : List OrganisationItem → Prog}
    (hids : ¬ Unfit ids) (hk : ∀ l w, (running (k l)).Weighs serve answered w n) :
    (running (fetchOrganisationsIn ids k)).Weighs serve answered w n := by
  have hfit : ∀ id ∈ ids, isDocumentID id = true := by
    intro id hid
    by_contra hno
    exact hids ⟨id, hid, by simpa using hno⟩
  rw [running_fetchOrganisationsIn hfit]
  unfold fetchOrganisationsIn
  split
  · exact hk _ _
  · rename_i hempty
    refine weighs_read ?_
    have hne := chunked_setOrder_ne_nil w.1.setOrder hempty
    exact weighs_fanOut Frame.queryCount (fun _ _ => rfl) (fun _ => rfl) (by simp) hne
      fun _ w => weighs_read (hk _ w)

/-- Nothing is left to call the completion when a query cannot be built. -/
theorem weighs_fetchOrganisationsIn_of_unfit {ids : List String} {k : List OrganisationItem → Prog}
    (hids : Unfit ids) : (running (fetchOrganisationsIn ids k)).Weighs serve answered w 0 := by
  obtain ⟨id, hid, hno⟩ := hids
  rintro h w' l ⟨h', hr, -⟩
  have hl : l = [] := runs_fetchOrganisationsIn_of_raises hid hno hr
  simp [hl]

section PaymentHistory

variable {documents : List (Document PaymentDoc)} {k : Option (List OrganisationItem) → Prog}

theorem weighs_fetchPaymentHistory (hd : ¬ Operation.fetchPaymentHistory.Drops outcomes w.1)
    (hk : ∀ l w, (running (k l)).Weighs outcomes.serve answered w n) :
    (running (fetchPaymentHistory k)).Weighs outcomes.serve answered w n := by
  refine weighs_withUid_of (hk _ w) fun uid hu => weighs_asking rfl fun snapshot w' hs => ?_
  cases snapshot with
  | none => exact hk _ _
  | some documents =>
    have ha : (outcomes (.getPaymentHistory uid)).1 = some documents := congrArg Prod.fst hs.1
    exact weighs_fetchOrganisationsIn (fun hids => hd ⟨uid, documents, hu, ha, hids⟩) fun _ => hk _

theorem weighs_fetchPaymentHistory_of_drops (hd : Operation.fetchPaymentHistory.Drops outcomes w.1) :
    (running (fetchPaymentHistory k)).Weighs outcomes.serve answered w 0 := by
  obtain ⟨uid, documents, hu, ha, hids⟩ := hd
  refine weighs_withUid_of_signedIn hu (weighs_asking rfl fun snapshot w' hs => ?_)
  obtain rfl : some documents = snapshot := ha.symm.trans (congrArg Prod.fst hs.1)
  exact weighs_fetchOrganisationsIn_of_unfit hids

end PaymentHistory

section Donates

variable {k : Option (List DonateItem) → Prog}

/-- The second query of `fetchDonates`. -/
theorem weighs_joinDonates {donateRefs : List DonateItemRef}
    (hids : ¬ Unfit (donateRefs.map DonateItemRef.organisationId))
    (hk : ∀ l w, (running (k l)).Weighs serve answered w n) :
    (running (if donateRefs.isEmpty then k (some [])
      else fetchOrganisationsIn (donateRefs.map DonateItemRef.organisationId) fun organisations =>
        k (some (joinDonates donateRefs organisations)))).Weighs serve answered w n := by
  split
  · exact hk _ _
  · exact weighs_fetchOrganisationsIn hids fun _ => hk _

theorem weighs_joinDonates_of_unfit {donateRefs : List DonateItemRef}
    (hids : Unfit (donateRefs.map DonateItemRef.organisationId)) :
    (running (if donateRefs.isEmpty then k (some [])
      else fetchOrganisationsIn (donateRefs.map DonateItemRef.organisationId) fun organisations =>
        k (some (joinDonates donateRefs organisations)))).Weighs serve answered w 0 := by
  split
  · rename_i hempty
    obtain ⟨id, hid, -⟩ := hids
    rw [List.isEmpty_iff.mp hempty] at hid
    cases hid
  · exact weighs_fetchOrganisationsIn_of_unfit hids

theorem weighs_fetchDonates (hd : ¬ Operation.fetchDonates.Drops outcomes w.1)
    (hk : ∀ l w, (running (k l)).Weighs outcomes.serve answered w n) :
    (running (fetchDonates k)).Weighs outcomes.serve answered w n := by
  refine weighs_withUid_of (hk _ w) fun uid hu => weighs_asking rfl fun snapshot w' hs => ?_
  cases snapshot with
  | none => exact hk _ _
  | some documents =>
    have ha : (outcomes (.getDonates uid)).1 = some documents := congrArg Prod.fst hs.1
    exact weighs_modify (weighs_joinDonates (fun hids => hd ⟨uid, documents, hu, ha, hids⟩) hk)

theorem weighs_fetchDonates_of_drops (hd : Operation.fetchDonates.Drops outcomes w.1) :
    (running (fetchDonates k)).Weighs outcomes.serve answered w 0 := by
  obtain ⟨uid, documents, hu, ha, hids⟩ := hd
  refine weighs_withUid_of_signedIn hu (weighs_asking rfl fun snapshot w' hs => ?_)
  obtain rfl : some documents = snapshot := ha.symm.trans (congrArg Prod.fst hs.1)
  exact weighs_modify (weighs_joinDonates_of_unfit hids)

end Donates

/-! ### Sign-up -/

/-- The callback of `createUser` with an account but no signed-in user. -/
theorem weighs_signUp_of_drops {email password : String} {displayName : Option String}
    (hd : (Operation.signUp email password displayName).Drops outcomes w.1) :
    (running (Operation.signUp email password displayName).call).Weighs outcomes.serve answered w 0 := by
  obtain ⟨herror, huser, hname, hcurrent⟩ := hd
  refine weighs_asking rfl fun authResult w' hs => ?_
  have ha : (outcomes (.createUser email password)).1 = authResult := congrArg Prod.fst hs.1
  have hw : (outcomes (.createUser email password)).2 = w'.1 := congrArg Prod.snd hs.1
  obtain ⟨user, error⟩ := authResult
  rw [ha] at herror huser
  rw [hw] at hcurrent
  obtain ⟨uid, rfl⟩ := Option.isSome_iff_exists.mp huser
  obtain ⟨name, rfl⟩ := Option.isSome_iff_exists.mp hname
  cases herror
  refine weighs_reading ?_
  rw [hcurrent]
  exact weighs_stop

theorem weighs_signUp {email password : String} {displayName : Option String}
    (hd : ¬ (Operation.signUp email password displayName).Drops outcomes w.1) :
    (running (Operation.signUp email password displayName).call).Weighs outcomes.serve answered w 1 := by
  have hk : ∀ w, (running completion).Weighs outcomes.serve answered w 1 := weighs_completion
  refine weighs_asking rfl fun authResult w' hs => ?_
  have ha : (outcomes (.createUser email password)).1 = authResult := congrArg Prod.fst hs.1
  have hw : (outcomes (.createUser email password)).2 = w'.1 := congrArg Prod.snd hs.1
  rw [Operation.Drops, ha, hw] at hd
  rcases authResult with ⟨_ | uid, _ | e⟩
  · exact hk w'
  · exact hk w'
  · cases displayName with
    | none => exact weighs_modify (weighs_asking rfl fun _ w _ => hk w)
    | some name =>
      refine weighs_reading ?_
      cases hc : w'.1.currentUser with
      | none => exact absurd ⟨rfl, rfl, rfl, hc⟩ hd
      | some _ =>
        exact weighs_asking rfl fun _ _ _ => weighs_modify (weighs_asking rfl fun _ w _ => hk w)
  · exact hk w'

/-! ### Every operation -/

theorem weighs_raising {r : Request} {callback : r.Response → Prog} (hr : r.raises = true) :
    (running (.ask r callback)).Weighs serve answered w 0 := by
  rw [running, upTo_ask_of_raises hr]
  exact weighs_stop

/-- A write to a pledge of whoever is signed in. -/
theorem weighs_withUid_of_path {id : String} {otherwise : Prog} {body : String → Prog}
    (hd : ¬ (w.1.currentUser.isSome ∧ isDocumentPath id = false))
    (ho : (running otherwise).Weighs serve answered w n)
    (hb : isDocumentPath id = true → ∀ uid, (running (body uid)).Weighs serve answered w n) :
    (running (withUid otherwise body)).Weighs serve answered w n := by
  refine weighs_withUid_of ho fun uid hu => ?_
  have hpath : isDocumentPath id = true := by
    by_contra hno
    exact hd ⟨by simp [hu], by simpa using hno⟩
  exact hb hpath uid

theorem weighs_call {op : Operation} (hd : ¬ op.Drops outcomes w.1) :
    (running op.call).Weighs outcomes.serve answered w 1 := by
  have hk : ∀ w, (running completion).Weighs outcomes.serve answered w 1 := weighs_completion
  cases op with
  | fetchOrganisationsByCause causeId =>
    refine weighs_asking rfl fun snapshot w' hs => weighs_organisationsCallback ?_ fun _ => hk
    rwa [← show (outcomes (.getOrganisationsByCause causeId)).1 = snapshot from congrArg Prod.fst hs.1]
  | fetchOrganisations =>
    refine weighs_asking rfl fun snapshot w' hs => weighs_organisationsCallback ?_ fun _ => hk
    rwa [← show (outcomes .getOrganisations).1 = snapshot from congrArg Prod.fst hs.1]
  | signUp email password displayName => exact weighs_signUp hd
  | signIn email password => exact weighs_signIn fun _ => hk
  | resetPassword email => exact weighs_asking rfl fun _ w' _ => hk w'
  | addUser uid email displayName => exact weighs_asking rfl fun _ w' _ => hk w'
  | fetchUpdateUser => exact weighs_fetchUpdateUser fun _ => hk
  | fetchFilters usingCache => exact weighs_fetchFilters fun _ => hk
  | updateDefaultDonateAmount amount => exact weighs_updateDefaultDonateAmount fun _ => hk
  | fetchCauses => exact weighs_asking rfl fun _ w' _ => hk w'
  | addTips amount => exact weighs_addTips fun _ => hk
  | addOneTimeDonate organisationId amount date =>
    exact weighs_withUid (hk w) fun uid => weighs_asking rfl fun _ w' _ => hk w'
  | fetchPaymentHistory => exact weighs_fetchPaymentHistory hd fun _ => hk
  | addDonate organisationId amount =>
    exact weighs_withUid (hk w) fun uid => weighs_asking rfl fun _ w' _ => hk w'
  | editDonate id data =>
    exact weighs_withUid_of_path hd (hk w) fun hpath uid =>
      weighs_asking (by simp [Request.raises, hpath]) fun _ w' _ => hk w'
  | deleteDonate id =>
    exact weighs_withUid_of_path hd (hk w) fun hpath uid =>
      weighs_asking (by simp [Request.raises, hpath]) fun _ w' _ => hk w'
  | fetchDonateRefs => exact weighs_fetchDonateRefs fun _ => hk
  | fetchDonates => exact weighs_fetchDonates hd fun _ => hk
  | fetchDonatesForOrganisation id => exact weighs_asking rfl fun _ w' _ => hk w'
  | fetchOrganisationsIn ids => exact weighs_fetchOrganisationsIn hd fun _ => hk

theorem weighs_call_of_drops {op : Operation} (hd : op.Drops outcomes w.1) :
    (running op.call).Weighs outcomes.serve answered w 0 := by
  cases op with
  | fetchOrganisationsByCause causeId =>
    refine weighs_asking rfl fun snapshot w' hs => weighs_organisationsCallback_of_nothingDecodes ?_
    rwa [← show (outcomes (.getOrganisationsByCause causeId)).1 = snapshot from congrArg Prod.fst hs.1]
  | fetchOrganisations =>
    refine weighs_asking rfl fun snapshot w' hs => weighs_organisationsCallback_of_nothingDecodes ?_
    rwa [← show (outcomes .getOrganisations).1 = snapshot from congrArg Prod.fst hs.1]
  | signUp email password displayName => exact weighs_signUp_of_drops hd
  | fetchPaymentHistory => exact weighs_fetchPaymentHistory_of_drops (k := fun _ => completion) hd
  | fetchDonates => exact weighs_fetchDonates_of_drops (k := fun _ => completion) hd
  | fetchOrganisationsIn ids => exact weighs_fetchOrganisationsIn_of_unfit (k := fun _ => completion) hd
  | editDonate id data | deleteDonate id =>
    obtain ⟨hu, hpath⟩ := hd
    obtain ⟨uid, hu⟩ := Option.isSome_iff_exists.mp hu
    exact weighs_withUid_of_signedIn hu (weighs_raising (by simp [Request.raises, hpath]))
  | _ => exact hd.elim

end Weighs

/-- An operation answers exactly once, unless it loses its completion (sign-up with a name when the
new user is not signed in, the two fetches of organisations when nothing in the snapshot decodes) or
has to name a document by what is no id. -/
theorem operation_answersOnce_iff (op : Operation) (outcomes : Outcomes) (w : World) :
    (running op.call).AnswersOnce outcomes.serve answered w ↔ ¬ op.Drops outcomes w.1 := by
  have ht : ∀ (w : World) (r : Request), ∃ a w', outcomes.serve w r a w' := serve_total outcomes
  by_cases hd : op.Drops outcomes w.1
  · simp [answersOnce_iff ht (weighs_call_of_drops hd), hd]
  · simp [answersOnce_iff ht (weighs_call hd), hd]

/-- A cause without organisations; every other request fails. -/
def emptyCause : Outcomes
  | .getOrganisationsByCause _ => (some [], {})
  | r => (r.rejected, {})

/-- The organisations of an empty cause are never reported. -/
theorem not_answersOnce_emptyCause :
    ¬ (running (Operation.fetchOrganisationsByCause "cause").call).AnswersOnce emptyCause.serve answered
      ({}, {}) := by
  intro h
  have hdrops : (Operation.fetchOrganisationsByCause "cause").Drops emptyCause {} := rfl
  have hweighs : (running (Operation.fetchOrganisationsByCause "cause").call).Weighs emptyCause.serve
      answered ({}, {}) 0 := weighs_call_of_drops hdrops
  have hone := (answersOnce_iff (serve_total emptyCause) hweighs).mp h
  simp at hone

end Pledge
