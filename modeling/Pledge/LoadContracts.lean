import Pledge.EventLoop.Contract
import Pledge.Loading

/-!
# Loads under contract

What a contract has to leave room for, so that the loads of My Impacts and of the bucket screen
keep to it.
-/

namespace Pledge

open EventLoop

/-- Room for reading the record of the user and the filters, and for keeping both. -/
structure LeavesReads (K : Contract Device Frame Effect Request.Response) : Prop where
  redirect : K.emits .redirectToAuth
  getUser : ∀ d uid, K.holds d → d.currentUser = some uid → K.asks (.getUser uid)
  getFilters : K.asks .getFilters
  user : ∀ d user, K.holds d → K.holds (d.setUserManager { d.userManager with user := some user })
  filters : ∀ d l, K.holds d → K.holds (d.setFilters l)

/-- Room for the load of a bucket with the property `P`, and for pledges with the property `Q`. -/
structure LeavesLoads (K : Contract Device Frame Effect Request.Response) (P : MyBucket → Prop)
    (Q : List DonateItem → Prop) : Prop extends LeavesReads K where
  start : K.emits .startActivityAnimating
  stop : K.emits .stopActivityAnimating
  shown : ∀ vc, P vc → K.emits (.reloadData vc)
  failed : ∀ vc, P vc → K.emits (.bucketNetworkErrorAlert vc)
  loaded : ∀ d vc, K.holds d → P vc → K.emits (.reloadData (vc.loaded d.userManager))
  getOrganisationsByCause : ∀ causeId, K.asks (.getOrganisationsByCause causeId)
  organisations : ∀ vc causeId documents (d : Device), P vc →
    K.answers (.getOrganisationsByCause causeId) (some documents) → P { vc with
      organizations := some (d.addFiltersToOrganisations (documents.filterMap OrganisationItem.init?)) }
  fetchDonates : ∀ k : Option (List DonateItem) → Prog, (k none).Meets K →
    (∀ donates, Q donates → (k (some donates)).Meets K) → (FirestoreManager.fetchDonates k).Meets K
  donates : ∀ vc donates, P vc → Q donates → P { vc with donates }

section Meets

variable {K : Contract Device Frame Effect Request.Response} {P : MyBucket → Prop}
  {Q : List DonateItem → Prop} {vc : MyBucket}

theorem meets_withUid (hr : K.emits .redirectToAuth) {otherwise : Prog} {body : String → Prog}
    (ho : otherwise.Meets K)
    (hb : ∀ d uid, K.holds d → d.currentUser = some uid → (body uid).Meets K) :
    (FirestoreManager.withUid otherwise body).Meets K := by
  intro d hd
  dsimp only
  split
  · exact ⟨hr, ho⟩
  · rename_i uid hu
    exact hb d uid hd hu

theorem meets_fetchUpdateUser (hK : LeavesReads K) {k : Bool → Prog} (hk : ∀ b, (k b).Meets K) :
    (FirestoreManager.fetchUpdateUser k).Meets K := by
  refine meets_withUid hK.redirect (hk _) fun d uid hd hu =>
    meets_ask.mpr ⟨hK.getUser d uid hd hu, fun snapshot _ => ?_⟩
  split
  · exact ⟨fun d hd => hK.user d _ hd, hk _⟩
  · exact hk _

theorem meets_fetchFilters (hK : LeavesReads K) {usingCache : Bool} {k : Option (List FilterItem) → Prog}
    (hk : ∀ r, (k r).Meets K) : (FirestoreManager.fetchFilters usingCache k).Meets K := by
  intro d _
  dsimp only
  split
  · exact hk _
  · refine meets_ask.mpr ⟨hK.getFilters, fun snapshot _ => ?_⟩
    cases snapshot with
    | none => exact hk _
    | some documents =>
      dsimp only
      split
      · exact ⟨fun d hd => hK.filters d _ hd, hk _⟩
      · exact hk _

theorem meets_organisationsCallback (hK : LeavesReads K) {k : Option (List OrganisationItem) → Prog}
    {snapshot : Option (List (Document OrganisationDoc))} (hnone : (k none).Meets K)
    (hk : ∀ documents, snapshot = some documents → ∀ d : Device,
      (k (some (d.addFiltersToOrganisations (documents.filterMap OrganisationItem.init?)))).Meets K) :
    (FirestoreManager.organisationsCallback k snapshot).Meets K := by
  unfold FirestoreManager.organisationsCallback
  cases snapshot with
  | none => exact hnone
  | some documents =>
    dsimp only
    split
    · exact meets_fetchFilters hK fun _ d _ => hk documents rfl d
    · exact trivial

theorem meets_loadActiveDonates (hK : LeavesLoads K P Q) (halert : K.emits .networkErrorAlert)
    (hshown : ∀ donates, Q donates → K.emits (.showActiveDonates donates)) :
    MyImpacts.loadActiveDonates.Meets K :=
  meets_fetchUpdateUser hK.toLeavesReads fun _ => hK.fetchDonates _ ⟨halert, trivial⟩
    fun donates hd => ⟨hshown donates hd, trivial⟩

theorem meets_loadDataCompletionHandler (hK : LeavesLoads K P Q) (hvc : P vc) (success : Bool) :
    (vc.loadDataCompletionHandler success).Meets K := by
  refine ⟨hK.stop, ?_⟩
  cases success
  · exact ⟨hK.failed vc hvc, trivial⟩
  · exact fun d hd => ⟨hK.loaded d vc hd hvc, trivial⟩

theorem meets_loadCauseOrganisations (hK : LeavesLoads K P Q) (hvc : P vc) (causeId : Option String) :
    (vc.loadCauseOrganisations causeId MyBucket.loadDataCompletionHandler).Meets K := by
  unfold MyBucket.loadCauseOrganisations
  split
  · exact meets_loadDataCompletionHandler hK hvc true
  · exact meets_loadDataCompletionHandler hK hvc true
  · refine meets_ask.mpr ⟨hK.getOrganisationsByCause _, fun snapshot ha =>
      meets_organisationsCallback hK.toLeavesReads (meets_loadDataCompletionHandler hK hvc false) ?_⟩
    rintro documents rfl d
    exact meets_loadDataCompletionHandler hK (hK.organisations vc _ documents d hvc ha) true

theorem meets_viewDidLoad (hK : LeavesLoads K P Q)
    (hset : ∀ d, K.holds d → P (BucketScreen.viewDidLoad d.userManager vc).vc) : vc.viewDidLoad.Meets K := by
  intro d hd
  have hvc := hset d hd
  dsimp only
  split
  · refine ⟨hK.start, ?_⟩
    split
    · exact meets_loadCauseOrganisations hK hvc _
    · refine hK.fetchDonates _ (meets_loadDataCompletionHandler hK hvc false) fun donates hdonates => ?_
      exact meets_loadCauseOrganisations hK (hK.donates _ donates hvc hdonates) _
  · exact ⟨hK.shown _ hvc, trivial⟩

end Meets

end Pledge
