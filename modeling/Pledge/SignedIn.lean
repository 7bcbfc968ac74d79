import Pledge.Browsing
import Pledge.LoadContracts
import Pledge.Receipt
import Pledge.SharedPledges

/-!
# Signed-in clients

What a client of one user asks for, relies on and shows, whatever it does with the app between
signing in and being signed out.
-/

namespace Pledge

open EventLoop

/-- Requests that read or write nothing of another user than `uid`, and sign nobody in. The query
behind 'How much raised' reads the pledges of all users. -/
def Request.OfUser (uid : String) : Request → Prop
  | .setUser v _ | .getUser v | .updateUser v _ | .addPayment v _ | .getPaymentHistory v
  | .addDonate v _ | .setDonate v _ _ | .deleteDonate v _ | .getDonates v => v = uid
  | .signIn .. | .createUser .. | .getDonatesForOrganisation .. => False
  | _ => True

/-- Pledges are shown as some server of `S` has stored them. -/
def Effect.ShowsStored (uid : String) (S : Server → Prop) : Effect → Prop
  | .showActiveDonates donates => ∃ s, S s ∧ Pledge.Reports s uid donates
  | .reloadData vc | .bucketNetworkErrorAlert vc => ∃ s, S s ∧ Pledge.Reports s uid vc.donates
  | _ => True

/-- A client of `uid`, or of nobody any more. It relies on answers of servers of `S`. -/
def session (uid : String) (S : Server → Prop) : Contract Device Frame Effect Request.Response where
  holds d := ∀ v, d.currentUser = some v → v = uid
  captures frame := ∀ o ∈ frame.result, ∀ s, S s → o.id ∈ s.organisations
  asks := Request.OfUser uid
  answers r a := ∃ s s', S s ∧ Serves s r a s'
  emits := Effect.ShowsStored uid S

/-- What the app starts for its user while that one is signed in. The lists that are the same for
everybody and 'How much raised' are not among it. -/
inductive UserProgram : Prog → Prop
  | fetchUpdateUser : UserProgram (FirestoreManager.fetchUpdateUser fun _ => .stop)
  | startDonate (donateAmount : Int) : UserProgram (StartDonate.continueButtonPressed donateAmount)
  | chooseAmount (donateAmount : Int) : UserProgram (ChooseAmountStepOne.continueButtonPressed donateAmount)
  | loadActiveDonates : UserProgram MyImpacts.loadActiveDonates
  | loadPrevSupported : UserProgram MyImpacts.loadPrevSupported
  | viewDidLoad (vc : MyBucket) (hd : vc.donates = []) : UserProgram vc.viewDidLoad
  | completeCheckout (vc : DonateConfirmation) : UserProgram vc.completeCheckoutButtonPressed
  | logout : UserProgram Settings.logoutButtonPressed

/-! ## Programs keep to the session -/

section Meets

variable {uid : String} {S : Server → Prop} {k : Bool → Prog}

theorem meets_withSession {otherwise : Prog} {body : String → Prog}
    (ho : otherwise.Meets (session uid S)) (hb : (body uid).Meets (session uid S)) :
    (FirestoreManager.withUid otherwise body).Meets (session uid S) := by
  refine meets_withUid trivial ho fun d v hd hu => ?_
  obtain rfl := hd v hu
  exact hb

theorem leavesReads_session : LeavesReads (session uid S) where
  redirect := trivial
  getUser _ v hd hu := hd v hu
  getFilters := trivial
  user _ _ hd := hd
  filters _ _ hd := hd

theorem meets_updateDefaultDonateAmount {amount : Int} (hk : ∀ b, (k b).Meets (session uid S)) :
    (FirestoreManager.updateDefaultDonateAmount amount k).Meets (session uid S) := by
  refine meets_withSession (hk _) fun d _ => ?_
  dsimp only
  split
  · refine meets_ask.mpr ⟨rfl, fun error _ => ?_⟩
    split
    · exact ⟨fun d hd => hd, hk _⟩
    · exact hk _
  · exact hk _

theorem meets_addTips {amount : Int} (hk : ∀ b, (k b).Meets (session uid S)) :
    (FirestoreManager.addTips amount k).Meets (session uid S) := by
  refine meets_withSession (hk _) (meets_ask.mpr ⟨rfl, fun error _ => ?_⟩)
  split
  · exact ⟨fun d hd => hd, hk _⟩
  · exact hk _

/-- The servers of `S` know the same organisations. -/
def SameOrganisations (S : Server → Prop) : Prop := ∀ s s', S s → S s' → s.organisations = s'.organisations

theorem known_organisationsIn (hS : SameOrganisations S) {ids : List String}
    {snapshot : Option (List (Document OrganisationDoc))}
    (ha : (session uid S).answers (.getOrganisationsIn ids) snapshot) :
    ∀ o ∈ (snapshot.getD []).filterMap OrganisationItem.init?, ∀ s, S s → o.id ∈ s.organisations := by
  obtain ⟨s₀, s', hs₀, d, hw, hsnapshot⟩ := ha
  intro o ho s hs
  cases snapshot with
  | none => cases ho
  | some documents =>
    obtain ⟨l, hl, rfl⟩ := hsnapshot _ rfl
    obtain ⟨⟨id, data⟩, hd, he⟩ := List.mem_filterMap.mp ho
    obtain ⟨hne, hlookup⟩ := hl.mem_iff.mp (List.mem_of_mem_filter hd)
    obtain ⟨data, rfl⟩ := Option.ne_none_iff_exists'.mp hne
    cases he
    rw [hS s s₀ hs hs₀]
    exact AList.lookup_isSome.mp (by rw [hlookup]; rfl)

/-- The organisations that are handed on are known to every server. -/
theorem meets_fetchOrganisationsIn (hS : SameOrganisations S) {ids : List String}
    {k : List OrganisationItem → Prog}
    (hk : ∀ organisations, (∀ o ∈ organisations, ∀ s, S s → o.id ∈ s.organisations) →
      (k organisations).Meets (session uid S)) :
    (FirestoreManager.fetchOrganisationsIn ids k).Meets (session uid S) := by
  unfold FirestoreManager.fetchOrganisationsIn
  split
  · exact hk _ (by simp)
  · intro d _
    refine meets_fanOut (by simp [session]) (fun _ _ => trivial) (fun chunk _ snapshot ha frame hf o ho => ?_)
      fun frame hf d _ => hk _ fun o ho s hs => ?_
    · rcases List.mem_append.mp ho with ho | ho
      · exact hf o ho
      · exact known_organisationsIn hS ha o ho
    · have hid : o.id ∈ (d.addFiltersToOrganisations frame.result).map (·.id) := List.mem_map_of_mem ho
      rw [map_id_addFiltersToOrganisations, List.mem_map] at hid
      obtain ⟨o', ho', he⟩ := hid
      rw [← he]
      exact hf o' ho' s hs

/-- Pledges are handed on as one of the servers has stored them. -/
theorem meets_fetchDonates (hS : SameOrganisations S) {k : Option (List DonateItem) → Prog}
    (hnone : (k none).Meets (session uid S))
    (hk : ∀ donates s, S s → Reports s uid donates → (k (some donates)).Meets (session uid S)) :
    (FirestoreManager.fetchDonates k).Meets (session uid S) := by
  refine meets_withSession hnone (meets_ask.mpr ⟨rfl, fun snapshot ha => ?_⟩)
  obtain ⟨s, s', hs, d, hw, hsnapshot⟩ := ha
  cases snapshot with
  | none => exact hnone
  | some documents =>
    have hstored := hsnapshot _ rfl
    refine ⟨fun d hd => hd, ?_⟩
    dsimp only
    split
    · exact hk _ s hs (reports_nil s uid)
    · refine meets_fetchOrganisationsIn hS fun organisations hknown => hk _ s hs ?_
      refine ⟨nodup_joinDonates (nodup_donateRefs hstored) _, fun d hd => ?_, fun d hd => ?_⟩
      · obtain ⟨ref, href, hid, hamount, ho, -⟩ := mem_joinDonates hd
        rw [hid, hamount, ho]
        exact (mem_donateRefs hstored).mp href
      · obtain ⟨-, -, -, -, -, ho⟩ := mem_joinDonates hd
        exact hknown _ ho s hs

/-! ### The screens -/

/-- The pledges of a bucket are shown as they were set up, or loaded. -/
theorem leavesLoads_session (hS : SameOrganisations S) : LeavesLoads (session uid S)
    (fun vc => ∃ s, S s ∧ Reports s uid vc.donates) fun donates => ∃ s, S s ∧ Reports s uid donates where
  toLeavesReads := leavesReads_session
  start := trivial
  stop := trivial
  shown _ hvc := hvc
  failed _ hvc := hvc
  loaded _ _ _ hvc := hvc
  getOrganisationsByCause _ := trivial
  organisations _ _ _ _ hvc _ := hvc
  fetchDonates _ hnone hk := meets_fetchDonates hS hnone fun donates s hs hr => hk donates ⟨s, hs, hr⟩
  donates _ _ _ hd := hd

theorem meets_loadPrevSupported (hS : SameOrganisations S) :
    MyImpacts.loadPrevSupported.Meets (session uid S) := by
  refine meets_withSession ⟨trivial, trivial⟩ (meets_ask.mpr ⟨rfl, fun snapshot _ => ?_⟩)
  cases snapshot with
  | none => exact ⟨trivial, trivial⟩
  | some documents => exact meets_fetchOrganisationsIn hS fun _ _ => ⟨trivial, trivial⟩

theorem meets_updateDonate {item : OrganisationWithAmount} (hk : ∀ b, (k b).Meets (session uid S)) :
    (DonateConfirmation.updateDonate item k).Meets (session uid S) := by
  unfold DonateConfirmation.updateDonate
  split
  · split
    · exact meets_withSession (hk _) (meets_ask.mpr ⟨rfl, fun _ _ => hk _⟩)
    · exact meets_withSession (hk _) (meets_ask.mpr ⟨rfl, fun _ _ => hk _⟩)
  · split
    · exact meets_withSession (hk _) (meets_ask.mpr ⟨rfl, fun _ _ => hk _⟩)
    · exact hk _

theorem meets_sendToUpdateDonatesHandler (vc : DonateConfirmation) (success : Bool) :
    (vc.sendToUpdateDonatesHandler success).Meets (session uid S) := by
  have hblock : (vc.completionBlock success).Meets (session uid S) := by
    refine ⟨trivial, ?_⟩
    cases success
    · exact ⟨trivial, trivial⟩
    · exact ⟨fun d hd => hd, trivial, trivial⟩
  intro d _
  dsimp only
  split
  · exact meets_updateDefaultDonateAmount fun _ => hblock
  · exact hblock

theorem meets_counted {vc : DonateConfirmation} {max x : ℕ} (success : Bool) :
    (vc.counted max x success).Meets (session uid S) :=
  meets_join (fun _ hf => hf) fun frame _ => meets_sendToUpdateDonatesHandler vc (!frame.isError)

theorem meets_sendToUpdateDonates (vc : DonateConfirmation) :
    vc.sendToUpdateDonates.Meets (session uid S) :=
  ⟨trivial, by simp [session], fun _ => meets_forEach fun _ _ => meets_updateDonate fun b => meets_counted b⟩

theorem meets_addOneTimeDonate {organisationId : String} {amount : Int} {date : ℕ}
    (hk : ∀ b, (k b).Meets (session uid S)) :
    (FirestoreManager.addOneTimeDonate organisationId amount date k).Meets (session uid S) :=
  meets_withSession (hk _) (meets_ask.mpr ⟨rfl, fun _ _ => hk _⟩)

theorem meets_completeCheckoutButtonPressed (vc : DonateConfirmation) :
    vc.completeCheckoutButtonPressed.Meets (session uid S) := by
  have hpayments : vc.addOneTimePaymentToFirebase.Meets (session uid S) := by
    refine ⟨trivial, fun d _ => ⟨by simp [session], fun x => meets_andThen ?_ ?_⟩⟩
    · split
      · exact meets_addOneTimeDonate fun b => meets_counted b
      · exact trivial
    · exact meets_forEach fun _ _ => meets_addOneTimeDonate fun b => meets_counted b
  intro d _
  dsimp only
  split
  · refine meets_ask.mpr ⟨trivial, fun result _ => ?_⟩
    cases result with
    | failure => exact trivial
    | success token =>
      dsimp only
      split
      · exact hpayments
      · unfold DonateConfirmation.addTips
        split
        · exact meets_addTips fun _ => meets_sendToUpdateDonates vc
        · exact meets_sendToUpdateDonates vc
  · exact meets_sendToUpdateDonates vc

theorem UserProgram.meets (hS : SameOrganisations S) (hne : ∃ s, S s) {p : Prog} (h : UserProgram p) :
    p.Meets (session uid S) := by
  cases h with
  | fetchUpdateUser => exact meets_fetchUpdateUser leavesReads_session fun _ => trivial
  | startDonate donateAmount =>
    exact meets_andThen (meets_updateDefaultDonateAmount fun _ => trivial) ⟨fun d hd => hd, trivial⟩
  | chooseAmount donateAmount =>
    refine ⟨trivial, meets_updateDefaultDonateAmount fun success => ⟨trivial, ?_⟩⟩
    split
    · exact ⟨trivial, trivial⟩
    · exact ⟨trivial, trivial⟩
  | loadActiveDonates => exact meets_loadActiveDonates (leavesLoads_session hS) trivial fun _ hd => hd
  | loadPrevSupported => exact meets_loadPrevSupported hS
  | viewDidLoad vc hd =>
    obtain ⟨s, hs⟩ := hne
    refine meets_viewDidLoad (leavesLoads_session hS) fun d _ => ⟨s, hs, ?_⟩
    rw [(MyBucket.viewDidLoad_fields d.userManager vc).2.2.2, hd]
    exact reports_nil s uid
  | completeCheckout vc => exact meets_completeCheckoutButtonPressed vc
  | logout =>
    intro d _
    dsimp only
    split
    · exact ⟨fun d _ v hv => (nomatch hv), trivial, trivial⟩
    · exact ⟨trivial, trivial⟩

end Meets

end Pledge
