import Pledge.PledgeStore
import Pledge.Session

/-!
# Browsing

Authentication, loading and choosing leave the saved bucket, the stored pledges and what was
charged alone. What else the app does are its checkouts.
-/

namespace Pledge

open EventLoop

/-- Between `w` and `w'` nothing was saved, pledged or charged. -/
structure Browses (w w' : World) : Prop where
  completeDonation : w'.1.userManager.completeDonation = w.1.userManager.completeDonation
  tmpDonateAmount : w'.1.userManager.tmpDonateAmount = w.1.userManager.tmpDonateAmount
  oneTime : w'.1.userManager.storedOneTimeDonateAmout = w.1.userManager.storedOneTimeDonateAmout
  organisations : w'.2.organisations = w.2.organisations
  donates : ∀ uid, (w'.2.account uid).donates = (w.2.account uid).donates
  deletedDonates : ∀ uid, (w'.2.account uid).deletedDonates = (w.2.account uid).deletedDonates
  charges : ∀ amount mode, w'.2.journal.count (.pay amount mode) = w.2.journal.count (.pay amount mode)

/-- Requests that neither record nor charge. -/
def Request.Browses : Request → Prop
  | .addPayment .. | .addDonate .. | .setDonate .. | .deleteDonate .. | .pay .. => False
  | .setUser _ data => data.email ≠ none
  | _ => True

/-- Effects that do not end a checkout, and leave the bucket screen with fields that satisfy
`P`, if they change it. -/
def Effect.Browses (P : MyBucket → Prop) : Effect → Prop
  | .showDonateResult .. => False
  | .reloadData vc | .bucketNetworkErrorAlert vc => P vc
  | _ => True

/-- The success screen of a checkout. -/
def Effect.ShowsResult : Effect → Prop
  | .showDonateResult .. => True
  | _ => False

instance : DecidablePred Effect.ShowsResult
  | .showDonateResult .. => .isTrue trivial
  | .redirectToAuth | .startActivityAnimating | .stopActivityAnimating | .networkErrorAlert | .reloadData _
  | .bucketNetworkErrorAlert _ | .showToastAlert | .showChooseRecipients | .showActiveDonates _
  | .showPrevSupported _ | .completed | .reported _ => .isFalse id

/-- Requests that only read. -/
def Request.Reads : Request → Prop
  | .getUser .. | .getFilters | .getOrganisationsByCause .. | .getOrganisations
  | .getOrganisationsIn .. | .getCauses | .getPaymentHistory .. | .getDonates ..
  | .getDonatesForOrganisation .. => True
  | _ => False

/-- What is loaded changes nothing but what the device caches. -/
def loading (P : MyBucket → Prop) : Footprint Device Effect Request where
  asks := Request.Reads
  modifies f := ∀ d, (f d).userManager = d.userManager ∧ (f d).currentUser = d.currentUser
  emits := Effect.Browses P

/-- Between `w` and `w'` only the caches have changed. -/
structure Loads (w w' : World) : Prop where
  userManager : w'.1.userManager = w.1.userManager
  currentUser : w'.1.currentUser = w.1.currentUser
  server : w'.2 = w.2

def browsing (P : MyBucket → Prop) : Footprint Device Effect Request where
  asks := Request.Browses
  modifies f := ∀ d, (f d).userManager.completeDonation = d.userManager.completeDonation ∧
    (f d).userManager.tmpDonateAmount = d.userManager.tmpDonateAmount ∧
    (f d).userManager.storedOneTimeDonateAmout = d.userManager.storedOneTimeDonateAmout ∧
    ((f d).currentUser = d.currentUser ∨ (f d).currentUser = none)
  emits := Effect.Browses P

variable {w w' : World} {P : MyBucket → Prop}

/-! ## Answers -/

theorem Browses.refl (w : World) : Browses w w :=
  ⟨rfl, rfl, rfl, rfl, fun _ => rfl, fun _ => rfl, fun _ _ => rfl⟩

theorem Browses.trans {w₁ w₂ w₃ : World} (h : Browses w₁ w₂) (h' : Browses w₂ w₃) : Browses w₁ w₃ where
  completeDonation := h'.completeDonation.trans h.completeDonation
  tmpDonateAmount := h'.tmpDonateAmount.trans h.tmpDonateAmount
  oneTime := h'.oneTime.trans h.oneTime
  organisations := h'.organisations.trans h.organisations
  donates uid := (h'.donates uid).trans (h.donates uid)
  deletedDonates uid := (h'.deletedDonates uid).trans (h.deletedDonates uid)
  charges amount mode := (h'.charges amount mode).trans (h.charges amount mode)

/-- No answer touches the session record, or the list of organisations. -/
theorem answers_session {r : Request} {a : r.Response} (h : Answers w r a w') :
    w'.1.userManager = w.1.userManager ∧ w'.2.organisations = w.2.organisations := by
  obtain ⟨hd, n, hs⟩ := answers_frame h
  rw [hd, hs]
  exact ⟨rfl, rfl⟩

theorem browses_answers {r : Request} {a : r.Response} (hr : r.Browses) (h : Answers w r a w') :
    Browses w w' := by
  obtain ⟨hu, ho⟩ := answers_session h
  have hkept : ∀ uid, (w'.2.account uid).donates = (w.2.account uid).donates ∧
      (w'.2.account uid).deletedDonates = (w.2.account uid).deletedDonates := by
    intro uid
    cases answers_pledges h uid with
    | kept hd hdel => exact ⟨hd, hdel⟩
    | added hr' | edited hr' | deleted hr' =>
      subst hr'
      exact hr.elim
  refine ⟨by rw [hu], by rw [hu], by rw [hu], ho, fun uid => (hkept uid).1, fun uid => (hkept uid).2,
    fun amount mode => ?_⟩
  obtain ⟨n, hn⟩ := answers_journal h
  have hne : r ≠ .pay amount mode := by
    rintro rfl
    exact hr
  have hcount : (List.replicate n r).count (.pay amount mode) = 0 :=
    List.count_eq_zero.mpr fun hmem => hne (List.eq_of_mem_replicate hmem).symm
  rw [hn, List.count_append, hcount, Nat.add_zero]

theorem respects_browses {serve : World → (r : Request) → r.Response → World → Prop}
    (hm : ∀ w r a w', serve w r a w' → Answers w r a w') : Respects (browsing P) serve Browses where
  refl := Browses.refl
  trans _ _ _ := Browses.trans
  modify s _ hf := ⟨(hf s.1).1, (hf s.1).2.1, (hf s.1).2.2.1, rfl, fun _ => rfl, fun _ => rfl, fun _ _ => rfl⟩
  answer _ _ _ _ hr hs := browses_answers hr (hm _ _ _ _ hs)

theorem answers_reads {r : Request} {a : r.Response} (hr : r.Reads) (h : Answers w r a w') : w' = w := by
  cases r with
  | getDonatesForOrganisation => exact h
  | getUser | getFilters | getOrganisationsByCause | getOrganisations | getOrganisationsIn |
      getCauses | getPaymentHistory | getDonates => exact h.1
  | _ => exact hr.elim

theorem Loads.refl (w : World) : Loads w w := ⟨rfl, rfl, rfl⟩

section Within

theorem within_withUid {F : Footprint Device Effect Request} (hr : F.emits .redirectToAuth)
    {otherwise : Prog} {body : String → Prog} (ho : otherwise.Within F)
    (hb : ∀ uid, (body uid).Within F) : (FirestoreManager.withUid otherwise body).Within F := by
  unfold FirestoreManager.withUid
  intro d
  dsimp only
  split
  · exact ⟨hr, ho⟩
  · exact hb _

/-! ### Loads -/

theorem loading_fetchFilters {usingCache : Bool} {k : Option (List FilterItem) → Prog}
    (hk : ∀ r, (k r).Within (loading P)) :
    (FirestoreManager.fetchFilters usingCache k).Within (loading P) := by
  intro d
  dsimp only
  split
  · exact hk _
  · refine within_ask.mpr ⟨trivial, fun snapshot => ?_⟩
    cases snapshot with
    | none => exact hk _
    | some documents =>
      dsimp only
      split
      · exact ⟨fun _ => ⟨rfl, rfl⟩, hk _⟩
      · exact hk _

theorem loading_fetchOrganisationsIn {ids : List String} {k : List OrganisationItem → Prog}
    (hk : ∀ r, (k r).Within (loading P)) :
    (FirestoreManager.fetchOrganisationsIn ids k).Within (loading P) := by
  unfold FirestoreManager.fetchOrganisationsIn
  split
  · exact hk _
  · exact fun d => within_fanOut (fun _ _ => trivial) fun frame d => hk _

theorem loading_fetchDonates {k : Option (List DonateItem) → Prog}
    (hk : ∀ r, (k r).Within (loading P)) :
    (FirestoreManager.fetchDonates k).Within (loading P) := by
  refine within_withUid trivial (hk _) fun uid => within_ask.mpr ⟨trivial, fun snapshot => ?_⟩
  cases snapshot with
  | none => exact hk _
  | some documents =>
    refine ⟨fun _ => ⟨rfl, rfl⟩, ?_⟩
    show (if (documents.filterMap DonateItemRef.init?).isEmpty = true then k (some []) else _).Within _
    split
    · exact hk _
    · exact loading_fetchOrganisationsIn fun _ => hk _

/-- A load leaves the mode of its screen alone. -/
theorem loading_viewDidLoad (vc : MyBucket) : vc.viewDidLoad.Within
    (loading fun vc' => vc'.isOneTimePaymentMode = vc.isOneTimePaymentMode) := by
  have hhandler : ∀ (vc' : MyBucket) b, vc'.isOneTimePaymentMode = vc.isOneTimePaymentMode →
      (vc'.loadDataCompletionHandler b).Within
        (loading fun vc' => vc'.isOneTimePaymentMode = vc.isOneTimePaymentMode) := by
    intro vc' b hmode
    refine ⟨trivial, ?_⟩
    cases b
    · exact ⟨hmode, trivial⟩
    · exact fun _ => ⟨hmode, trivial⟩
  have hcause : ∀ (vc' : MyBucket) id, vc'.isOneTimePaymentMode = vc.isOneTimePaymentMode →
      (vc'.loadCauseOrganisations id MyBucket.loadDataCompletionHandler).Within
        (loading fun vc' => vc'.isOneTimePaymentMode = vc.isOneTimePaymentMode) := by
    intro vc' id hmode
    unfold MyBucket.loadCauseOrganisations
    split
    · exact hhandler _ _ hmode
    · exact hhandler _ _ hmode
    · refine within_ask.mpr ⟨trivial, fun snapshot => ?_⟩
      unfold FirestoreManager.organisationsCallback
      cases snapshot with
      | none => exact hhandler _ _ hmode
      | some documents =>
        dsimp only
        split
        · exact loading_fetchFilters fun _ d => hhandler _ _ hmode
        · exact trivial
  intro d
  have hset := (MyBucket.viewDidLoad_fields d.userManager vc).2.1
  dsimp only
  split
  · refine ⟨trivial, ?_⟩
    split
    · exact hcause _ _ hset
    · refine loading_fetchDonates fun donates => ?_
      cases donates with
      | none => exact hhandler _ _ hset
      | some donates => exact hcause _ _ hset
  · exact ⟨hset, trivial⟩

theorem within_of_loading {p : Prog} (hp : p.Within (loading P)) : p.Within (browsing P) := by
  refine Program.Within.mono (F := loading P) (fun r hr => ?_) (fun f hf d => ?_) (fun _ he => he) hp
  · cases r <;> first | exact hr.elim | trivial
  · have hu : (f d).userManager = d.userManager := (hf d).1
    exact ⟨by rw [hu], by rw [hu], by rw [hu], .inl (hf d).2⟩

theorem within_viewDidLoad (vc : MyBucket) : vc.viewDidLoad.Within
    (browsing fun vc' => vc'.isOneTimePaymentMode = vc.isOneTimePaymentMode) :=
  within_of_loading (loading_viewDidLoad vc)

/-! ### Calls -/

/-- The effects of a call, My Impacts apart. -/
def Effect.Reports : Effect → Prop
  | .redirectToAuth | .startActivityAnimating | .stopActivityAnimating | .showToastAlert
  | .showChooseRecipients | .reported _ => True
  | _ => False

def calling : Footprint Device Effect Request where
  asks := Request.Browses
  modifies := (browsing fun _ => False).modifies
  emits := Effect.Reports

/-- `F` leaves room for what a call does. -/
structure AllowsCalls (F : Footprint Device Effect Request) : Prop where
  asks : ∀ r, calling.asks r → F.asks r
  modifies : ∀ f, calling.modifies f → F.modifies f
  emits : ∀ e, calling.emits e → F.emits e

theorem allowsCalls_calling : AllowsCalls calling := ⟨fun _ => id, fun _ => id, fun _ => id⟩

theorem allowsCalls_browsing : AllowsCalls (browsing P) := by
  refine ⟨fun _ => id, fun _ => id, fun e he => ?_⟩
  cases e <;> first | exact he.elim | trivial

theorem calling_setUser (user : Option LendUser) :
    calling.modifies fun d => d.setUserManager { d.userManager with user := user } :=
  fun _ => ⟨rfl, rfl, rfl, .inl rfl⟩

theorem calling_updateUser (f : LendUser → LendUser) : calling.modifies fun d => d.updateUser f :=
  fun _ => ⟨rfl, rfl, rfl, .inl rfl⟩

variable {F : Footprint Device Effect Request} {k : Bool → Prog}

theorem within_fetchUpdateUser (hF : AllowsCalls F) (hk : ∀ b, (k b).Within F) :
    (FirestoreManager.fetchUpdateUser k).Within F := by
  refine within_withUid (hF.emits _ trivial) (hk _) fun uid =>
    within_ask.mpr ⟨hF.asks _ trivial, fun snapshot => ?_⟩
  split
  · exact ⟨hF.modifies _ (calling_setUser _), hk _⟩
  · exact hk _

theorem within_updateDefaultDonateAmount (hF : AllowsCalls F) (hk : ∀ b, (k b).Within F) {amount : Int} :
    (FirestoreManager.updateDefaultDonateAmount amount k).Within F := by
  refine within_withUid (hF.emits _ trivial) (hk _) fun uid d => ?_
  dsimp only
  split
  · refine within_ask.mpr ⟨hF.asks _ trivial, fun error => ?_⟩
    split
    · exact ⟨hF.modifies _ (calling_updateUser _), hk _⟩
    · exact hk _
  · exact hk _

theorem calling_authentication (authentication : Authentication) : authentication.call.Within calling := by
  cases authentication with
  | signIn email password =>
    refine ⟨fun d => ?_, within_ask.mpr ⟨trivial, fun error => ?_⟩⟩
    · dsimp only
      split
      · exact ⟨rfl, rfl, rfl, .inr rfl⟩
      · exact ⟨rfl, rfl, rfl, .inl rfl⟩
    · cases error with
      | some e => exact ⟨trivial, trivial⟩
      | none => exact within_fetchUpdateUser allowsCalls_calling fun _ => ⟨trivial, trivial⟩
  | signUp email password displayName =>
    have hadd : ∀ uid, (Program.modify (fun d : Device => d.setUserManager
        { d.userManager with user := some { email, displayName } })
        (FirestoreManager.addUser uid email displayName fun _ =>
          .emit (.reported true) .stop) : Prog).Within calling :=
      fun uid => ⟨calling_setUser _, within_ask.mpr ⟨nofun, fun _ => ⟨trivial, trivial⟩⟩⟩
    refine within_ask.mpr ⟨trivial, fun ⟨user, error⟩ => ?_⟩
    cases error with
    | some e => exact ⟨trivial, trivial⟩
    | none =>
      cases user with
      | none => exact ⟨trivial, trivial⟩
      | some uid =>
        cases displayName with
        | none => exact hadd uid
        | some name =>
          intro d
          dsimp only
          split
          · exact within_ask.mpr ⟨trivial, fun _ => hadd uid⟩
          · exact trivial

theorem calling_startDonate (donateAmount : Int) :
    (StartDonate.continueButtonPressed donateAmount).Within calling :=
  within_andThen (within_updateDefaultDonateAmount (k := fun _ => .stop) allowsCalls_calling fun _ => trivial)
    ⟨calling_updateUser _, trivial⟩

theorem calling_chooseAmount (donateAmount : Int) :
    (ChooseAmountStepOne.continueButtonPressed donateAmount).Within calling := by
  refine ⟨trivial, within_updateDefaultDonateAmount allowsCalls_calling fun success => ?_⟩
  cases success <;> exact ⟨trivial, trivial, trivial⟩

/-- Only My Impacts shows what it has fetched. -/
theorem calling_call {i : Interaction} {p : Prog} (hi : i.call = some p) (hne : i ≠ .loadActiveDonates) :
    p.Within calling := by
  cases i <;> cases hi
  · exact calling_authentication _
  · exact calling_startDonate _
  · exact within_fetchUpdateUser allowsCalls_calling fun _ => trivial
  · exact absurd rfl hne
  · exact calling_chooseAmount _

theorem within_loadActiveDonates : MyImpacts.loadActiveDonates.Within (browsing P) := by
  refine within_fetchUpdateUser allowsCalls_browsing fun _ =>
    within_of_loading (loading_fetchDonates fun lends => ?_)
  cases lends <;> exact ⟨trivial, trivial⟩

theorem within_call {i : Interaction} {p : Prog} (hi : i.call = some p) : p.Within (browsing P) := by
  by_cases hne : i = .loadActiveDonates
  · subst hne
    cases hi
    exact within_loadActiveDonates
  · exact (calling_call hi hne).mono allowsCalls_browsing.asks allowsCalls_browsing.modifies
      allowsCalls_browsing.emits

end Within

/-! ## Checkouts -/

/-- The effects of a checkout. -/
def Effect.Closes (vc : DonateConfirmation) : Effect → Prop
  | .redirectToAuth | .startActivityAnimating | .stopActivityAnimating | .networkErrorAlert => True
  | .showDonateResult donateAmount tipsAmount isOneTimeMode =>
    donateAmount = vc.donateAmount ∧ tipsAmount = vc.tipsAmount ∧ isOneTimeMode = vc.isOneTimeMode
  | _ => False

/-- An edit sends no organisation. -/
def Request.KeepsOrganisation : Request → Prop
  | .setDonate _ _ data => data.organisation = none
  | _ => True

/-- What a checkout asks for, changes and shows: the user's record where it is monthly, and the
saved bucket when it is done. -/
def checkingOut (vc : DonateConfirmation) : Footprint Device Effect Request where
  asks r := (r.Records ∧ r.KeepsOrganisation) ∨ r = .pay vc.payAmount vc.isOneTimeMode ∨
    (vc.isOneTimeMode = false ∧ ∃ uid data, r = .updateUser uid data)
  modifies f := (f = fun d => d.setUserManager
      { d.userManager with completeDonation := none, tmpDonateAmount := none }) ∨
    (vc.isOneTimeMode = false ∧ ∃ g, f = fun d => d.updateUser g)
  emits := Effect.Closes vc

/-- A checkout changes the user's record only where it is monthly. -/
def closing (vc : DonateConfirmation) : Footprint Device Effect Request where
  asks r := r.Records ∨ r = .pay vc.payAmount vc.isOneTimeMode ∨
    (vc.isOneTimeMode = false ∧ ∃ uid data, r = .updateUser uid data)
  modifies f := ∀ d, (f d).currentUser = d.currentUser ∧
    (vc.isOneTimeMode = true → (f d).userManager.user = d.userManager.user)
  emits := Effect.Closes vc

section Closing

variable {k : Bool → Prog} {vc : DonateConfirmation}

theorem checkingOut_updateDefaultDonateAmount {amount : Int} (hm : vc.isOneTimeMode = false)
    (hk : ∀ b, (k b).Within (checkingOut vc)) :
    (FirestoreManager.updateDefaultDonateAmount amount k).Within (checkingOut vc) := by
  refine within_withUid trivial (hk _) fun uid d => ?_
  dsimp only
  split
  · refine within_ask.mpr ⟨.inr (.inr ⟨hm, _, _, rfl⟩), fun error => ?_⟩
    split
    · exact ⟨.inr ⟨hm, _, rfl⟩, hk _⟩
    · exact hk _
  · exact hk _

theorem checkingOut_handler (b : Bool) : (vc.sendToUpdateDonatesHandler b).Within (checkingOut vc) := by
  have hblock : ∀ b, (vc.completionBlock b).Within (checkingOut vc) := by
    intro b
    cases b
    · exact ⟨trivial, trivial, trivial⟩
    · exact ⟨trivial, .inl rfl, ⟨rfl, rfl, rfl⟩, trivial⟩
  intro d
  dsimp only
  split
  case isTrue hcond =>
    have hm : vc.isOneTimeMode = false := by
      cases hm : vc.isOneTimeMode with
      | true => simp [hm] at hcond
      | false => rfl
    exact checkingOut_updateDefaultDonateAmount (k := fun _ => vc.completionBlock b) hm fun _ => hblock b
  case isFalse => exact hblock b

theorem checkingOut_updateDonate {item : OrganisationWithAmount} (hk : ∀ b, (k b).Within (checkingOut vc)) :
    (DonateConfirmation.updateDonate item k).Within (checkingOut vc) := by
  have hwrite : ∀ b : String → Branch Bool Request.Response,
      (∀ uid, (b uid).1.Records ∧ (b uid).1.KeepsOrganisation) →
      (FirestoreManager.withUid (k false) fun uid =>
        .ask (b uid).1 fun a => k ((b uid).2 a)).Within (checkingOut vc) :=
    fun b hb => within_withUid trivial (hk _) fun uid =>
      within_ask.mpr ⟨.inl (hb uid), fun _ => hk _⟩
  unfold DonateConfirmation.updateDonate
  cases item.donateId with
  | some donateId =>
    dsimp only
    split
    · exact hwrite (fun uid => ⟨.setDonate uid donateId { amount := some item.amount }, Option.isNone⟩)
        fun _ => ⟨trivial, rfl⟩
    · exact hwrite (fun uid => ⟨.deleteDonate uid donateId, Option.isNone⟩) fun _ => ⟨trivial, trivial⟩
  | none =>
    dsimp only
    split
    · exact hwrite (fun uid => ⟨.addDonate uid
        { amount := some item.amount, organisation := some item.organisation.id }, Option.isNone⟩)
        fun _ => ⟨trivial, trivial⟩
    · exact hk _

theorem checkingOut_sendToUpdateDonates : vc.sendToUpdateDonates.Within (checkingOut vc) :=
  ⟨trivial, fun _ => within_forEach fun _ _ => checkingOut_updateDonate fun b =>
    within_join (fun _ => checkingOut_handler _) b⟩

theorem checkingOut_addOneTimePaymentToFirebase : vc.addOneTimePaymentToFirebase.Within (checkingOut vc) := by
  rw [DonateConfirmation.addOneTimePaymentToFirebase_eq]
  refine ⟨trivial, fun d x => within_forEach fun p _ => ?_⟩
  have hk : ∀ b, (vc.counted vc.payments.length x b).Within (checkingOut vc) :=
    fun b => within_join (fun _ => checkingOut_handler _) b
  exact within_withUid trivial (hk _) fun uid => within_ask.mpr ⟨.inl ⟨trivial, trivial⟩, fun _ => hk _⟩

theorem checkingOut_completeCheckoutButtonPressed : vc.completeCheckoutButtonPressed.Within (checkingOut vc) := by
  intro d
  dsimp only
  split
  · refine within_ask.mpr ⟨.inr (.inl rfl), fun result => ?_⟩
    cases result with
    | failure => exact trivial
    | success token =>
      dsimp only
      cases hm : vc.isOneTimeMode with
      | true => exact checkingOut_addOneTimePaymentToFirebase
      | false =>
        simp only [Bool.false_eq_true, if_false, DonateConfirmation.addTips]
        split
        · refine within_withUid trivial checkingOut_sendToUpdateDonates fun uid =>
            within_ask.mpr ⟨.inr (.inr ⟨hm, _, _, rfl⟩), fun error => ?_⟩
          split
          · exact ⟨.inr ⟨hm, _, rfl⟩, checkingOut_sendToUpdateDonates⟩
          · exact checkingOut_sendToUpdateDonates
        · exact checkingOut_sendToUpdateDonates
  · exact checkingOut_sendToUpdateDonates

theorem closing_completeCheckoutButtonPressed : vc.completeCheckoutButtonPressed.Within (closing vc) := by
  refine Program.Within.mono (F := checkingOut vc) (fun _ hr => hr.imp_left And.left) (fun f hf d => ?_) (fun _ he => he)
    checkingOut_completeCheckoutButtonPressed
  rcases hf with rfl | ⟨hm, g, rfl⟩
  · exact ⟨rfl, fun _ => rfl⟩
  · exact ⟨rfl, fun h => by rw [hm] at h; cases h⟩

theorem closes_press {serve : World → (r : Request) → r.Response → World → Prop} {h : List Frame}
    {l : List Effect} (hy : vc.completeCheckoutButtonPressed.Yields serve w h w' l) :
    ∀ o ∈ l, o.Closes vc :=
  (within_yields respects_true closing_completeCheckoutButtonPressed hy).2

end Closing

/-! ## Effects -/

namespace App

theorem shown_world (a : App) (o : Effect) : (a.shown o).world = a.world := by
  unfold shown
  split <;> rfl

theorem foldl_shown {P : App → Prop} {a : App} {l : List Effect}
    (h : ∀ a, ∀ o ∈ l, P a → P (a.shown o)) (ha : P a) : P (l.foldl shown a) := by
  induction l generalizing a with
  | nil => exact ha
  | cons o l ih =>
    exact ih (fun a o' ho => h a o' (List.mem_cons_of_mem o ho)) (h a o List.mem_cons_self ha)

@[simp] theorem foldl_shown_world (a : App) (l : List Effect) : (l.foldl shown a).world = a.world :=
  foldl_shown (P := fun b => b.world = a.world) (fun b o _ hb => (shown_world b o).trans hb) rfl

end App

end Pledge
