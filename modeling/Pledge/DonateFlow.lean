import Pledge.BucketRows
import Pledge.Checkout
import Pledge.Loading

/-!
# The donate flow

From the choice of an organisation or a cause to the bucket screen, and what the bucket
lists when it has loaded.
-/

namespace Pledge

open EventLoop

/-- `organisationOrCause`. -/
inductive Recipient
  | organisation (organisation : OrganisationItem)
  | cause (cause : Cause)
deriving DecidableEq, Repr

namespace Recipient

/-- The screen pushed by `showBacket`, by the slider screen and by `ChooseRecipients`. -/
def bucket (recipient : Recipient) (isOneTimePaymentMode : Bool) : MyBucket :=
  match recipient with
  | .organisation o => { organizations := some [o], isOneTimePaymentMode }
  | .cause c => { cause := some c, isOneTimePaymentMode }

/-- What the user asks to donate to: the organisation, or each one of the cause. -/
def Chosen (s : Server) (recipient : Recipient) (id : String) : Prop :=
  match recipient with
  | .organisation o => id = o.id
  | .cause c => s.InCause c.id id

end Recipient

/-- Where a step of the flow leads. -/
inductive DonateStep
  | bucket (vc : MyBucket)
  | resetAlert (donateType : DonateType)
  | adjustOneTimePaymentAmount
  | chooseAmount
deriving DecidableEq, Repr

/-- Both pages behind `showDonationConfirmation` only lead on to the choice of an amount. -/
def donateStepTwo (recipient : Recipient) (donateType : DonateType) (u : UserManager) : DonateStep :=
  if donateType = .once then .adjustOneTimePaymentAmount
  else if u.shouldSetAmount then .chooseAmount
  else .bucket (recipient.bucket (donateType == .once))

def donateStepOne (recipient : Recipient) (donateType : DonateType) (u : UserManager) : DonateStep :=
  match u.completeDonation with
  | some completeDonation =>
    if completeDonation.type = donateType then .bucket (recipient.bucket (donateType == .once))
    else .resetAlert donateType
  | none => donateStepTwo recipient donateType u

namespace ChooseAmountStepOne

def continueButtonPressed (donateAmount : Int) : Prog :=
  .emit .startActivityAnimating <|
    FirestoreManager.updateDefaultDonateAmount donateAmount fun success =>
      .emit .stopActivityAnimating <|
        if success then .emit .showChooseRecipients .stop else .emit .showToastAlert .stop

end ChooseAmountStepOne

/-- A passage through the flow, up to the bucket screen that it pushes. -/
inductive DonateFlow (recipient : Recipient) : DonateStep → World → World → MyBucket → Prop
  | bucket (w : World) (vc : MyBucket) : DonateFlow recipient (.bucket vc) w w vc
  | reset {w w' : World} {vc : MyBucket} {donateType : DonateType}
      (h : DonateFlow recipient (donateStepTwo recipient donateType w.1.userManager) w w' vc) :
      DonateFlow recipient (.resetAlert donateType) w w' vc
  | adjusted (w : World) (amount : Int) :
      DonateFlow recipient .adjustOneTimePaymentAmount w
        (w.1.setUserManager (w.1.userManager.setOneTimeDonateAmout amount), w.2) (recipient.bucket true)
  | amountRejected {w w₁ w' : World} {vc : MyBucket} {amount : Int} {l : List Effect}
      (hc : (ChooseAmountStepOne.continueButtonPressed amount).Yields Answers w [] w₁ l)
      (h : DonateFlow recipient .chooseAmount w₁ w' vc) : DonateFlow recipient .chooseAmount w w' vc
  | amountChosen {w w' : World} {amount : Int} {l : List Effect}
      (hc : (ChooseAmountStepOne.continueButtonPressed amount).Yields Answers w [] w' l)
      (hl : .showChooseRecipients ∈ l) :
      DonateFlow recipient .chooseAmount w w' (recipient.bucket false)

/-- What the flow leaves alone on its way. -/
structure Keeps (w w' : World) : Prop where
  completeDonation : w'.1.userManager.completeDonation = w.1.userManager.completeDonation
  currentUser : w'.1.currentUser = w.1.currentUser
  organisations : w'.2.organisations = w.2.organisations
  donates : ∀ uid, (w'.2.account uid).donates = (w.2.account uid).donates

theorem Keeps.refl (w : World) : Keeps w w := ⟨rfl, rfl, rfl, fun _ => rfl⟩

theorem Keeps.trans {w w₁ w' : World} (h : Keeps w w₁) (h' : Keeps w₁ w') : Keeps w w' :=
  ⟨h'.completeDonation.trans h.completeDonation, h'.currentUser.trans h.currentUser,
    h'.organisations.trans h.organisations, fun uid => (h'.donates uid).trans (h.donates uid)⟩

theorem keeps_userUpdated (w : World) (uid : String) (old data : UserDoc) (f : LendUser → LendUser) :
    Keeps w (w.userUpdated uid old data f) := by
  refine ⟨rfl, rfl, rfl, fun u => ?_⟩
  by_cases hu : u = uid
  · subst hu
    simp [World.userUpdated]
  · simp [World.userUpdated, Server.setAccount, hu]

theorem keeps_updateDefaultDonateAmount {w w' : World} {h : List Frame} {l : List Effect} {amount : Int}
    {k : Bool → Prog} (hk : ∀ b w₁ l, (k b).Yields Answers w₁ h w' l → w' = w₁)
    (hy : (FirestoreManager.updateDefaultDonateAmount amount k).Yields Answers w h w' l) :
    Keeps w w' := by
  cases hu : w.1.currentUser with
  | none =>
    obtain ⟨l', -, hy⟩ := yields_withUid_signedOut hu hy
    rw [hk _ _ _ hy]
    exact .refl w
  | some uid =>
    by_cases hne : w.1.userManager.user.map LendUser.defaultDonateAmount = some amount
    · rw [yields_updateDefaultDonateAmount_of_eq hu hne] at hy
      rw [hk _ _ _ hy]
      exact .refl w
    · rcases (yields_updateDefaultDonateAmount hu hne).mp hy with hy | ⟨old, -, hy⟩
      · rw [hk _ _ _ hy]
        exact .refl w
      · rw [hk _ _ _ hy]
        exact keeps_userUpdated w uid _ _ _

theorem keeps_continueButtonPressed {w w' : World} {l : List Effect} {amount : Int}
    (hy : (ChooseAmountStepOne.continueButtonPressed amount).Yields Answers w [] w' l) :
    Keeps w w' := by
  obtain ⟨l', -, hy⟩ := yields_emit.mp hy
  refine keeps_updateDefaultDonateAmount (fun b w₁ l hk => ?_) hy
  obtain ⟨_, -, hk⟩ := yields_emit.mp hk
  cases b <;> obtain ⟨_, -, hk⟩ := yields_emit.mp hk <;> exact (yields_stop.mp hk).1

/-! ## Every passage ends at the bucket of the recipient -/

namespace DonateStep

/-- The steps of a flow of type `donateType`. -/
def Belongs (recipient : Recipient) (donateType : DonateType) : DonateStep → Prop
  | .bucket vc => vc = recipient.bucket (donateType == .once)
  | .resetAlert donateType' => donateType' = donateType
  | .adjustOneTimePaymentAmount => donateType = .once
  | .chooseAmount => donateType = .monthly

end DonateStep

section Flow

variable {recipient : Recipient} {donateType : DonateType} {step : DonateStep} {w w' : World}
  {vc : MyBucket}

theorem belongs_donateStepTwo (recipient : Recipient) (donateType : DonateType) (u : UserManager) :
    (donateStepTwo recipient donateType u).Belongs recipient donateType := by
  rw [donateStepTwo]
  cases donateType with
  | once => rfl
  | monthly =>
    rw [if_neg (by decide)]
    split <;> rfl

theorem belongs_donateStepOne (recipient : Recipient) (donateType : DonateType) (u : UserManager) :
    (donateStepOne recipient donateType u).Belongs recipient donateType := by
  rw [donateStepOne]
  split
  · split <;> rfl
  · exact belongs_donateStepTwo recipient donateType u

theorem donateFlow_bucket (hf : DonateFlow recipient step w w' vc)
    (hs : step.Belongs recipient donateType) :
    vc = recipient.bucket (donateType == .once) ∧ Keeps w w' := by
  induction hf with
  | bucket w vc => exact ⟨hs, .refl w⟩
  | reset _ ih =>
    obtain rfl := hs
    exact ih (belongs_donateStepTwo _ _ _)
  | adjusted w amount =>
    obtain rfl := hs
    exact ⟨rfl, rfl, rfl, rfl, fun _ => rfl⟩
  | amountRejected hc _ ih =>
    obtain ⟨hvc, hkeeps⟩ := ih hs
    exact ⟨hvc, (keeps_continueButtonPressed hc).trans hkeeps⟩
  | amountChosen hc _ =>
    obtain rfl := hs
    exact ⟨rfl, keeps_continueButtonPressed hc⟩

end Flow

/-! ## What the bucket lists -/

/-- The rows list everything that was chosen, every saved row as it was saved, and each
organisation once. -/
structure Shows (s : Server) (recipient : Recipient) (saved : Option (List OrganisationWithAmount))
    (rows : List OrganisationWithAmount) : Prop where
  chosen : ∀ id, recipient.Chosen s id → id ∈ organisationIds rows
  saved : ∀ savedRows, saved = some savedRows → ∀ row ∈ savedRows,
    MyBucket.Lists rows row.organisation.id row.amount
  once : (organisationIds rows).Nodup

/-- No two stored pledges are to one existing organisation. -/
def OnePledgeEach (s : Server) (uid : String) : Prop :=
  ∀ id id' amount amount' organisationId, organisationId ∈ s.organisations →
    (s.account uid).donates.lookup id =
      some { amount := some amount, organisation := some organisationId } →
    (s.account uid).donates.lookup id' =
      some { amount := some amount', organisation := some organisationId } → id = id'

/-- When the bucket behind the flow lists what it should: always for one-time donations; for
monthly ones, when the saved bucket has everything chosen, or there is none and no two
pledges are to one organisation (or nothing can be loaded at all). -/
def Covers (w : World) (recipient : Recipient) : DonateType → Prop
  | .once => True
  | .monthly =>
    match w.1.userManager.savedRows .monthly with
    | some saved => ∀ id, recipient.Chosen w.2 id → id ∈ organisationIds saved
    | none => (∀ id, ¬ recipient.Chosen w.2 id) ∨
        ∀ uid, w.1.currentUser = some uid → OnePledgeEach w.2 uid

/-! ## Rows of a finished load -/

section Rows

variable {s : Server} {recipient : Recipient} {uid : String} {rows : List OrganisationWithAmount}
  {saved : Option (List OrganisationWithAmount)} {donates : List DonateItem}

theorem organisationIds_mergeSaved_none (donateAmount : Int) (rows : List OrganisationWithAmount) :
    organisationIds (MyBucket.mergeSaved none donateAmount rows) = organisationIds rows := by
  unfold MyBucket.mergeSaved
  split <;> simp_all [organisationIds]

/-- Merging the saved rows keeps what was listed. -/
theorem shows_mergeSaved {donateAmount : Int} (hchosen : ∀ id, recipient.Chosen s id → id ∈ organisationIds rows)
    (hrows : (organisationIds rows).Nodup)
    (hsaved : ∀ savedRows, saved = some savedRows → (organisationIds savedRows).Nodup) :
    Shows s recipient saved (MyBucket.mergeSaved saved donateAmount rows) := by
  cases saved with
  | none =>
    have hids := organisationIds_mergeSaved_none donateAmount rows
    exact ⟨fun id hid => hids ▸ hchosen id hid, by simp, hids ▸ hrows⟩
  | some savedRows =>
    refine ⟨fun id hid => MyBucket.mem_organisationIds_foldl.mpr (.inl (hchosen id hid)), ?_,
      MyBucket.nodup_organisationIds_foldl hrows⟩
    rintro _ ⟨⟩ row hrow
    exact MyBucket.lists_foldl (hsaved savedRows rfl) hrow

/-- The organisations a bucket of the flow works on are the chosen ones. -/
theorem organizations_bucket {vc : MyBucket} {organizations : Option (List OrganisationItem)}
    (hcause : vc.cause = (recipient.bucket false).cause)
    (horgs : vc.organizations = (recipient.bucket false).organizations)
    (ho : vc.Organizations s organizations) :
    ((organizations.getD []).map (·.id)).Nodup ∧ (organizations.getD []) ≠ [] ∧
      ∀ id, id ∈ (organizations.getD []).map (·.id) ↔ recipient.Chosen s id := by
  rw [MyBucket.Organizations, hcause, horgs] at ho
  cases recipient with
  | organisation o =>
    obtain rfl : organizations = some [o] := ho
    simp [Recipient.Chosen]
  | cause c =>
    obtain ⟨os, rfl, hof, hne⟩ := ho
    exact ⟨hof.nodup, hne, hof.mem_iff⟩

theorem nodup_organisations_of_onePledgeEach (hr : Reports s uid donates) (hone : OnePledgeEach s uid) :
    (donates.map (·.organisation.id)).Nodup := by
  refine List.Nodup.map_on (fun d hd d' hd' he => ?_) (List.Nodup.of_map _ hr.nodup)
  have hid : d.id = d'.id := hone d.id d'.id d.amount d'.amount d.organisation.id (hr.known d hd)
    (hr.stored d hd) (he ▸ hr.stored d' hd')
  exact List.inj_on_of_nodup_map hr.nodup hd hd' hid

theorem onePledgeEach_of_nodup (hr : Reports s uid donates) (hc : Complete s uid donates)
    (hn : (donates.map (·.organisation.id)).Nodup) : OnePledgeEach s uid := by
  intro id id' amount amount' organisationId ho hl hl'
  obtain ⟨d, hd, rfl⟩ := hc id amount organisationId hl ho
  obtain ⟨d', hd', rfl⟩ := hc id' amount' organisationId hl' ho
  have hdo : d.organisation.id = organisationId := by
    have := (hr.stored d hd).symm.trans hl
    simp only [Option.some.injEq, DonateDoc.mk.injEq] at this
    exact this.2
  have hdo' : d'.organisation.id = organisationId := by
    have := (hr.stored d' hd').symm.trans hl'
    simp only [Option.some.injEq, DonateDoc.mk.injEq] at this
    exact this.2
  rw [List.inj_on_of_nodup_map hn hd hd' (hdo.trans hdo'.symm)]

/-- A monthly load lists each organisation once exactly when it found one pledge for each. -/
theorem nodup_monthlyRows_iff {orgs : List OrganisationItem} (horgs : (orgs.map (·.id)).Nodup) :
    (organisationIds ((MyBucket.organizationRows orgs donates).1 ++
      (MyBucket.organizationRows orgs donates).2.map MyBucket.ofDonate)).Nodup ↔
      (donates.map (·.organisation.id)).Nodup := by
  have hids : organisationIds ((MyBucket.organizationRows orgs donates).1 ++
      (MyBucket.organizationRows orgs donates).2.map MyBucket.ofDonate) =
      orgs.map (·.id) ++ (MyBucket.organizationRows orgs donates).2.map (·.organisation.id) := by
    rw [← MyBucket.organisationIds_organizationRows orgs donates]
    simp [organisationIds, MyBucket.ofDonate]
  have hcount := MyBucket.count_organizationRows horgs donates
  rw [hids, List.nodup_iff_count_le_one, List.nodup_iff_count_le_one]
  refine forall_congr' fun x => ?_
  have hone := List.nodup_iff_count_le_one.mp horgs x
  have := hcount x
  rw [List.count_append]
  omega

end Rows

/-! ## Opening the bucket -/

section Opening

variable {recipient : Recipient} {uid : String} {w w' : World} {h : List Frame} {l : List Effect}
  {vc' : MyBucket}

@[simp] theorem Recipient.bucket_isOneTimePaymentMode (recipient : Recipient) (mode : Bool) :
    (recipient.bucket mode).isOneTimePaymentMode = mode := by
  cases recipient <;> rfl

@[simp] theorem Recipient.bucket_myImpactDonates (recipient : Recipient) (mode : Bool) :
    (recipient.bucket mode).myImpactDonates = none := by
  cases recipient <;> rfl

@[simp] theorem Recipient.bucket_donates (recipient : Recipient) (mode : Bool) :
    (recipient.bucket mode).donates = [] := by
  cases recipient <;> rfl

/-- What a finished load of the flow's bucket shows. -/
theorem shown_bucket {mode : Bool}
    (hfront : (BucketScreen.viewDidLoad w.1.userManager (recipient.bucket mode)).front = .loading)
    (hu : mode = false → w.1.currentUser = some uid)
    (hy : (recipient.bucket mode).viewDidLoad.Yields Answers w h w' l) (hm : .reloadData vc' ∈ l) :
    ∃ (orgs : List OrganisationItem) (donates : List DonateItem) (donateAmount : Int),
      (orgs.map (·.id)).Nodup ∧ orgs ≠ [] ∧ (∀ id, id ∈ orgs.map (·.id) ↔ recipient.Chosen w.2 id) ∧
      (if mode then donates = [] else Reports w.2 uid donates) ∧
      vc'.tableData =
        if mode then MyBucket.mergeSaved (w.1.userManager.savedRows .once) donateAmount
          (MyBucket.organizationRows orgs donates).1
        else MyBucket.mergeSaved (w.1.userManager.savedRows .monthly) donateAmount
          ((MyBucket.organizationRows orgs donates).1 ++
            (MyBucket.organizationRows orgs donates).2.map MyBucket.ofDonate) := by
  obtain ⟨hcause, hmode, horgs, hdonates⟩ :=
    MyBucket.viewDidLoad_fields w.1.userManager (recipient.bucket mode)
  rw [MyBucket.yields_viewDidLoad, if_pos hfront] at hy
  generalize (BucketScreen.viewDidLoad w.1.userManager (recipient.bucket mode)).vc = vc at *
  rw [Recipient.bucket_isOneTimePaymentMode] at hmode
  rw [Recipient.bucket_donates] at hdonates
  have hend := MyBucket.loadEnds_loadData (fun hf => hu (hmode ▸ hf)) hy
  obtain ⟨organizations, donates, rfl, ho, hd⟩ := hend.shown vc' hm
  have hcause' : vc.cause = (recipient.bucket false).cause := by
    rw [hcause]
    cases recipient <;> rfl
  have horgs' : vc.organizations = (recipient.bucket false).organizations := by
    rw [horgs]
    cases recipient <;> rfl
  obtain ⟨hnodup, hne, hchosen⟩ := organizations_bucket hcause' horgs' ho
  rw [MyBucket.Donates, hmode, hdonates] at hd
  refine ⟨organizations.getD [], donates, vc.donateAmount, hnodup, hne, hchosen, hd, ?_⟩
  rw [MyBucket.loaded, MyBucket.updateUI_tableData]
  unfold MyBucket.loadedRows
  simp only [hmode]

/-- A one-time bucket lists what it should. -/
theorem shows_once (hsaved : ∀ saved, w.1.userManager.savedRows .once = some saved →
      (organisationIds saved).Nodup)
    (hy : (recipient.bucket true).viewDidLoad.Yields Answers w h w' l) (hm : .reloadData vc' ∈ l) :
    Shows w.2 recipient (w.1.userManager.savedRows .once) vc'.tableData := by
  have hfront := MyBucket.viewDidLoad_once w.1.userManager (recipient.bucket_isOneTimePaymentMode true)
  have hu : true = false → w.1.currentUser = some "" := by simp
  obtain ⟨orgs, donates, donateAmount, hnodup, -, hchosen, -, hrows⟩ := shown_bucket hfront hu hy hm
  rw [hrows, if_pos rfl]
  have hids := MyBucket.organisationIds_organizationRows orgs donates
  exact shows_mergeSaved (fun id hid => hids ▸ (hchosen id).mpr hid) (hids ▸ hnodup) hsaved

/-- The saved monthly bucket is shown as it is. -/
theorem shows_saved_iff {saved : List OrganisationWithAmount}
    (hs : w.1.userManager.savedRows .monthly = some saved) (hn : (organisationIds saved).Nodup) :
    (∀ w' l vc', (recipient.bucket false).viewDidLoad.Yields Answers w [] w' l → .reloadData vc' ∈ l →
      Shows w.2 recipient (some saved) vc'.tableData) ↔
      ∀ id, recipient.Chosen w.2 id → id ∈ organisationIds saved := by
  have hset := MyBucket.viewDidLoad_monthly w.1.userManager (recipient.bucket_isOneTimePaymentMode false)
  rw [Recipient.bucket_myImpactDonates, hs] at hset
  obtain ⟨hfront, hrows⟩ := hset
  constructor
  · intro hall
    have hy : (recipient.bucket false).viewDidLoad.Yields Answers w [] w
        [.reloadData (BucketScreen.viewDidLoad w.1.userManager (recipient.bucket false)).vc] := by
      rw [MyBucket.yields_viewDidLoad, if_neg (by simp [hfront])]
      exact ⟨rfl, rfl⟩
    have hshow := hall w _ _ hy List.mem_cons_self
    rw [hrows] at hshow
    exact hshow.chosen
  · intro hchosen w' l vc' hy hm
    rw [MyBucket.yields_viewDidLoad, if_neg (by simp [hfront])] at hy
    obtain ⟨-, rfl⟩ := hy
    obtain rfl : vc' = _ := by simpa using hm
    rw [hrows]
    refine ⟨hchosen, ?_, hn⟩
    rintro _ ⟨⟩ row hrow
    exact ⟨row, hrow, rfl, rfl⟩

/-- A monthly bucket that can be loaded may find every pledge. -/
theorem exists_shown_monthly {id : String} (hs : w.1.userManager.savedRows .monthly = none)
    (hu : w.1.currentUser = some uid) (hid : recipient.Chosen w.2 id) :
    ∃ w' l vc' donates, (recipient.bucket false).viewDidLoad.Yields Answers w [] w' l ∧
      .reloadData vc' ∈ l ∧ Reports w.2 uid donates ∧ Complete w.2 uid donates ∧
      ((organisationIds vc'.tableData).Nodup → (donates.map (·.organisation.id)).Nodup) := by
  have hset := MyBucket.viewDidLoad_monthly w.1.userManager (recipient.bucket_isOneTimePaymentMode false)
  rw [Recipient.bucket_myImpactDonates, hs] at hset
  obtain ⟨hcause, hmode, horgs, -⟩ :=
    MyBucket.viewDidLoad_fields w.1.userManager (recipient.bucket false)
  rw [Recipient.bucket_isOneTimePaymentMode] at hmode
  obtain ⟨w', l, organizations, donates, hy, hm, ho, hreports, hcomplete⟩ :=
    MyBucket.exists_yields_loadData hmode hu (fun cause hc hnone => by
      rw [hcause] at hc
      rw [horgs] at hnone
      cases recipient with
      | organisation o => simp [Recipient.bucket] at hnone
      | cause c =>
        obtain rfl : c = cause := by simpa [Recipient.bucket] using hc
        exact ⟨id, hid⟩)
  obtain ⟨hnodup, -, -⟩ := organizations_bucket hcause horgs ho
  refine ⟨w', l, _, donates, ?_, hm, hreports, hcomplete, fun hrows => ?_⟩
  · rwa [MyBucket.yields_viewDidLoad, if_pos hset.1]
  · rw [MyBucket.loaded, MyBucket.updateUI_tableData] at hrows
    unfold MyBucket.loadedRows at hrows
    simp only [hmode, hs, Bool.false_eq_true, if_false, organisationIds_mergeSaved_none] at hrows
    exact (nodup_monthlyRows_iff hnodup).mp hrows

/-- Without a saved monthly bucket the pledges decide. -/
theorem shows_monthly_iff (hs : w.1.userManager.savedRows .monthly = none) :
    (∀ w' l vc', (recipient.bucket false).viewDidLoad.Yields Answers w [] w' l → .reloadData vc' ∈ l →
      Shows w.2 recipient none vc'.tableData) ↔
      (∀ id, ¬ recipient.Chosen w.2 id) ∨ ∀ uid, w.1.currentUser = some uid → OnePledgeEach w.2 uid := by
  have hset := MyBucket.viewDidLoad_monthly w.1.userManager (recipient.bucket_isOneTimePaymentMode false)
  rw [Recipient.bucket_myImpactDonates, hs] at hset
  obtain ⟨hfront, -⟩ := hset
  constructor
  · intro hall
    by_cases hchosen : ∀ id, ¬ recipient.Chosen w.2 id
    · exact .inl hchosen
    · obtain ⟨id, hid⟩ := not_forall_not.mp hchosen
      refine .inr fun uid hu => ?_
      obtain ⟨w', l, vc', donates, hy, hm, hreports, hcomplete, hone⟩ := exists_shown_monthly hs hu hid
      exact onePledgeEach_of_nodup hreports hcomplete (hone (hall w' l vc' hy hm).once)
  · intro hone w' l vc' hy hm
    cases hu : w.1.currentUser with
    | none =>
      rw [MyBucket.yields_viewDidLoad, if_pos hfront] at hy
      have hmode : (BucketScreen.viewDidLoad w.1.userManager (recipient.bucket false)).vc.isOneTimePaymentMode
          = false := (MyBucket.viewDidLoad_fields _ _).2.1.trans (recipient.bucket_isOneTimePaymentMode _)
      exact absurd hm (MyBucket.not_shown_of_signedOut hmode hu hy)
    | some uid =>
      obtain ⟨orgs, donates, donateAmount, hnodup, hne, hchosen, hreports, hrows⟩ :=
        shown_bucket hfront (fun _ => hu) hy hm
      have hdonates : (donates.map (·.organisation.id)).Nodup := by
        rcases hone with hnone | hone
        · obtain ⟨o, ho⟩ := List.exists_mem_of_ne_nil orgs hne
          exact absurd ((hchosen o.id).mp (List.mem_map_of_mem ho)) (hnone o.id)
        · exact nodup_organisations_of_onePledgeEach hreports (hone uid hu)
      rw [hrows, if_neg (by simp), hs]
      refine shows_mergeSaved (fun id hid => ?_) ((nodup_monthlyRows_iff hnodup).mpr hdonates) (by simp)
      have hmem := (hchosen id).mpr hid
      rw [← MyBucket.organisationIds_organizationRows orgs donates] at hmem
      rw [organisationIds, List.map_append]
      exact List.mem_append_left _ hmem

end Opening

/-! ## From the choice to the rows -/

section Opened

variable {recipient : Recipient} {type : DonateType} {w w₁ : World} {vc : MyBucket}

theorem Keeps.chosen_iff (hk : Keeps w w₁) (id : String) :
    recipient.Chosen w₁.2 id ↔ recipient.Chosen w.2 id := by
  cases recipient with
  | organisation o => rfl
  | cause c => simp only [Recipient.Chosen, Server.InCause, hk.organisations]

theorem Keeps.savedRows (hk : Keeps w w₁) (type : DonateType) :
    w₁.1.userManager.savedRows type = w.1.userManager.savedRows type := by
  simp only [UserManager.savedRows, hk.completeDonation]

theorem Keeps.onePledgeEach_iff (hk : Keeps w w₁) (uid : String) :
    OnePledgeEach w₁.2 uid ↔ OnePledgeEach w.2 uid := by
  simp only [OnePledgeEach, hk.organisations, hk.donates]

theorem Keeps.shows_iff (hk : Keeps w w₁) {saved : Option (List OrganisationWithAmount)}
    {rows : List OrganisationWithAmount} :
    Shows w₁.2 recipient saved rows ↔ Shows w.2 recipient saved rows :=
  ⟨fun h => ⟨fun id hid => h.chosen id ((hk.chosen_iff id).mpr hid), h.saved, h.once⟩,
    fun h => ⟨fun id hid => h.chosen id ((hk.chosen_iff id).mp hid), h.saved, h.once⟩⟩

theorem Keeps.covers_iff (hk : Keeps w w₁) (type : DonateType) :
    Covers w₁ recipient type ↔ Covers w recipient type := by
  cases type with
  | once => rfl
  | monthly =>
    unfold Covers
    simp only [hk.savedRows, hk.chosen_iff, hk.currentUser, hk.onePledgeEach_iff]

/-- The rows of the bucket behind the donate flow list everything that was chosen, every
saved row and each organisation once, whatever the load is answered, exactly when the
bucket covers the recipient. -/
theorem openedBucket_shows_iff
    (hflow : DonateFlow recipient (donateStepOne recipient type w.1.userManager) w w₁ vc)
    (hsaved : ∀ b, w.1.userManager.completeDonation = some b →
      (organisationIds b.donatedOrganisations).Nodup) :
    (∀ w' l vc', vc.viewDidLoad.Yields Answers w₁ [] w' l → .reloadData vc' ∈ l →
      Shows w.2 recipient (w.1.userManager.savedRows type) vc'.tableData) ↔
    Covers w recipient type := by
  obtain ⟨rfl, hk⟩ := donateFlow_bucket hflow (belongs_donateStepOne recipient type w.1.userManager)
  have hdistinct : ∀ type saved, w.1.userManager.savedRows type = some saved →
      (organisationIds saved).Nodup := by
    intro type saved hs
    rw [UserManager.savedRows] at hs
    split at hs
    · rename_i b hb
      obtain ⟨-, he⟩ := Option.ite_none_right_eq_some.mp hs
      obtain rfl := Option.some.inj he
      exact hsaved b hb
    · cases hs
  rw [← hk.covers_iff, ← hk.savedRows]
  simp only [← hk.shows_iff]
  simp only [← hk.savedRows] at hdistinct
  cases type with
  | once => exact iff_of_true (fun w' l vc' hy hm => shows_once (hdistinct .once) hy hm) trivial
  | monthly =>
    cases hs : w₁.1.userManager.savedRows .monthly with
    | none =>
      rw [Covers, hs]
      exact shows_monthly_iff hs
    | some saved =>
      rw [Covers, hs]
      exact shows_saved_iff hs (hdistinct .monthly saved hs)

/-- The donor, who has saved nothing and pledged nothing, opens a bucket for the shelter. -/
theorem openedBucket_shows_shelter :
    Covers donorWorld (.organisation BucketScreen.shelter) .monthly ∧
      ∀ w' l vc', ((Recipient.organisation BucketScreen.shelter).bucket false).viewDidLoad.Yields
          Answers donorWorld [] w' l → .reloadData vc' ∈ l →
        Shows donorWorld.2 (.organisation BucketScreen.shelter) none vc'.tableData := by
  have hflow : DonateFlow (.organisation BucketScreen.shelter)
      (donateStepOne (.organisation BucketScreen.shelter) .monthly donorWorld.1.userManager)
      donorWorld donorWorld _ := .bucket donorWorld _
  have hcovers : Covers donorWorld (.organisation BucketScreen.shelter) .monthly := by
    refine .inr fun uid _ => ?_
    intro id id' amount amount' organisationId ho
    exact absurd ho (AList.notMem_empty organisationId)
  exact ⟨hcovers, (openedBucket_shows_iff hflow (by simp [donorWorld])).mpr hcovers⟩

/-- The donor with a saved monthly bucket for the shelter. -/
def savedWorld : World :=
  (donorWorld.1.setUserManager { donorWorld.1.userManager with
    completeDonation := some
      { donatedOrganisations := [{ amount := 10, organisation := BucketScreen.shelter }], type := .monthly } },
    donorWorld.2)

/-- The saved monthly bucket is shown as it is: a second organisation is not added. -/
theorem not_openedBucket_shows :
    ¬ ∀ (recipient : Recipient) (type : DonateType) (w w₁ : World) (vc : MyBucket),
      DonateFlow recipient (donateStepOne recipient type w.1.userManager) w w₁ vc →
      (∀ b, w.1.userManager.completeDonation = some b →
        (organisationIds b.donatedOrganisations).Nodup) →
      ∀ w' l vc', vc.viewDidLoad.Yields Answers w₁ [] w' l → .reloadData vc' ∈ l →
        Shows w.2 recipient (w.1.userManager.savedRows type) vc'.tableData := by
  intro h
  have hflow : DonateFlow (.organisation { id := "school" })
      (donateStepOne (.organisation { id := "school" }) .monthly savedWorld.1.userManager)
      savedWorld savedWorld _ := .bucket savedWorld _
  have hall := h _ _ _ _ _ hflow (by
    rintro _ ⟨⟩
    decide)
  have hmem := (@shows_saved_iff (.organisation { id := "school" }) savedWorld _ rfl (by decide)).mp hall
    "school" rfl
  exact absurd hmem (by decide)

end Opened

end Pledge
