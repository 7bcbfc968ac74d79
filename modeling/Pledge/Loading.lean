import Pledge.BucketScreen
import Pledge.Fetching

/-!
# Loading a bucket

`viewDidLoad` of the bucket screen with the requests it makes, and what the screen can hold
when they have been answered.
-/

namespace Pledge

open EventLoop

namespace MyBucket

def loadDonates (vc : MyBucket) (completion : MyBucket → Bool → Prog) : Prog :=
  FirestoreManager.fetchDonates fun donates =>
    match donates with
    | none => completion vc false
    | some donates => completion { vc with donates } true

def loadCauseOrganisations (vc : MyBucket) (causeId : Option String)
    (completion : MyBucket → Bool → Prog) : Prog :=
  match causeId, vc.organizations with
  | none, _ => completion vc true
  | some _, some _ => completion vc true
  | some causeId, none =>
    FirestoreManager.fetchOrganisationsByCause causeId fun data =>
      match data with
      | none => completion vc false
      | some data => completion { vc with organizations := some data } true

def loadDataCompletionHandler (vc : MyBucket) (success : Bool) : Prog :=
  .emit .stopActivityAnimating <|
    if !success then .emit (.bucketNetworkErrorAlert vc) .stop
    else .read fun d => .emit (.reloadData (vc.loaded d.userManager)) .stop

def loadData (vc : MyBucket) : Prog :=
  .emit .startActivityAnimating <|
    if vc.isOneTimePaymentMode then
      vc.loadCauseOrganisations (vc.cause.map Cause.id) loadDataCompletionHandler
    else
      vc.loadDonates fun vc success =>
        if !success then vc.loadDataCompletionHandler false
        else vc.loadCauseOrganisations (vc.cause.map Cause.id) loadDataCompletionHandler

/-- `viewDidLoad`, with the set-up of the pure model in front of the load. -/
def viewDidLoad (vc : MyBucket) : Prog :=
  .read fun d =>
    let b := BucketScreen.viewDidLoad d.userManager vc
    if b.front = .loading then b.vc.loadData else .emit (.reloadData b.vc) .stop

end MyBucket

/-- The first half of `MyImpactsViewController.loadData`. -/
def MyImpacts.loadActiveDonates : Prog :=
  FirestoreManager.fetchUpdateUser fun _ =>
    FirestoreManager.fetchDonates fun lends =>
      match lends with
      | none => .emit .networkErrorAlert .stop
      | some lends => .emit (.showActiveDonates lends) .stop

namespace MyBucket

/-! ## What a load leaves -/

/-- The organisations a finished load works on. -/
def Organizations (s : Server) (vc : MyBucket) (organizations : Option (List OrganisationItem)) : Prop :=
  match vc.cause, vc.organizations with
  | some cause, none => ∃ os, organizations = some os ∧ OfCause s cause.id os ∧ os ≠ []
  | _, _ => organizations = vc.organizations

/-- The pledges a load works on; a one-time bucket asks for none. -/
def Donates (s : Server) (uid : String) (vc : MyBucket) (donates : List DonateItem) : Prop :=
  if vc.isOneTimePaymentMode then donates = vc.donates else Reports s uid donates

section Yields

variable {w w' : World} {h : List Frame} {l : List Effect} {uid : String} {vc vc' : MyBucket}
  {success : Bool}

theorem yields_loadDataCompletionHandler :
    (vc.loadDataCompletionHandler success).Yields Answers w h w' l ↔ w' = w ∧
      l = [.stopActivityAnimating, if success then .reloadData (vc.loaded w.1.userManager)
        else .bucketNetworkErrorAlert vc] := by
  cases success <;> simp [loadDataCompletionHandler] <;> aesop

theorem yields_loadCauseOrganisations {completion : MyBucket → Bool → Prog}
    (hy : (vc.loadCauseOrganisations (vc.cause.map Cause.id) completion).Yields Answers w h w' l) :
    SameSession w w' ∧ l = [] ∨
      ∃ w₁ organizations success, SameSession w w₁ ∧
        (completion { vc with organizations } success).Yields Answers w₁ h w' l ∧
        (success = true → vc.Organizations w.2 organizations) ∧
        (success = false → organizations = vc.organizations) := by
  obtain ⟨cause, isOneTimePaymentMode, organizations, myImpactDonates, donateAmount, shouldShow,
    donates, tableData, completeEnabled⟩ := vc
  cases cause with
  | none => exact .inr ⟨w, organizations, true, .refl w, hy, fun _ => rfl, by simp⟩
  | some cause =>
    cases organizations with
    | some organizations => exact .inr ⟨w, some organizations, true, .refl w, hy, fun _ => rfl, by simp⟩
    | none =>
      rcases yields_fetchOrganisationsByCause hy with hend | ⟨w₁, data, hsame, hk, hof⟩
      · exact .inl hend
      · cases data with
        | none => exact .inr ⟨w₁, none, false, hsame, hk, by simp, fun _ => rfl⟩
        | some data =>
          exact .inr ⟨w₁, some data, true, hsame, hk, fun _ => ⟨data, rfl, hof data rfl⟩, by simp⟩

/-- Where a load ends, if it ends: with the rows of what was loaded, or with the alert. -/
structure LoadEnds (uid : String) (vc : MyBucket) (w w' : World) (l : List Effect) : Prop where
  session : SameSession w w'
  shown : ∀ vc', .reloadData vc' ∈ l → ∃ organizations donates,
    vc' = { vc with organizations, donates }.loaded w.1.userManager ∧
    vc.Organizations w.2 organizations ∧ vc.Donates w.2 uid donates
  failed : ∀ vc', .bucketNetworkErrorAlert vc' ∈ l → ∃ donates, vc' = { vc with donates } ∧
    (donates = vc.donates ∨ vc.Donates w.2 uid donates)

/-- The last stage of a load, with its pledges already there. -/
theorem loadEnds_organisations {w₁ : World} {donates : List DonateItem}
    (hd : vc.Donates w.2 uid donates) (hsame : SameSession w w₁)
    (hy : ({ vc with donates }.loadCauseOrganisations (vc.cause.map Cause.id)
      loadDataCompletionHandler).Yields Answers w₁ h w' l) : vc.LoadEnds uid w w' l := by
  rcases @yields_loadCauseOrganisations _ _ _ _ { vc with donates } _ hy with
    ⟨hs, rfl⟩ | ⟨w₂, organizations, success, hs, hk, horgs, hsaved⟩
  · exact ⟨hsame.trans hs, by simp, by simp⟩
  · obtain ⟨rfl, rfl⟩ := yields_loadDataCompletionHandler.mp hk
    refine ⟨hsame.trans hs, fun vc' hm => ?_, fun vc' hm => ?_⟩
    · cases success with
      | false => simp at hm
      | true =>
        have hu : w'.1.userManager = w.1.userManager := (hsame.trans hs).userManager
        have horg := horgs rfl
        rw [hsame.server] at horg
        exact ⟨organizations, donates, by simpa [hu] using hm, horg, hd⟩
    · cases success with
      | true => simp at hm
      | false =>
        obtain rfl := hsaved rfl
        exact ⟨donates, by simpa using hm, .inr hd⟩

theorem loadEnds_loadData (hu : vc.isOneTimePaymentMode = false → w.1.currentUser = some uid)
    (hy : vc.loadData.Yields Answers w h w' l) : vc.LoadEnds uid w w' l := by
  obtain ⟨l', rfl, hload⟩ := yields_emit.mp hy
  have hrest : vc.LoadEnds uid w w' l' := by
    by_cases hmode : vc.isOneTimePaymentMode = true
    · rw [if_pos hmode] at hload
      exact loadEnds_organisations (by rw [Donates, if_pos hmode]) (.refl w) hload
    · rw [if_neg hmode, loadDonates] at hload
      obtain ⟨w₁, h₁, donates, hsame, hk, hreports⟩ := yields_fetchDonates (hu (by simpa using hmode)) hload
      cases donates with
      | none =>
        obtain ⟨rfl, rfl⟩ := yields_loadDataCompletionHandler.mp hk
        exact ⟨hsame, by simp, fun vc' hm => ⟨vc.donates, by simpa using hm, .inl rfl⟩⟩
      | some donates =>
        have hd : vc.Donates w.2 uid donates := by
          rw [Donates, if_neg hmode]
          exact hreports donates rfl
        exact loadEnds_organisations hd hsame hk
  refine ⟨hrest.session, fun vc' hm => hrest.shown vc' ?_, fun vc' hm => hrest.failed vc' ?_⟩
  · simpa using hm
  · simpa using hm

theorem exists_yields_loadCauseOrganisations (w : World) (vc : MyBucket)
    (hc : ∀ cause, vc.cause = some cause → vc.organizations = none → ∃ id, w.2.InCause cause.id id) :
    ∃ w₁ organizations, SameSession w w₁ ∧ vc.Organizations w.2 organizations ∧
      ∀ h w' l (completion : MyBucket → Bool → Prog),
        (completion { vc with organizations } true).Yields Answers w₁ h w' l →
          (vc.loadCauseOrganisations (vc.cause.map Cause.id) completion).Yields Answers w h w' l := by
  obtain ⟨cause, isOneTimePaymentMode, organizations, myImpactDonates, donateAmount, shouldShow,
    donates, tableData, completeEnabled⟩ := vc
  cases cause with
  | none => exact ⟨w, organizations, .refl w, rfl, fun _ _ _ _ hk => hk⟩
  | some cause =>
    cases organizations with
    | some organizations => exact ⟨w, some organizations, .refl w, rfl, fun _ _ _ _ hk => hk⟩
    | none =>
      obtain ⟨id, hid⟩ := hc cause rfl rfl
      obtain ⟨w₁, os, hsame, hof, hfetch⟩ := exists_yields_fetchOrganisationsByCause w hid
      have hne : os ≠ [] := by
        rintro rfl
        simpa using (hof.mem_iff id).mpr hid
      exact ⟨w₁, some os, hsame, ⟨os, rfl, hof, hne⟩, fun h w' l completion hk => hfetch h w' l _ hk⟩

/-- A monthly load may find everything that is stored. -/
theorem exists_yields_loadData (hmode : vc.isOneTimePaymentMode = false)
    (hu : w.1.currentUser = some uid)
    (hc : ∀ cause, vc.cause = some cause → vc.organizations = none → ∃ id, w.2.InCause cause.id id) :
    ∃ w' l organizations donates, vc.loadData.Yields Answers w [] w' l ∧
      .reloadData ({ vc with organizations, donates }.loaded w.1.userManager) ∈ l ∧
      vc.Organizations w.2 organizations ∧ Reports w.2 uid donates ∧ Complete w.2 uid donates := by
  obtain ⟨w₁, h₁, donates, hsame, hreports, hcomplete, hfetch⟩ := exists_yields_fetchDonates hu []
  obtain ⟨w₂, organizations, hsame₂, horgs, hload⟩ :=
    exists_yields_loadCauseOrganisations w₁ { vc with donates } (by rwa [hsame.server])
  have hend : (loadDataCompletionHandler { vc with organizations, donates } true).Yields Answers w₂ h₁ w₂
      [.stopActivityAnimating,
        .reloadData ({ vc with organizations, donates }.loaded w₂.1.userManager)] :=
    yields_loadDataCompletionHandler.mpr ⟨rfl, rfl⟩
  have hy : vc.loadData.Yields Answers w [] w₂ [.startActivityAnimating, .stopActivityAnimating,
      .reloadData ({ vc with organizations, donates }.loaded w₂.1.userManager)] := by
    refine yields_emit.mpr ⟨_, rfl, ?_⟩
    rw [if_neg (by simp [hmode]), loadDonates]
    exact hfetch _ _ _ (hload _ _ _ _ hend)
  refine ⟨w₂, _, organizations, donates, hy, ?_, ?_, hreports, hcomplete⟩
  · simp [(hsame.trans hsame₂).userManager]
  · rwa [hsame.server] at horgs

theorem yields_loadData_signedOut (hmode : vc.isOneTimePaymentMode = false) (hu : w.1.currentUser = none)
    (hy : vc.loadData.Yields Answers w h w' l) :
    w' = w ∧ l = [.startActivityAnimating, .redirectToAuth, .stopActivityAnimating,
      .bucketNetworkErrorAlert vc] := by
  obtain ⟨l', rfl, hload⟩ := yields_emit.mp hy
  rw [if_neg (by simp [hmode]), loadDonates, FirestoreManager.fetchDonates] at hload
  obtain ⟨l', rfl, hk⟩ := yields_withUid_signedOut hu hload
  obtain ⟨rfl, rfl⟩ := yields_loadDataCompletionHandler.mp hk
  exact ⟨rfl, rfl⟩

/-- A monthly bucket is not loaded for nobody. -/
theorem not_shown_of_signedOut (hmode : vc.isOneTimePaymentMode = false) (hu : w.1.currentUser = none)
    (hy : vc.loadData.Yields Answers w h w' l) : .reloadData vc' ∉ l := by
  obtain ⟨-, rfl⟩ := yields_loadData_signedOut hmode hu hy
  simp

/-! ## From set-up to load -/

/-- Setting up changes only the amount, the rows and the button. -/
theorem viewDidLoad_fields (u : UserManager) (vc : MyBucket) :
    (BucketScreen.viewDidLoad u vc).vc.cause = vc.cause ∧
      (BucketScreen.viewDidLoad u vc).vc.isOneTimePaymentMode = vc.isOneTimePaymentMode ∧
      (BucketScreen.viewDidLoad u vc).vc.organizations = vc.organizations ∧
      (BucketScreen.viewDidLoad u vc).vc.donates = vc.donates := by
  unfold BucketScreen.viewDidLoad
  split
  · unfold setupOneTimePaymentUI
    dsimp only
    split <;> exact ⟨rfl, rfl, rfl, rfl⟩
  · unfold setupMonthlyPaymentUI
    dsimp only
    split <;> exact ⟨rfl, rfl, rfl, rfl⟩

/-- A one-time bucket always loads. -/
theorem viewDidLoad_once (u : UserManager) (hmode : vc.isOneTimePaymentMode = true) :
    (BucketScreen.viewDidLoad u vc).front = .loading := by
  rw [BucketScreen.viewDidLoad, if_pos hmode]

/-- A monthly bucket shows given pledges or saved rows, and loads without them. -/
theorem viewDidLoad_monthly (u : UserManager) (hmode : vc.isOneTimePaymentMode = false) :
    match vc.myImpactDonates, u.savedRows .monthly with
    | some myImpactDonates, _ => (BucketScreen.viewDidLoad u vc).front = .rows ∧
        (BucketScreen.viewDidLoad u vc).vc.tableData = myImpactDonates.map ofDonate
    | none, some rows => (BucketScreen.viewDidLoad u vc).front = .rows ∧
        (BucketScreen.viewDidLoad u vc).vc.tableData = rows
    | none, none => (BucketScreen.viewDidLoad u vc).front = .loading ∧
        (BucketScreen.viewDidLoad u vc).vc.tableData = vc.tableData := by
  rw [BucketScreen.viewDidLoad, if_neg (by simp [hmode]), setupMonthlyPaymentUI]
  dsimp only
  cases vc.myImpactDonates <;> cases u.savedRows .monthly <;> exact ⟨rfl, rfl⟩

theorem yields_viewDidLoad :
    vc.viewDidLoad.Yields Answers w h w' l ↔
      if (BucketScreen.viewDidLoad w.1.userManager vc).front = .loading then
        (BucketScreen.viewDidLoad w.1.userManager vc).vc.loadData.Yields Answers w h w' l
      else w' = w ∧ l = [.reloadData (BucketScreen.viewDidLoad w.1.userManager vc).vc] := by
  rw [viewDidLoad, yields_read]
  by_cases hf : (BucketScreen.viewDidLoad w.1.userManager vc).front = .loading
  · simp only [if_pos hf]
  · simp only [if_neg hf, yields_emit, yields_stop]
    constructor
    · rintro ⟨l', rfl, rfl, rfl⟩
      exact ⟨rfl, rfl⟩
    · rintro ⟨rfl, rfl⟩
      exact ⟨[], rfl, rfl, rfl⟩

end Yields

end MyBucket

end Pledge
