import Pledge.LoadContracts
import Pledge.Overlapping
import Pledge.RowLabels

/-!
# Where the rows come from

Every row of every bucket has been loaded, saved or shown on My Impacts before. What a rule says
of loaded rows holds of the rows that a checkout is given, whatever else is in flight.
-/

namespace Pledge

open EventLoop

/-! ## What the app keeps to -/

def Device.SignedIn (users : String → Prop) (d : Device) : Prop :=
  ∀ uid, d.currentUser = some uid → users uid

/-- Only these users are signed in, and `R` holds of the saved rows. -/
structure Device.Lists (users : String → Prop) (R : List OrganisationWithAmount → Prop) (d : Device) :
    Prop where
  signedIn : d.SignedIn users
  saved : ∀ saved, d.userManager.completeDonation = some saved → R saved.donatedOrganisations

/-- What is read of these users' pledges satisfies `Read`, and no organisation comes twice. -/
def Request.Lists (users : String → Prop) (Read : List DonateItem → Prop) :
    (r : Request) → r.Response → Prop
  | .getDonates uid, snapshot => users uid → ∀ documents, snapshot = some documents →
    ∀ organisations, Read (FirestoreManager.joinDonates (documents.filterMap DonateItemRef.init?) organisations)
  | .getOrganisationsByCause _, snapshot => ∀ documents, snapshot = some documents →
    ((documents.filterMap OrganisationItem.init?).map (·.id)).Nodup
  | _, _ => True

/-- `R` holds of the rows and the pledges that are shown. -/
def Effect.Lists (R : List OrganisationWithAmount → Prop) : Effect → Prop
  | .showActiveDonates donates => R (donates.map MyBucket.ofDonate)
  | .reloadData vc | .bucketNetworkErrorAlert vc => OfScreen R ⟨vc, .rows⟩
  | _ => True

def listing (users : String → Prop) (Read : List DonateItem → Prop)
    (R : List OrganisationWithAmount → Prop) : Contract Device Frame Effect Request.Response where
  holds := Device.Lists users R
  captures _ := True
  asks := Request.KeepsOrganisation
  answers r a := r.Lists users Read a
  emits := Effect.Lists R

/-- `R` holds wherever the app keeps rows or pledges. -/
structure Everywhere (users : String → Prop) (R : List OrganisationWithAmount → Prop) (a : App) : Prop where
  device : a.world.1.Lists users R
  activeDonates : R (a.activeDonates.map MyBucket.ofDonate)
  screen : ∀ below screen, a.page = .bucket below screen → OfScreen R screen
  below : ∀ below screen, a.page = .bucket below screen → below.screen = none

/-- Of the app now and at every touch, and of all that is still to come of it. -/
structure Busy.Lists (users : String → Prop) (Read : List DonateItem → Prop)
    (R : List OrganisationWithAmount → Prop) (s : Busy) : Prop where
  app : Everywhere users R s.app
  origin : ∀ x ∈ s.taken, Everywhere users R x.app
  pending : ∀ x ∈ s.taken, ∀ call ∈ x.pending, Call.Meets (listing users Read R) call
  out : ∀ x ∈ s.taken, ∀ o ∈ x.out, o.Lists R

/-- Answered in `w`, only these users are signed in, and what is read is as it should be. -/
structure Admits (users : String → Prop) (Read : List DonateItem → Prop)
    (serve : World → (r : Request) → r.Response → World → Prop) (w : World) : Prop where
  signedIn : ∀ r a w', serve w r a w' → w.1.SignedIn users → w'.1.SignedIn users
  userManager : ∀ r a w', serve w r a w' → w'.1.userManager = w.1.userManager
  read : ∀ r a w', serve w r a w' → r.Lists users Read a

theorem nodup_answered {users : String → Prop} {Read : List DonateItem → Prop} {causeId : String} {snapshot : Option (List (Document OrganisationDoc))} {w w' : World}
    (h : Answers w (.getOrganisationsByCause causeId) snapshot w') :
    (Request.getOrganisationsByCause causeId).Lists users Read snapshot := by
  rintro documents rfl
  obtain ⟨documents, hsnap, rfl⟩ := h.2 _ rfl
  exact (ofCause_snapshot hsnap causeId).nodup

/-- Whatever a single client is answered, where anybody may be signed in and anything be read. -/
theorem admits_kept {Kept : Server → Server → Prop} {w : World} :
    Admits (fun _ => True) (fun _ => True) (AnswersOrKept Kept) w where
  signedIn _ _ _ _ _ _ _ := trivial
  userManager _ _ _ h := userManager_kept h
  read r a w' h := by
    cases r with
    | getOrganisationsByCause causeId =>
      rcases h with h | ⟨-, -, kept, w'', -, h⟩
      · exact nodup_answered h
      · exact nodup_answered h
    | getDonates => exact fun _ _ _ _ => trivial
    | _ => trivial

section Programs

variable {users : String → Prop} {Read : List DonateItem → Prop} {R : List OrganisationWithAmount → Prop}
  {p : Prog} {vc : MyBucket} {P : MyBucket → Prop}

theorem lists_fetchOrganisationsIn {ids : List String} {k : List OrganisationItem → Prog}
    (hk : ∀ organisations, (k organisations).Meets (listing users Read R)) :
    (FirestoreManager.fetchOrganisationsIn ids k).Meets (listing users Read R) := by
  unfold FirestoreManager.fetchOrganisationsIn
  split
  · exact hk _
  · exact fun d _ => meets_fanOut trivial (fun _ _ => trivial) (fun _ _ _ _ _ _ => trivial)
      fun frame _ d _ => hk _

theorem lists_fetchDonates (hR : RowRule Read R) {k : Option (List DonateItem) → Prog}
    (hnone : (k none).Meets (listing users Read R))
    (hk : ∀ donates, Read donates → (k (some donates)).Meets (listing users Read R)) :
    (FirestoreManager.fetchDonates k).Meets (listing users Read R) := by
  refine meets_withUid trivial hnone fun d uid hd hu => meets_ask.mpr ⟨trivial, fun snapshot ha => ?_⟩
  cases snapshot with
  | none => exact hnone
  | some documents =>
    refine ⟨fun _ hd => ⟨hd.signedIn, hd.saved⟩, ?_⟩
    dsimp only
    split
    · exact hk _ hR.unread
    · exact lists_fetchOrganisationsIn fun organisations =>
        hk _ (ha (hd.signedIn uid hu) documents rfl organisations)

theorem leavesLoads_listing (hR : RowRule Read R) :
    LeavesLoads (listing users Read R) (fun vc => vc.Ready Read R) Read where
  redirect := trivial
  getUser _ _ _ _ := trivial
  getFilters := trivial
  user _ _ hd := ⟨hd.signedIn, hd.saved⟩
  filters _ _ hd := ⟨hd.signedIn, hd.saved⟩
  start := trivial
  stop := trivial
  shown _ hvc := ofScreen_ready hR hvc nofun
  failed _ hvc := ofScreen_ready hR hvc nofun
  loaded _ _ hd hvc := ofScreen_ready hR (ready_loaded hR hvc hd.saved) nofun
  getOrganisationsByCause _ := trivial
  organisations vc _ documents d hvc ha := by
    refine ⟨hvc.tableData, hvc.donates, ?_⟩
    rintro _ ⟨⟩
    rw [map_id_addFiltersToOrganisations]
    exact ha documents rfl
  fetchDonates _ hnone hk := lists_fetchDonates hR hnone hk
  donates _ _ hvc hd := ⟨hvc.tableData, hd, hvc.organizations⟩

/-- Calls that neither list nor save anything. -/
theorem lists_calling (hp : p.Within calling) : p.Meets (listing users Read R) := by
  refine meets_of_within (F := calling) (fun r hr => ?_) (fun f hf d hd => ?_) (fun e he => ?_)
    (fun _ => trivial) hp
  · cases r <;> first | exact hr.elim | exact trivial
  · obtain ⟨hsaved, -, -, huser⟩ := hf d
    refine ⟨fun uid hu => ?_, fun saved hs => hd.saved saved (hsaved ▸ hs)⟩
    rcases huser with hsame | hnone
    · exact hd.signedIn uid (hsame ▸ hu)
    · cases hnone.symm.trans hu
  · cases e <;> first | exact he.elim | exact trivial

/-- A checkout keeps what is saved, or clears it. -/
theorem lists_press (vc : DonateConfirmation) :
    vc.completeCheckoutButtonPressed.Meets (listing users Read R) := by
  refine meets_of_within (F := checkingOut vc) (fun r hr => ?_) (fun f hf d hd => ?_) (fun e he => ?_)
    (fun _ => trivial) checkingOut_completeCheckoutButtonPressed
  · rcases hr with ⟨-, hr⟩ | rfl | ⟨-, uid, data, rfl⟩
    · exact hr
    · exact trivial
    · exact trivial
  · rcases hf with rfl | ⟨-, g, rfl⟩
    · exact ⟨hd.signedIn, nofun⟩
    · exact ⟨hd.signedIn, hd.saved⟩
  · cases e <;> first | exact he.elim | exact trivial

theorem lists_logout : Settings.logoutButtonPressed.Meets (listing users Read R) := by
  intro d _
  dsimp only
  split
  · exact ⟨fun _ _ => ⟨nofun, nofun⟩, trivial, trivial⟩
  · exact ⟨trivial, trivial⟩

end Programs

/-! ## One touch -/

section Everywhere

variable {users : String → Prop} {Read : List DonateItem → Prop} {R : List OrganisationWithAmount → Prop}
  {a b a' : App} {i : Interaction} {p : Prog} {w : World} {l : List Effect} {vc : MyBucket}

/-- Without a bucket in front nothing is to be shown about it. -/
theorem Everywhere.leave (h : Everywhere users R a) {page : Page} (hp : page.screen = none) :
    Everywhere users R { a with page } := by
  have hnone : ∀ below screen, page ≠ .bucket below screen := by
    intro below screen he
    rw [he] at hp
    cases hp
  exact ⟨h.device, h.activeDonates, fun below screen he => absurd he (hnone below screen),
    fun below screen he => absurd he (hnone below screen)⟩

theorem Everywhere.moved (h : Everywhere users R a) (hw : w.1.Lists users R) :
    Everywhere users R { a with world := w } :=
  ⟨hw, h.activeDonates, h.screen, h.below⟩

theorem everywhere_shown (hR : RowRule Read R) {o : Effect} (ho : o.Lists R) (h : Everywhere users R a) :
    Everywhere users R (a.shown o) := by
  have hshows : ∀ below screen vc, a.page = .bucket below screen → OfScreen R ⟨vc, .rows⟩ →
      Everywhere users R { a with page := .bucket below ⟨vc, .rows⟩ } := by
    intro below screen vc hp hvc
    refine ⟨h.device, h.activeDonates, ?_, ?_⟩
    · rintro _ _ ⟨⟩
      exact hvc
    · rintro _ _ ⟨⟩
      exact h.below below screen hp
  unfold App.shown
  split
  case h_1 =>
    have hgone : Everywhere users R { a with page := .auth } := h.leave rfl
    exact ⟨hgone.device, hR.nil, hgone.screen, hgone.below⟩
  case h_2 | h_3 | h_4 | h_5 | h_9 => exact h.leave rfl
  case h_6 => exact ⟨h.device, ho, h.screen, h.below⟩
  case h_7 vc below screen hp | h_8 vc below screen hp => exact hshows below screen vc hp ho
  case h_10 => exact h

theorem everywhere_sees (hR : RowRule Read R) (hs : a.Sees l a') (hl : ∀ o ∈ l, o.Lists R)
    (h : Everywhere users R a) : Everywhere users R a' :=
  hs.keeps (P := Everywhere users R) (fun _ o ho hb => everywhere_shown hR (hl o ho) hb)
    (fun _ ds hds hb => ⟨hb.device, hl (.showActiveDonates ds) hds, hb.screen, hb.below⟩) h

/-- The buckets that a touch opens have no rows yet. -/
theorem fresh_opens {below : Page} (hR : RowRule Read R) (ha : Everywhere users R a)
    (ho : App.Opens a i below vc b) : vc.Fresh Read R := by
  have hrecipient : ∀ (recipient : Recipient) mode, (recipient.bucket mode).Fresh Read R := by
    intro recipient mode
    cases recipient with
    | organisation o =>
      refine ⟨⟨hR.nil, hR.unread, ?_⟩, nofun⟩
      rintro _ ⟨⟩
      exact List.nodup_singleton _
    | cause c => exact ⟨⟨hR.nil, hR.unread, nofun⟩, nofun⟩
  cases ho with
  | @donate recipient donateType _ hp hs =>
    have hbelongs := belongs_donateStepOne recipient donateType a.userManager
    rw [hs] at hbelongs
    obtain rfl := hbelongs
    exact hrecipient recipient _
  | @reset recipient donateType _ hp hs =>
    have hbelongs := belongs_donateStepTwo recipient donateType a.userManager
    rw [hs] at hbelongs
    obtain rfl := hbelongs
    exact hrecipient recipient _
  | @adjusted recipient => exact hrecipient recipient true
  | @created recipient => exact hrecipient recipient false
  | completeDonation => exact ⟨⟨hR.nil, hR.unread, nofun⟩, nofun⟩
  | myImpacts =>
    refine ⟨⟨hR.nil, hR.unread, nofun⟩, ?_⟩
    rintro _ ⟨⟩
    exact ha.activeDonates

/-- Opening a bucket keeps the user, what is saved and what is stored. -/
theorem world_opens {below : Page} (ho : App.Opens a i below vc b) :
    b.world.2 = a.world.2 ∧ b.world.1.currentUser = a.world.1.currentUser ∧
      b.userManager.completeDonation = a.userManager.completeDonation ∧
      b.activeDonates = a.activeDonates ∧ below.screen = none := by
  cases ho with
  | adjusted hp | created hp =>
    refine ⟨rfl, rfl, rfl, rfl, ?_⟩
    rw [hp]
    rfl
  | donate | reset | completeDonation | myImpacts => exact ⟨rfl, rfl, rfl, rfl, rfl⟩

theorem everywhere_pushed {below : Page} (hR : RowRule Read R) (ha : Everywhere users R a)
    (ho : App.Opens a i below vc b) : Everywhere users R (b.pushed below vc).1 := by
  obtain ⟨-, huser, hsaved, hactive, hbelow⟩ := world_opens ho
  have hdevice : b.world.1.Lists users R :=
    ⟨fun uid hu => ha.device.signedIn uid (huser ▸ hu), fun saved hs => ha.device.saved saved (hsaved ▸ hs)⟩
  refine ⟨hdevice, ?_, ?_, ?_⟩
  · show R (b.activeDonates.map MyBucket.ofDonate)
    rw [hactive]
    exact ha.activeDonates
  · rintro _ _ ⟨⟩
    exact ofScreen_ready hR (ready_viewDidLoad (fresh_opens hR ha ho) hdevice.saved) (viewDidLoad_front _ _)
  · rintro _ _ ⟨⟩
    exact hbelow

theorem everywhere_event {e : BucketEvent} {below : Page} {screen screen' : BucketScreen} {u : UserManager}
    (hR : RowRule Read R) (ha : Everywhere users R a) (hp : a.page = .bucket below screen)
    (hl : screen.front ≠ .loading) (hs : BucketScreen.step e (a.userManager, screen) = some (u, screen')) :
    Everywhere users R { a.setDevice (a.world.1.setUserManager u) with page := App.stepped below e screen' } := by
  have hscreen := ha.screen below screen hp
  have hbelow := ha.below below screen hp
  have hsaved : ∀ saved, u.completeDonation = some saved → R saved.donatedOrganisations := by
    intro saved hu
    have hafter := step_completeDonation hs
    split at hafter
    · obtain rfl := Option.some.inj (hafter.symm.trans hu)
      exact hscreen.rows
    · exact ha.device.saved saved (hafter.symm.trans hu)
  have hmoved : Everywhere users R (a.setDevice (a.world.1.setUserManager u)) :=
    ha.moved (w := (a.world.1.setUserManager u, a.world.2)) ⟨ha.device.signedIn, hsaved⟩
  unfold App.stepped
  split
  · apply hmoved.leave
    split
    · rfl
    · exact hbelow
  · refine ⟨hmoved.device, hmoved.activeDonates, ?_, ?_⟩
    · rintro _ _ ⟨⟩
      exact ofScreen_step hR hscreen hl hs
    · rintro _ _ ⟨⟩
      exact hbelow

/-- What a touch does at once keeps `R`, and what it starts keeps to the contract. -/
theorem everywhere_press (hR : RowRule Read R) (ha : Everywhere users R a)
    (hpress : App.press i a = some (b, p)) : Everywhere users R b ∧ p.Meets (listing users Read R) := by
  cases App.press_cases hpress with
  | calls hi hpage =>
    have hcall : p.Meets (listing users Read R) := by
      by_cases hne : i = .loadActiveDonates
      · subst hne
        cases hi
        exact meets_loadActiveDonates (leavesLoads_listing hR) trivial fun _ hd => hR.read hd
      · exact lists_calling (calling_call hi hne)
    rcases hpage with rfl | ⟨-, authentication, rfl⟩
    · exact ⟨ha, hcall⟩
    · exact ⟨ha.leave rfl, hcall⟩
  | @leads _ page h =>
    refine ⟨ha.leave ?_, trivial⟩
    cases h with
    | presentRoot | cancelled | left | back => rfl
    | donate hp hs => exact page?_screen hs
    | reset hp hs => exact page?_screen hs
  | @adjusts _ donateAmount hp =>
    have hmoved : Everywhere users R (a.adjusted donateAmount) :=
      ha.moved ⟨ha.device.signedIn, ha.device.saved⟩
    exact ⟨hmoved.leave rfl, trivial⟩
  | opens h =>
    obtain ⟨-, huser, hsaved, -, -⟩ := world_opens h
    refine ⟨everywhere_pushed hR ha h, meets_viewDidLoad (leavesLoads_listing hR) fun d hd => ?_⟩
    exact ready_viewDidLoad (fresh_opens hR ha h) hd.saved
  | event hp hl hs => exact ⟨everywhere_event hR ha hp hl hs, trivial⟩
  | checkout hp => exact ⟨ha, lists_press _⟩
  | logout hp => exact ⟨ha, lists_logout⟩
  | signedOut => exact ⟨ha.moved ⟨nofun, ha.device.saved⟩, trivial⟩

theorem everywhere_launched (hR : RowRule Read R) (hl : a.Launched) (hu : a.world.1.SignedIn users) :
    Everywhere users R a := by
  have hpage : a.page.screen = none := by
    rw [hl.page]
    split <;> rfl
  have hnone : ∀ below screen, a.page ≠ .bucket below screen := by
    intro below screen he
    rw [he] at hpage
    cases hpage
  refine ⟨⟨hu, fun saved hs => ?_⟩, ?_, fun below screen he => absurd he (hnone below screen),
    fun below screen he => absurd he (hnone below screen)⟩
  · have hnone : a.world.1.userManager.completeDonation = none := hl.completeDonation
    cases hnone.symm.trans hs
  · rw [hl.activeDonates]
    exact hR.nil

end Everywhere

/-! ## Every move -/

section Busy

variable {users : String → Prop} {Read : List DonateItem → Prop} {R : List OrganisationWithAmount → Prop}
  {serve : World → (r : Request) → r.Response → World → Prop} {s s' : Busy} {e : Busy.Move × List Effect}
  {a : App}

theorem lists_idle (hR : RowRule Read R) (hl : a.Launched) (hu : a.world.1.SignedIn users) :
    a.idle.Lists users Read R := by
  have hnone : ∀ x, x ∉ a.idle.taken := fun x => List.not_mem_nil
  exact ⟨everywhere_launched hR hl hu, fun x hx => absurd hx (hnone x), fun x hx => absurd hx (hnone x),
    fun x hx => absurd hx (hnone x)⟩

/-- A touch keeps its place; what it is then, it is among all. -/
theorem lists_set {x : Taken} {j : ℕ} (h : s.Lists users Read R) (ha : Everywhere users R a)
    (horigin : Everywhere users R x.app) (hp : ∀ call ∈ x.pending, Call.Meets (listing users Read R) call)
    (ho : ∀ o ∈ x.out, o.Lists R) : Busy.Lists users Read R { app := a, taken := s.taken.set j x } := by
  have hset : ∀ y ∈ s.taken.set j x, y ∈ s.taken ∨ y = x := fun y hy => List.mem_or_eq_of_mem_set hy
  refine ⟨ha, fun y hy => ?_, fun y hy => ?_, fun y hy => ?_⟩
  · rcases hset y hy with hy | rfl
    · exact h.origin y hy
    · exact horigin
  · rcases hset y hy with hy | rfl
    · exact h.pending y hy
    · exact hp
  · rcases hset y hy with hy | rfl
    · exact h.out y hy
    · exact ho

/-- Whatever happens next, `R` still holds everywhere. -/
theorem lists_step (hR : RowRule Read R) (hserve : Admits users Read serve s.app.world)
    (h : s.Lists users Read R) (hs : Busy.Step serve s e s') : s'.Lists users Read R := by
  have hdefault : (listing users Read R).captures default := trivial
  cases hs with
  | @touch i b a p d hp hd hl =>
    obtain ⟨hb, hmeets⟩ := everywhere_press hR h.app hp
    have hturn := meets_exec (c := .fresh _ b.world) hdefault hmeets ⟨hb.device, nofun, nofun, nofun⟩
    rw [hd] at hturn
    have hlast : ∀ y ∈ s.taken ++ [⟨d.waiting, s.app, i⟩], y ∈ s.taken ∨ y = ⟨d.waiting, s.app, i⟩ :=
      fun y hy => (List.mem_append.mp hy).imp_right List.mem_singleton.mp
    refine ⟨everywhere_sees hR hl hturn.out (hb.moved hturn.state), fun y hy => ?_, fun y hy => ?_,
      fun y hy => ?_⟩
    · rcases hlast y hy with hy | rfl
      · exact h.origin y hy
      · exact h.app
    · rcases hlast y hy with hy | rfl
      · exact h.pending y hy
      · exact hturn.pending
    · rcases hlast y hy with hy | rfl
      · exact h.out y hy
      · exact hturn.out
  | @answer j x r callback pre post response w d l a hx hp hw hd ho hl =>
    have hmem := List.mem_of_getElem? hx
    have hcall := h.pending x hmem _ (mem_of_taken hp)
    have hdevice : w.1.Lists users R := by
      refine ⟨hserve.signedIn _ _ _ hw h.app.device.signedIn, fun saved hsaved => ?_⟩
      exact h.app.device.saved saved (hserve.userManager _ _ _ hw ▸ hsaved)
    have hturn := meets_exec (c := ⟨w, x.heap, pre ++ post, x.out⟩) hdefault
      (hcall.2 response (hserve.read _ _ _ hw))
      ⟨hdevice, fun _ _ => trivial, fun y hy => h.pending x hmem y (mem_of_mem_rest hp hy), h.out x hmem⟩
    rw [hd] at hturn
    have hshown : ∀ o ∈ l, o.Lists R := fun o hmem => hturn.out o (ho ▸ List.mem_append_right _ hmem)
    exact lists_set h (everywhere_sees hR hl hshown (h.app.moved hturn.state)) (h.origin x hmem) hturn.pending
      hturn.out
  | @lost j x r callback pre post response w hx hp hw =>
    have hmem := List.mem_of_getElem? hx
    have hdevice : w.1.Lists users R := by
      refine ⟨hserve.signedIn _ _ _ hw h.app.device.signedIn, fun saved hsaved => ?_⟩
      exact h.app.device.saved saved (hserve.userManager _ _ _ hw ▸ hsaved)
    exact lists_set (x := { x with pending := pre ++ post }) h (h.app.moved hdevice) (h.origin x hmem)
      (fun y hy => h.pending x hmem y (mem_of_mem_rest hp hy)) (h.out x hmem)

end Busy

end Pledge
