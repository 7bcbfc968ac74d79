import Pledge.Sessions

/-!
# Fresh sessions

While nobody is signed out from outside, a session ends only by a logout, and the next one starts
as after a launch.
-/

namespace Pledge

open EventLoop

/-- Whoever is signed in stays so and is sent nowhere. -/
def StaysSignedIn (w w' : World) (l : List Effect) : Prop :=
  w.1.currentUser ≠ none → w'.1.currentUser = w.1.currentUser ∧ .redirectToAuth ∉ l

/-- A page behind the sign-in. -/
def Page.SignedIn : Page → Prop
  | .auth | .authenticating _ => False
  | .bucket below _ => below.SignedIn
  | _ => True

namespace App

/-- Someone is signed in, on a page behind the sign-in. -/
structure InUse (a : App) : Prop where
  currentUser : a.world.1.currentUser ≠ none
  page : a.page.SignedIn

/-- Nobody is signed in, and nothing is left of a session. -/
structure Fresh (a : App) : Prop where
  launched : a.Launched
  currentUser : a.world.1.currentUser = none

/-- A logout that goes through. -/
def LogsOut (a : App) (i : Interaction) : Prop :=
  i = .logoutButtonPressed ∧ a.world.1.signOutError = none

end App

variable {w w₁ w' : World} {h : List Frame} {l l' : List Effect}

/-! ## Staying signed in -/

namespace StaysSignedIn

theorem of_eq (hu : w'.1.currentUser = w.1.currentUser) (hl : .redirectToAuth ∉ l) :
    StaysSignedIn w w' l :=
  fun _ => ⟨hu, hl⟩

theorem trans (h₁ : StaysSignedIn w w₁ l) (h₂ : StaysSignedIn w₁ w' l') : StaysSignedIn w w' (l ++ l') := by
  intro hne
  obtain ⟨hu, hl⟩ := h₁ hne
  obtain ⟨hu', hl'⟩ := h₂ (hu ▸ hne)
  exact ⟨hu'.trans hu, fun hm => (List.mem_append.mp hm).elim hl hl'⟩

theorem of_same (hw : w₁.1.currentUser = w.1.currentUser) (hs : StaysSignedIn w₁ w' l) :
    StaysSignedIn w w' l :=
  (of_eq hw List.not_mem_nil).trans hs

theorem cons {o : Effect} (ho : o ≠ .redirectToAuth) (hs : StaysSignedIn w w' l) :
    StaysSignedIn w w' (o :: l) :=
  have hfirst : StaysSignedIn w w [o] := of_eq rfl (by simpa using ho.symm)
  hfirst.trans hs

end StaysSignedIn

theorem staysSignedIn_withUid {otherwise : Prog} {body : String → Prog}
    (hb : ∀ uid, w.1.currentUser = some uid → (body uid).Yields Answers w h w' l → StaysSignedIn w w' l)
    (hy : (FirestoreManager.withUid otherwise body).Yields Answers w h w' l) : StaysSignedIn w w' l := by
  intro hne
  obtain ⟨uid, hu⟩ := Option.ne_none_iff_exists'.mp hne
  exact hb uid hu ((yields_withUid_signedIn hu).mp hy) hne

theorem staysSignedIn_fetchUpdateUser {k : Bool → Prog}
    (hk : ∀ b w h l, (k b).Yields Answers w h w' l → StaysSignedIn w w' l)
    (hy : (FirestoreManager.fetchUpdateUser k).Yields Answers w h w' l) : StaysSignedIn w w' l := by
  refine staysSignedIn_withUid (fun uid _ hy => ?_) hy
  obtain ⟨snapshot, w₁, ⟨rfl, -⟩, hend⟩ := yields_ask.mp hy
  split at hend
  · exact (hk _ _ _ _ (yields_modify.mp hend)).of_same rfl
  · exact hk _ _ _ _ hend

theorem staysSignedIn_updateDefaultDonateAmount {amount : Int} {k : Bool → Prog}
    (hk : ∀ b w h l, (k b).Yields Answers w h w' l → StaysSignedIn w w' l)
    (hy : (FirestoreManager.updateDefaultDonateAmount amount k).Yields Answers w h w' l) :
    StaysSignedIn w w' l := by
  intro hne
  obtain ⟨uid, hu⟩ := Option.ne_none_iff_exists'.mp hne
  by_cases he : w.1.userManager.user.map LendUser.defaultDonateAmount = some amount
  · exact hk _ _ _ _ ((yields_updateDefaultDonateAmount_of_eq hu he).mp hy) hne
  · rcases (yields_updateDefaultDonateAmount hu he).mp hy with hy | ⟨old, -, hy⟩
    · exact hk _ _ _ _ hy hne
    · exact (hk _ _ _ _ hy).of_same rfl hne

/-! ## Checkouts -/

namespace DonateConfirmation

variable {vc : DonateConfirmation} {success : Bool}

theorem staysSignedIn_completionBlock (hy : (vc.completionBlock success).Yields Answers w h w' l) :
    StaysSignedIn w w' l := by
  have hf := yields_completionBlock.mp hy
  exact .of_eq (finishes_device hf).2 (finishes_effects hf).2.2

theorem staysSignedIn_sendToUpdateDonatesHandler
    (hy : (vc.sendToUpdateDonatesHandler success).Yields Answers w h w' l) : StaysSignedIn w w' l := by
  rw [sendToUpdateDonatesHandler, yields_read] at hy
  split at hy
  · exact staysSignedIn_updateDefaultDonateAmount (fun _ _ _ _ => staysSignedIn_completionBlock) hy
  · exact staysSignedIn_completionBlock hy

theorem staysSignedIn_recording {α : Type} {xs : List α}
    {write? : String → α → Option (Branch Bool Request.Response)}
    (hrecords : ∀ uid x b, write? uid x = some b → b.1.Records)
    (hr : Recording Answers xs write? vc.sendToUpdateDonatesHandler w h w' l) : StaysSignedIn w w' l := by
  cases hr with
  | nothing _ hw =>
    obtain rfl := hw
    exact .of_eq rfl List.not_mem_nil
  | signedOut hu => exact fun hne => absurd hu hne
  | answered _ _ hperm hserve hk =>
    have hdevice := (servesAll_record (records_of_filterMap hrecords hperm) hserve).1
    exact (staysSignedIn_sendToUpdateDonatesHandler hk).of_same (by rw [hdevice])

theorem staysSignedIn_sendToUpdateDonates (hy : vc.sendToUpdateDonates.Yields Answers w h w' l) :
    StaysSignedIn w w' l := by
  obtain ⟨l', rfl, hr⟩ := sendToUpdateDonates_cases hy
  exact (staysSignedIn_recording (fun _ _ _ => write?_records) hr).cons nofun

theorem staysSignedIn_addOneTimePaymentToFirebase
    (hy : vc.addOneTimePaymentToFirebase.Yields Answers w h w' l) : StaysSignedIn w w' l := by
  obtain ⟨l', rfl, hr⟩ := addOneTimePaymentToFirebase_cases hy
  refine (staysSignedIn_recording (fun uid p b hb => ?_) hr).cons nofun
  cases hb
  exact trivial

theorem staysSignedIn_press (hp : vc.Presses w w' l) : StaysSignedIn w w' l := by
  rcases presses_iff.mp hp with ⟨-, hy⟩ | ⟨-, n, -, rfl, rfl⟩ | ⟨-, -, n, -, hy⟩
  · exact staysSignedIn_sendToUpdateDonates hy
  · exact .of_eq rfl List.not_mem_nil
  · have hcharged : StaysSignedIn (vc.charged n w) w' l := by
      rw [recording] at hy
      split at hy
      · exact staysSignedIn_addOneTimePaymentToFirebase hy
      · obtain ⟨w₁, l₁, l₂, htips, rfl, hk⟩ := addTips_cases hy
        have hadded : StaysSignedIn (vc.charged n w) w₁ l₁ := by
          cases htips with
          | skipped | rejected | written => exact .of_eq rfl List.not_mem_nil
          | signedOut _ hu => exact fun hne => absurd hu hne
        exact hadded.trans (staysSignedIn_sendToUpdateDonates hk)
    exact hcharged.of_same rfl

end DonateConfirmation

/-! ## Loads and calls -/

namespace MyBucket

variable {vc : MyBucket} {success : Bool}

theorem staysSignedIn_loadDataCompletionHandler
    (hy : (vc.loadDataCompletionHandler success).Yields Answers w h w' l) : StaysSignedIn w w' l := by
  obtain ⟨rfl, rfl⟩ := yields_loadDataCompletionHandler.mp hy
  refine .of_eq rfl ?_
  cases success <;> simp

theorem staysSignedIn_loadCauseOrganisations
    (hy : (vc.loadCauseOrganisations (vc.cause.map Cause.id) loadDataCompletionHandler).Yields
      Answers w h w' l) : StaysSignedIn w w' l := by
  rcases yields_loadCauseOrganisations hy with ⟨hsame, rfl⟩ | ⟨w₁, _, _, hsame, hk, -⟩
  · exact .of_eq hsame.currentUser List.not_mem_nil
  · exact (staysSignedIn_loadDataCompletionHandler hk).of_same hsame.currentUser

theorem staysSignedIn_fetchDonates {k : Option (List DonateItem) → Prog}
    (hk : ∀ r w h l, (k r).Yields Answers w h w' l → StaysSignedIn w w' l)
    (hy : (FirestoreManager.fetchDonates k).Yields Answers w h w' l) : StaysSignedIn w w' l := by
  intro hne
  obtain ⟨uid, hu⟩ := Option.ne_none_iff_exists'.mp hne
  obtain ⟨w₁, h₁, donates, hsame, hend, -⟩ := yields_fetchDonates hu hy
  exact (hk _ _ _ _ hend).of_same hsame.currentUser hne

theorem staysSignedIn_viewDidLoad (hy : vc.viewDidLoad.Yields Answers w h w' l) : StaysSignedIn w w' l := by
  rw [yields_viewDidLoad] at hy
  split at hy
  · obtain ⟨l', rfl, hload⟩ := yields_emit.mp hy
    refine StaysSignedIn.cons nofun ?_
    split at hload
    · exact staysSignedIn_loadCauseOrganisations hload
    · rw [loadDonates] at hload
      refine staysSignedIn_fetchDonates (fun donates w h l hk => ?_) hload
      cases donates with
      | none => exact staysSignedIn_loadDataCompletionHandler hk
      | some donates => exact staysSignedIn_loadCauseOrganisations hk
  · obtain ⟨rfl, rfl⟩ := hy
    exact .of_eq rfl (by simp)

end MyBucket

theorem staysSignedIn_chooseAmount {donateAmount : Int}
    (hy : (ChooseAmountStepOne.continueButtonPressed donateAmount).Yields Answers w h w' l) :
    StaysSignedIn w w' l := by
  obtain ⟨l', rfl, hwrite⟩ := yields_emit.mp hy
  refine (staysSignedIn_updateDefaultDonateAmount (fun success w h l hk => ?_) hwrite).cons nofun
  obtain ⟨l', rfl, hend⟩ := yields_emit.mp hk
  refine StaysSignedIn.cons nofun ?_
  cases success <;> obtain ⟨rfl, rfl⟩ := yields_emit_stop.mp hend <;> exact .of_eq rfl (by simp)

theorem staysSignedIn_loadActiveDonates (hy : MyImpacts.loadActiveDonates.Yields Answers w h w' l) :
    StaysSignedIn w w' l := by
  refine staysSignedIn_fetchUpdateUser (fun _ w h l hy => ?_) hy
  refine MyBucket.staysSignedIn_fetchDonates (fun lends w h l hk => ?_) hy
  cases lends <;> obtain ⟨rfl, rfl⟩ := yields_emit_stop.mp hk <;> exact .of_eq rfl (by simp)

/-- Writes to the record of a user, and what follows from them. -/
def updating : Footprint Device Effect Request where
  asks r := ∃ uid data, r = .updateUser uid data
  modifies f := ∀ d, (f d).currentUser = d.currentUser
  emits _ := False

theorem respects_updating : Respects updating Answers fun w w' => w'.1.currentUser = w.1.currentUser where
  refl _ := rfl
  trans _ _ _ h h' := h'.trans h
  modify w _ hf := hf w.1
  answer _ _ _ _ hr ha := by
    obtain ⟨uid, data, rfl⟩ := hr
    simp only [Answers] at ha
    rw [(written_frame ha).1]

/-- The default amount is written, and set at once. -/
theorem staysSignedIn_startDonate {donateAmount : Int}
    (hy : (StartDonate.continueButtonPressed donateAmount).Yields Answers w h w' l) : StaysSignedIn w w' l := by
  intro hne
  obtain ⟨uid, hu⟩ := Option.ne_none_iff_exists'.mp hne
  have hwrite := yields_read.mp hy
  dsimp only at hwrite
  rw [hu] at hwrite
  have hset : updating.modifies fun d =>
      d.updateUser fun user => { user with defaultDonateAmount := donateAmount } := fun _ => rfl
  refine (within_yields respects_updating ?_ hwrite).imp_right fun hl hm => hl _ hm
  refine within_andThen (fun d => ?_) ⟨hset, trivial⟩
  dsimp only
  split
  · refine within_ask.mpr ⟨⟨uid, _, rfl⟩, fun error => ?_⟩
    split
    · exact ⟨hset, trivial⟩
    · exact trivial
  · exact trivial

/-- What an authentication reports is whether someone is signed in after it. -/
theorem reported_authentication {authentication : Authentication} (hu : w.1.currentUser = none)
    (hy : authentication.call.Yields Answers w h w' l) :
    (l = [.reported true] ∧ w'.1.currentUser ≠ none) ∨
      (l = [.reported false] ∧ w'.1.currentUser = none ∧ w'.1.userManager = w.1.userManager) := by
  cases authentication with
  | signIn email password =>
    obtain ⟨error, w₁, ha, hend⟩ := yields_ask.mp (yields_modify.mp hy)
    cases error with
    | some e =>
      obtain rfl : w₁ = (Authentication.signedOut w.1, w.2) := ha
      obtain ⟨rfl, rfl⟩ := yields_emit_stop.mp hend
      refine .inr ⟨rfl, ?_, Authentication.signedOut_userManager w.1⟩
      unfold Authentication.signedOut
      split
      · rfl
      · exact hu
    | none =>
      obtain ⟨uid, -, rfl⟩ := ha
      obtain ⟨snapshot, w₂, ⟨rfl, -⟩, hend⟩ := yields_ask.mp (yields_read.mp hend)
      split at hend
      · obtain ⟨rfl, rfl⟩ := yields_emit_stop.mp (yields_modify.mp hend)
        exact .inl ⟨rfl, Option.some_ne_none uid⟩
      · obtain ⟨rfl, rfl⟩ := yields_emit_stop.mp hend
        exact .inl ⟨rfl, Option.some_ne_none uid⟩
  | signUp email password displayName =>
    obtain ⟨⟨user, error⟩, w₁, ha, hend⟩ := yields_ask.mp hy
    have hrejected : w₁ = w → l = [.reported false] ∧ w' = w₁ →
        l = [.reported false] ∧ w'.1.currentUser = none ∧ w'.1.userManager = w.1.userManager := by
      rintro rfl ⟨rfl, rfl⟩
      exact ⟨rfl, hu, rfl⟩
    cases error with
    | some e =>
      exact .inr (hrejected ha (yields_emit_stop.mp hend).symm)
    | none =>
      cases user with
      | none => exact .inr (hrejected ha (yields_emit_stop.mp hend).symm)
      | some uid =>
        obtain ⟨-, -, rfl⟩ := ha
        have hadded : ∀ w₂ : World, w₂.1.currentUser = some uid →
            (Program.modify (fun d : Device => d.setUserManager
              { d.userManager with user := some { email, displayName } })
              (FirestoreManager.addUser uid email displayName fun _ =>
                .emit (.reported true) .stop) : Prog).Yields Answers w₂ h w' l →
            l = [.reported true] ∧ w'.1.currentUser ≠ none := by
          intro w₂ huid hadd
          obtain ⟨_, w₃, ha, hend⟩ := yields_ask.mp (yields_modify.mp hadd)
          obtain ⟨rfl, rfl⟩ := yields_emit_stop.mp hend
          simp only [Answers] at ha
          rw [(written_frame ha).1]
          exact ⟨rfl, huid ▸ Option.some_ne_none uid⟩
        cases displayName with
        | none => exact .inl (hadded _ rfl hend)
        | some name =>
          obtain ⟨_, _, rfl, hend⟩ := yields_ask.mp (yields_read.mp hend)
          exact .inl (hadded _ rfl hend)

theorem staysSignedIn_call {i : Interaction} {p : Prog} (hi : i.call = some p)
    (hne : ∀ authentication, i ≠ .authenticate authentication) (hy : p.Yields Answers w h w' l) :
    StaysSignedIn w w' l := by
  cases i <;> cases hi
  · exact absurd rfl (hne _)
  · exact staysSignedIn_startDonate hy
  · refine staysSignedIn_fetchUpdateUser (fun _ w h l hk => ?_) hy
    obtain ⟨rfl, rfl⟩ := yields_stop.mp hk
    exact .of_eq rfl List.not_mem_nil
  · exact staysSignedIn_loadActiveDonates hy
  · exact staysSignedIn_chooseAmount hy

/-! ## Runs of the app -/

namespace App

variable {a₀ a b a' : App} {i : Interaction} {p : Prog}

theorem signedIn_shown {o : Effect} (ho : o ≠ .redirectToAuth) (hp : a.page.SignedIn) :
    (a.shown o).page.SignedIn := by
  unfold shown
  split <;> simp_all [Page.SignedIn]

/-- A program that keeps the user keeps the app in use. -/
theorem inUse_foldl_shown (hb : b.InUse) (hs : StaysSignedIn b.world w' l) :
    .redirectToAuth ∉ l ∧ (l.foldl shown { b with world := w' }).InUse := by
  obtain ⟨hu, hl⟩ := hs hb.currentUser
  refine ⟨hl, ⟨?_, ?_⟩⟩
  · rw [foldl_shown_world]
    exact hu ▸ hb.currentUser
  · refine foldl_shown (P := fun a => a.page.SignedIn) (fun a o ho hp => ?_) hb.page
    exact signedIn_shown (fun he => hl (he ▸ ho)) hp

theorem page_of_authenticate {authentication : Authentication}
    (hpress : press (.authenticate authentication) a = some (b, p)) :
    a.page = .auth ∧ b = { a with page := .authenticating authentication } ∧ p = authentication.call := by
  unfold press at hpress
  split at hpress
  case h_1 heq hp =>
    cases heq
    cases hpress
    exact ⟨hp, rfl, rfl⟩
  all_goals simp_all

theorem signedIn_page? {recipient : Recipient} {step : DonateStep} {page : Page}
    (hs : step.page? recipient = some page) : page.SignedIn := by
  cases step <;> cases hs <;> exact trivial

theorem signedIn_leads {page : Page} (h : Leads a i page) : page.SignedIn := by
  cases h with
  | presentRoot | cancelled | left | back => exact trivial
  | donate _ hs | reset _ hs => exact signedIn_page? hs

/-- In use, the app stays in use but for a logout, and only a logout redirects. -/
theorem inUse_step (ha : a.InUse) (hs : App.Step (fun _ => Answers) a (i, l) a') (hi : i ≠ .signedOut) :
    (a'.InUse ∨ a'.Fresh) ∧ (.redirectToAuth ∈ l ↔ a.LogsOut i) := by
  obtain ⟨b, p, w', hpress, hy, rfl⟩ := hs
  dsimp only at hpress hy
  have hkept : b.InUse → StaysSignedIn b.world w' l → i ≠ .logoutButtonPressed →
      ((l.foldl shown { b with world := w' }).InUse ∨ (l.foldl shown { b with world := w' }).Fresh) ∧
        (.redirectToAuth ∈ l ↔ a.LogsOut i) := by
    intro hb hstays hne
    obtain ⟨hl, hb'⟩ := inUse_foldl_shown hb hstays
    exact ⟨.inl hb', iff_of_false hl fun hout => hne hout.1⟩
  have hstop : p = .stop → StaysSignedIn b.world w' l := by
    rintro rfl
    obtain ⟨rfl, rfl⟩ := yields_stop.mp hy
    exact .of_eq rfl List.not_mem_nil
  cases App.press_cases hpress with
  | @calls _ page _ hcall hp =>
    have hne : ∀ authentication, i ≠ .authenticate authentication := by
      rintro authentication rfl
      have hauth := (page_of_authenticate hpress).1
      exact absurd ha.page (by rw [hauth]; exact id)
    have hpage : page = a.page := hp.resolve_right fun hauth => absurd ha.page (by rw [hauth.1]; exact id)
    subst hpage
    refine hkept ⟨ha.currentUser, ha.page⟩ (staysSignedIn_call hcall hne hy) ?_
    rintro rfl
    cases hcall
  | leads hleads =>
    refine hkept ⟨ha.currentUser, signedIn_leads hleads⟩ (hstop rfl) ?_
    rintro rfl
    cases hleads
  | adjusts => exact hkept ⟨ha.currentUser, trivial⟩ (hstop rfl) nofun
  | @opens _ below vc b hopens =>
    have hu : b.world.1.currentUser = a.world.1.currentUser := by cases hopens <;> rfl
    have hbelow : below.SignedIn := by
      cases hopens with
      | adjusted | created => exact ha.page
      | donate | reset | completeDonation | myImpacts => exact trivial
    refine hkept ⟨hu ▸ ha.currentUser, hbelow⟩ (MyBucket.staysSignedIn_viewDidLoad hy) ?_
    rintro rfl
    cases hopens
  | @event e below screen screen' u hp =>
    have hbelow : below.SignedIn := by
      have hsigned := ha.page
      rwa [hp] at hsigned
    refine hkept ⟨ha.currentUser, ?_⟩ (hstop rfl) nofun
    show (stepped below e screen').SignedIn
    unfold stepped
    split
    · split
      · exact trivial
      · exact hbelow
    · exact hbelow
  | checkout => exact hkept ha (DonateConfirmation.staysSignedIn_press hy) nofun
  | logout =>
    rcases Settings.yields_logoutButtonPressed.mp hy with ⟨hout, rfl, rfl⟩ | ⟨hout, rfl, rfl⟩
    · exact ⟨.inr ⟨⟨rfl, rfl, rfl, rfl, rfl⟩, rfl⟩, iff_of_true List.mem_cons_self ⟨rfl, hout⟩⟩
    · exact ⟨.inl (inUse_foldl_shown ha (.of_eq rfl (by simp))).2, iff_of_false (by simp) fun h => hout h.2⟩
  | signedOut => exact absurd rfl hi

/-- Fresh, the app takes a sign-in or a sign-up, and stays fresh where it is refused. -/
theorem fresh_step (ha : a.Fresh) (hs : App.Step (fun _ => Answers) a (i, l) a') (hi : i ≠ .signedOut) :
    (a'.InUse ∨ a'.Fresh) ∧ (.redirectToAuth ∈ l ↔ a.LogsOut i) := by
  obtain ⟨b, p, w', hpress, hy, rfl⟩ := hs
  dsimp only at hpress hy
  have hpage : a.page = .auth := by rw [ha.launched.page, ha.currentUser]; rfl
  obtain ⟨authentication, rfl⟩ : ∃ authentication, i = .authenticate authentication := by
    cases i <;> simp_all [press]
  obtain ⟨-, rfl, rfl⟩ := page_of_authenticate hpress
  rcases reported_authentication ha.currentUser hy with ⟨rfl, hu⟩ | ⟨rfl, hu, hsame⟩
  · refine ⟨.inl ⟨?_, ?_⟩, iff_of_false (by simp) fun h => nomatch h.1⟩
    · rw [foldl_shown_world]
      exact hu
    · cases authentication <;> exact trivial
  · have hrefused : [Effect.reported false].foldl shown
        { world := w', page := .authenticating authentication, activeDonates := a.activeDonates } =
        { world := w', page := .auth, activeDonates := a.activeDonates } := by
      cases authentication <;> rfl
    refine ⟨.inr ?_, iff_of_false (by simp) fun h => nomatch h.1⟩
    rw [hrefused]
    exact {
      launched := {
        user := (congrArg UserManager.user hsame).trans ha.launched.user
        completeDonation := (congrArg UserManager.completeDonation hsame).trans ha.launched.completeDonation
        tmpDonateAmount := (congrArg UserManager.tmpDonateAmount hsame).trans ha.launched.tmpDonateAmount
        activeDonates := ha.launched.activeDonates
        page := by rw [hu]; rfl }
      currentUser := hu }

theorem inUse_or_fresh_of_launched (hl : a.Launched) : a.InUse ∨ a.Fresh := by
  cases hu : a.world.1.currentUser with
  | none => exact .inr ⟨hl, hu⟩
  | some uid =>
    have hpage := hl.page
    rw [hu] at hpage
    exact .inl ⟨hu ▸ Option.some_ne_none uid, by rw [hpage]; exact trivial⟩

/-- Being on the sign-in page is being launched anew. -/
theorem fresh_iff_auth (h : a.InUse ∨ a.Fresh) :
    (a.page = .auth ↔ a.world.1.currentUser = none) ∧ (a.page = .auth → a.Launched) := by
  rcases h with h | h
  · have hne : a.page ≠ .auth := fun hp => by
      have hsigned := h.page
      rw [hp] at hsigned
      exact hsigned
    exact ⟨iff_of_false hne h.currentUser, fun hp => absurd hp hne⟩
  · have hpage : a.page = .auth := by rw [h.launched.page, h.currentUser]; rfl
    exact ⟨iff_of_true hpage h.currentUser, fun _ => h.launched⟩

end App

/-- In every run without a sign-out from outside, each touch answered before the next, the sign-in page
is in front exactly while nobody is signed in, and the app is then as after a launch; what leads there
is a logout that goes through, and nothing else redirects. -/
theorem launched_of_history {a₀ a : App} (hl : a₀.Launched)
    (h : History (App.Step fun _ => Answers) (fun _ e => e.1 ≠ .signedOut) a₀ a) :
    (a.page = .auth ↔ a.world.1.currentUser = none) ∧ (a.page = .auth → a.Launched) ∧
      ∀ i l a', App.Step (fun _ => Answers) a (i, l) a' → i ≠ .signedOut →
        (.redirectToAuth ∈ l ↔ a.LogsOut i) := by
  have hstep : ∀ a i l a', a.InUse ∨ a.Fresh → i ≠ .signedOut → App.Step (fun _ => Answers) a (i, l) a' →
      (a'.InUse ∨ a'.Fresh) ∧ (.redirectToAuth ∈ l ↔ a.LogsOut i) := fun _ _ _ _ ha hi hs =>
    ha.elim (App.inUse_step · hs hi) (App.fresh_step · hs hi)
  have ha : a.InUse ∨ a.Fresh := h.invariant (I := fun a => a.InUse ∨ a.Fresh)
    (fun a e a' ha hi hs => (hstep a e.1 e.2 a' ha hi hs).1) (App.inUse_or_fresh_of_launched hl)
  obtain ⟨hauth, hlaunched⟩ := App.fresh_iff_auth ha
  exact ⟨hauth, hlaunched, fun i l a' hs hi => (hstep a i l a' ha hi hs).2⟩

/-- Ann sets her one-time amount and logs out. -/
theorem launched_of_history_ann : ∃ a,
    History (App.Step fun _ => Answers) (fun _ e => e.1 ≠ .signedOut) annApp a ∧ a.page = .auth ∧
      a.userManager.oneTimeDonateAmout = 10 ∧ a.Launched := by
  have hdonate : History (App.Step fun _ => Answers) (fun _ e => e.1 ≠ .signedOut) annApp
      { annApp with page := .adjustOneTimePaymentAmount (.cause { id := "hunger" }) } :=
    .tail (e := (.donate (.cause { id := "hunger" }) .once, [])) .refl nofun
      ⟨_, _, _, rfl, ⟨_, .refl, rfl⟩, rfl⟩
  have hback := History.tail (e := (.adjustBackPressed 10, [])) hdonate nofun
    ⟨_, _, _, rfl, ⟨_, .refl, rfl⟩, rfl⟩
  have hout := History.tail (e := (.logoutButtonPressed, [.redirectToAuth])) hback nofun
    ⟨_, _, _, rfl, Settings.yields_logoutButtonPressed.mpr (.inl ⟨rfl, rfl, rfl⟩), rfl⟩
  exact ⟨_, hout, rfl, rfl, (launched_of_history launched_annApp hout).2.1 rfl⟩

end Pledge
