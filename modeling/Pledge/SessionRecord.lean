import Pledge.EventLoop.Turns
import Pledge.Overlapping

/-!
# The session record

What the touches and the answers do to `UserManager`: to what is saved for a checkout, to the record
of the user, and to the one-time amount.
-/

namespace Pledge

open EventLoop

/-- Neither a bucket nor an amount is saved. -/
structure UserManager.Cleared (u : UserManager) : Prop where
  completeDonation : u.completeDonation = none
  tmpDonateAmount : u.tmpDonateAmount = none

/-- Requests whose answers may sign somebody in, or change the record of the user. -/
def Request.Identifies : Request → Prop
  | .signIn .. | .createUser .. | .commitChanges _ | .getUser _ | .updateUser .. => True
  | _ => False

/-- Answers that may set a record where there is none: one that decodes, and those to a sign-up. -/
def Request.setsUser : (r : Request) → r.Response → Bool
  | .getUser _, snapshot => (LendUser.init? snapshot).isSome
  | .createUser .., result => result.error.isNone && result.user.isSome
  | .commitChanges _, _ => true
  | _, _ => false

/-- What a turn begun by the answer `t` leaves of the session record. -/
structure Leaves (t : Option ((r : Request) × r.Response)) (d d' : Device) : Prop where
  oneTime : d'.userManager.storedOneTimeDonateAmout = d.userManager.storedOneTimeDonateAmout
  cleared : d.userManager.Cleared → d'.userManager.Cleared
  user : (∀ e, t = some e → e.1.setsUser e.2 = false) → d.userManager.user = none → d'.userManager.user = none
  identity : ∀ e, t = some e → ¬ e.1.Identifies →
    d'.userManager.user = d.userManager.user ∧ d'.currentUser = d.currentUser

/-- A success screen says that what was saved is gone. -/
def leaving : Discipline Device Effect Request.Response where
  changes t f := ∀ d, Leaves t d (f d)
  known d := d.userManager.Cleared
  tells := Effect.ShowsResult

variable {t : Option ((r : Request) × r.Response)} {z : Prop} {d d' d'' : Device} {P : MyBucket → Prop}

theorem Leaves.of_eq (hu : d'.userManager = d.userManager) (hc : d'.currentUser = d.currentUser) :
    Leaves t d d' := by
  refine ⟨?_, ?_, ?_, ?_⟩ <;> rw [hu]
  · exact id
  · exact fun _ => id
  · exact fun _ _ _ => ⟨rfl, hc⟩

theorem Leaves.trans (h : Leaves t d d') (h' : Leaves t d' d'') : Leaves t d d'' where
  oneTime := h'.oneTime.trans h.oneTime
  cleared hd := h'.cleared (h.cleared hd)
  user ht hd := h'.user ht (h.user ht hd)
  identity e he hr := ⟨(h'.identity e he hr).1.trans (h.identity e he hr).1,
    (h'.identity e he hr).2.trans (h.identity e he hr).2⟩

theorem respected_leaving : leaving.Respected Leaves where
  refl _ _ := .of_eq rfl rfl
  trans _ _ _ _ := Leaves.trans
  changes _ _ hf := hf
  known _ _ _ h := h.cleared

/-- No answer but that of a sign-in or a sign-up changes who is signed in. -/
theorem leaves_answers {Kept : Server → Server → Prop} {w w' : World} {r : Request} {a : r.Response}
    (h : AnswersOrKept Kept w r a w') : Leaves (some ⟨r, a⟩) w.1 w'.1 := by
  have hu := userManager_kept h
  refine ⟨by rw [hu], by rw [hu]; exact id, by rw [hu]; exact fun _ => id, ?_⟩
  rintro _ ⟨rfl⟩ hr
  refine ⟨by rw [hu], ?_⟩
  rcases h with h | ⟨-, rfl, -⟩
  · cases r with
    | signIn | createUser | commitChanges | getUser | updateUser => exact absurd trivial hr
    | sendPasswordReset | getDonatesForOrganisation =>
      obtain rfl := h
      rfl
    | getFilters | getOrganisationsByCause | getOrganisations | getOrganisationsIn | getCauses |
        getPaymentHistory | getDonates =>
      obtain ⟨rfl, -⟩ := h
      rfl
    | setUser | addPayment | addDonate | setDonate | deleteDonate =>
      simp only [Answers] at h
      rw [(written_frame h).1]
    | pay =>
      obtain ⟨n, -, -, rfl⟩ := h
      rfl
  · rfl

/-! ## Programs -/

theorem leaves_setUser {e : (r : Request) × r.Response} (hset : e.1.setsUser e.2 = true)
    (hid : e.1.Identifies) (user : LendUser) :
    leaving.changes (some e) fun d => d.setUserManager { d.userManager with user := some user } := by
  refine fun d => ⟨rfl, fun h => ⟨h.1, h.2⟩, fun hno => ?_, ?_⟩
  · rw [hno e rfl] at hset
    cases hset
  · rintro _ ⟨rfl⟩ hr
    exact absurd hid hr

theorem leaves_updateUser (ht : ∀ e, t = some e → e.1.Identifies) (f : LendUser → LendUser) :
    leaving.changes t fun d => d.updateUser f := by
  refine fun d => ⟨rfl, fun h => ⟨h.1, h.2⟩, fun _ hnone => ?_, fun e he hr => absurd (ht e he) hr⟩
  show d.userManager.user.map f = none
  rw [hnone, Option.map_none]

/-- What a touch itself does may sign the user out. -/
theorem leaves_signedOut : leaving.changes none fun d =>
    if d.signOutError.isNone then { d with currentUser := none } else d := by
  intro d
  dsimp only
  split
  · exact ⟨rfl, id, fun _ => id, nofun⟩
  · exact .of_eq rfl rfl

theorem obeys_loading {p : Prog} (hp : p.Within (loading P)) : p.Obeys leaving t z := by
  refine obeys_of_within (F := loading P) (fun f hf _ d => .of_eq (hf d).1 (hf d).2) (fun o ho ht => ?_) hp
  cases o <;> first | exact ho | exact ht

section Programs

variable {k : Bool → Prog} {vc : DonateConfirmation}

theorem obeys_withUid {otherwise : Prog} {body : String → Prog} (ho : otherwise.Obeys leaving t z)
    (hb : ∀ uid, (body uid).Obeys leaving t z) :
    (FirestoreManager.withUid otherwise body).Obeys leaving t z := by
  intro d
  dsimp only
  split
  · exact ⟨False.elim, ho⟩
  · exact hb _

theorem obeys_fetchUpdateUser (hk : ∀ t b, (k b).Obeys leaving t False) :
    (FirestoreManager.fetchUpdateUser k).Obeys leaving t z := by
  refine obeys_withUid ((hk _ _).mono False.elim) fun uid => obeys_ask fun snapshot => ?_
  split
  · rename_i user hinit
    refine ⟨leaves_setUser (e := ⟨.getUser uid, snapshot⟩) ?_ trivial user, (hk _ _).mono False.elim⟩
    exact (congrArg Option.isSome hinit).trans rfl
  · exact hk _ _

theorem obeys_updateDefaultDonateAmount {amount : Int} (hk : ∀ t b, (k b).Obeys leaving t False) :
    (FirestoreManager.updateDefaultDonateAmount amount k).Obeys leaving t z := by
  refine obeys_withUid ((hk _ _).mono False.elim) fun uid d => ?_
  dsimp only
  split
  · refine obeys_ask fun error => ?_
    split
    · refine ⟨leaves_updateUser ?_ _, (hk _ _).mono False.elim⟩
      rintro _ ⟨rfl⟩
      exact trivial
    · exact hk _ _
  · exact (hk _ _).mono False.elim

theorem obeys_authentication (authentication : Authentication) : authentication.call.Obeys leaving none z := by
  cases authentication with
  | signIn email password =>
    refine ⟨leaves_signedOut, obeys_ask fun error => ?_⟩
    cases error with
    | some e => exact ⟨False.elim, trivial⟩
    | none => exact obeys_fetchUpdateUser fun _ _ => ⟨False.elim, trivial⟩
  | signUp email password displayName =>
    have hadd : ∀ (e : (r : Request) × r.Response) uid, e.1.setsUser e.2 = true → e.1.Identifies →
        (Program.modify (fun d : Device => d.setUserManager
            { d.userManager with user := some { email, displayName } })
          (FirestoreManager.addUser uid email displayName fun _ =>
            .emit (.reported true) .stop) : Prog).Obeys leaving (some e) False :=
      fun e uid hset hid => ⟨leaves_setUser hset hid _, obeys_ask fun _ => ⟨False.elim, trivial⟩⟩
    refine obeys_ask fun ⟨user, error⟩ => ?_
    cases error with
    | some e => exact ⟨False.elim, trivial⟩
    | none =>
      cases user with
      | none => exact ⟨False.elim, trivial⟩
      | some uid =>
        cases displayName with
        | none => exact hadd _ uid rfl trivial
        | some name =>
          intro d
          dsimp only
          split
          · exact obeys_ask fun _ => hadd _ uid rfl trivial
          · exact trivial

theorem obeys_call {i : Interaction} {p : Prog} (hi : i.call = some p) : p.Obeys leaving none z := by
  cases i <;> cases hi
  · exact obeys_authentication _
  · refine obeys_andThen (obeys_updateDefaultDonateAmount (k := fun _ => .stop) fun _ _ => trivial) ?_
    exact ⟨leaves_updateUser (fun _ he => by cases he) _, trivial⟩
  · exact obeys_fetchUpdateUser fun _ _ => trivial
  · refine obeys_fetchUpdateUser fun _ _ => obeys_loading (P := fun _ => True) ?_
    exact loading_fetchDonates fun lends => by cases lends <;> exact ⟨trivial, trivial⟩
  · refine ⟨False.elim, obeys_updateDefaultDonateAmount fun _ success => ?_⟩
    cases success <;> exact ⟨False.elim, False.elim, trivial⟩

theorem obeys_logout : Settings.logoutButtonPressed.Obeys leaving none z := by
  intro d
  dsimp only
  split
  · exact ⟨fun d => ⟨rfl, fun _ => ⟨rfl, rfl⟩, fun _ _ => rfl, nofun⟩, False.elim, trivial⟩
  · exact ⟨False.elim, trivial⟩

/-! ### Checkouts -/

/-- The success screen comes after `completeDonation` and `tmpDonateAmount` have been reset. -/
theorem obeys_completionBlock (success : Bool) : (vc.completionBlock success).Obeys leaving t False := by
  have hreset : ∀ d : Device, Leaves t d (d.setUserManager
      { d.userManager with completeDonation := none, tmpDonateAmount := none }) :=
    fun d => ⟨rfl, fun _ => ⟨rfl, rfl⟩, fun _ => id, fun _ _ _ => ⟨rfl, rfl⟩⟩
  cases success
  · exact ⟨False.elim, False.elim, trivial⟩
  · exact ⟨False.elim, hreset, fun _ => .inr fun _ => ⟨rfl, rfl⟩, trivial⟩

theorem obeys_handler (success : Bool) : (vc.sendToUpdateDonatesHandler success).Obeys leaving t False := by
  intro d
  dsimp only
  split
  · exact obeys_updateDefaultDonateAmount (k := fun _ => vc.completionBlock success)
      fun _ _ => obeys_completionBlock success
  · exact obeys_completionBlock success

theorem obeys_counted {max x : ℕ} (b : Bool) : (vc.counted max x b).Obeys leaving t False :=
  obeys_join (fun _ => obeys_handler _) b

theorem obeys_updateDonate {item : OrganisationWithAmount} (hk : ∀ t b, (k b).Obeys leaving t False) :
    (DonateConfirmation.updateDonate item k).Obeys leaving t False := by
  unfold DonateConfirmation.updateDonate
  split <;> split
  · exact obeys_withUid (hk _ _) fun _ => obeys_ask fun _ => hk _ _
  · exact obeys_withUid (hk _ _) fun _ => obeys_ask fun _ => hk _ _
  · exact obeys_withUid (hk _ _) fun _ => obeys_ask fun _ => hk _ _
  · exact hk _ _

theorem obeys_sendToUpdateDonates : vc.sendToUpdateDonates.Obeys leaving t False :=
  ⟨False.elim, fun _ => obeys_forEach fun _ _ => obeys_updateDonate fun _ => obeys_counted⟩

theorem obeys_addOneTimePaymentToFirebase : vc.addOneTimePaymentToFirebase.Obeys leaving t False := by
  rw [DonateConfirmation.addOneTimePaymentToFirebase_eq]
  refine ⟨False.elim, fun d x => obeys_forEach fun p _ => ?_⟩
  exact obeys_withUid (obeys_counted _) fun _ => obeys_ask fun _ => obeys_counted _

theorem obeys_addTips {completion : Prog} (hk : ∀ t, completion.Obeys leaving t False) :
    (vc.addTips completion).Obeys leaving t False := by
  unfold DonateConfirmation.addTips
  split
  · refine obeys_withUid (hk _) fun _ => obeys_ask fun error => ?_
    split
    · refine ⟨leaves_updateUser ?_ _, (hk _).mono False.elim⟩
      rintro _ ⟨rfl⟩
      exact trivial
    · exact hk _
  · exact hk _

theorem obeys_completeCheckoutButtonPressed : vc.completeCheckoutButtonPressed.Obeys leaving t False := by
  intro d
  dsimp only
  split
  · refine obeys_ask fun result => ?_
    cases result with
    | failure => exact trivial
    | success token =>
      dsimp only
      split
      · exact obeys_addOneTimePaymentToFirebase
      · exact obeys_addTips fun _ => obeys_sendToUpdateDonates
  · exact obeys_sendToUpdateDonates

end Programs

/-- Whatever a touch starts. -/
theorem obeys_press {a b : App} {i : Interaction} {p : Prog} (hpress : App.press i a = some (b, p)) :
    p.Obeys leaving none False := by
  cases App.press_cases hpress with
  | calls hi => exact obeys_call hi
  | opens => exact obeys_loading (loading_viewDidLoad _)
  | checkout => exact obeys_completeCheckoutButtonPressed
  | logout => exact obeys_logout
  | leads | adjusts | event | signedOut => exact trivial

/-! ## Touches -/

/-- `completeButtonPressed` and `keepBrowsingButtonPressed`. -/
def Interaction.saves : Interaction → Bool
  | .bucket .completeButtonPressed | .bucket .keepBrowsingButtonPressed => true
  | _ => false

/-- The one-time amount that a touch chooses. -/
def App.chosen (a : App) (i : Interaction) : Option Int :=
  match i, a.page with
  | .adjustContinuePressed donateAmount, _ | .adjustBackPressed donateAmount, _ => some donateAmount
  | .bucket .adjustContinuePressed, .bucket _ ⟨_, .adjust vc⟩ =>
    if vc.isOneTimePaymentMode then some ⌊vc.slider⌋ else none
  | _, _ => none

/-- Before its program runs, a touch has done no more to the session record than to save the bucket
or to choose an amount. -/
structure App.Touched (a : App) (i : Interaction) (b : App) : Prop where
  user : b.userManager.user = a.userManager.user
  cleared : i.saves = false → a.userManager.Cleared → b.userManager.Cleared
  oneTime : b.userManager.storedOneTimeDonateAmout =
    (a.chosen i).or a.userManager.storedOneTimeDonateAmout

section Touches

variable {a b : App} {i : Interaction} {p : Prog}

theorem touched_of_eq (hu : b.userManager = a.userManager) (hc : a.chosen i = none) : a.Touched i b := by
  refine ⟨?_, fun _ => ?_, ?_⟩ <;> rw [hu]
  · exact id
  · rw [hc, Option.none_or]

theorem touched_adjusted {donateAmount : Int} (hu : b.userManager = (a.adjusted donateAmount).userManager)
    (hc : a.chosen i = some donateAmount) : a.Touched i b := by
  refine ⟨?_, fun _ h => ?_, ?_⟩ <;> rw [hu]
  · rfl
  · exact ⟨h.1, h.2⟩
  · rw [hc]
    rfl

/-- Continue of the slider screen keeps the amount of a one-time bucket. -/
theorem touched_adjustContinue {below : Page} {screen screen' : BucketScreen} {u : UserManager}
    (hp : a.page = .bucket below screen)
    (hs : BucketScreen.step .adjustContinuePressed (a.userManager, screen) = some (u, screen'))
    (hu : b.userManager = u) : a.Touched (.bucket .adjustContinuePressed) b := by
  obtain ⟨bucket, front⟩ := screen
  cases front with
  | adjust vc =>
    obtain ⟨hadjust, -⟩ := Prod.mk.inj (Option.some.inj hs)
    have hchosen : a.chosen (.bucket .adjustContinuePressed) =
        if vc.isOneTimePaymentMode then some ⌊vc.slider⌋ else none := by
      unfold App.chosen
      rw [hp]
    rw [AdjustDonateAmount.continueButtonPressed] at hadjust
    split at hadjust
    · rename_i hmode
      exact touched_adjusted (hu.trans hadjust.symm) (by rw [hchosen, if_pos hmode])
    · rename_i hmode
      exact touched_of_eq (hu.trans hadjust.symm) (by rw [hchosen, if_neg hmode])
  | loading | rows | tipsPopup | confirmation | left => cases hs

theorem touched_event {e : BucketEvent} {below : Page} {screen screen' : BucketScreen} {u : UserManager}
    (hp : a.page = .bucket below screen) (hs : BucketScreen.step e (a.userManager, screen) = some (u, screen'))
    (hu : b.userManager = u) : a.Touched (.bucket e) b := by
  by_cases hcontinue : e = .adjustContinuePressed
  · subst hcontinue
    exact touched_adjustContinue hp hs hu
  · have hchosen : a.chosen (.bucket e) = none := by
      cases e <;> first | rfl | exact absurd rfl hcontinue
    rcases BucketScreen.step_userManager hs with ⟨he, hsave⟩ | ⟨he, -⟩ | ⟨-, -, hsame⟩
    · have hsaves : Interaction.saves (.bucket e) = true := by rcases he with rfl | rfl <;> rfl
      refine ⟨?_, fun hno => absurd (hsaves.symm.trans hno) nofun, ?_⟩
      · rw [hu, hsave, MyBucket.save]
        split <;> rfl
      · rw [hchosen, hu, hsave, MyBucket.save]
        split <;> rfl
    · exact absurd he hcontinue
    · exact touched_of_eq (hu.trans hsame) hchosen

theorem touched_press (hpress : App.press i a = some (b, p)) : a.Touched i b := by
  cases App.press_cases hpress with
  | calls hi =>
    refine touched_of_eq rfl ?_
    cases i <;> first | rfl | cases hi
  | leads h =>
    refine touched_of_eq rfl ?_
    cases h <;> rfl
  | adjusts => exact touched_adjusted rfl rfl
  | opens h =>
    cases h with
    | adjusted => exact touched_adjusted rfl rfl
    | donate | reset | created | completeDonation | myImpacts => exact touched_of_eq rfl rfl
  | event hp _ hs => exact touched_event hp hs rfl
  | checkout | logout | signedOut => exact touched_of_eq rfl rfl

end Touches

/-! ## Moves -/

/-- What is in flight obeys, whatever it is answered and when. -/
def Busy.Obeys (s : Busy) : Prop := ∀ x ∈ s.taken, ∀ call ∈ x.pending, Call.Obeys leaving call

section Moves

variable {serve : World → (r : Request) → r.Response → World → Prop} {Kept : Server → Server → Prop}
  {s s' : Busy} {i : Interaction} {j : ℕ} {r : Request} {response : r.Response} {l : List Effect}
  {e : Busy.Move × List Effect} {p : Prog} {c c' : Loop}

theorem leaves_turn (hp : p.Obeys leaving t False) (hd : p.exec c = c') (ho : c'.out = c.out ++ l) :
    Leaves t c.state.1 c'.state.1 ∧ (∀ call ∈ c'.pending, call ∈ c.pending ∨ Call.Obeys leaving call) ∧
      ((∃ o ∈ l, o.ShowsResult) → c'.state.1.userManager.Cleared) := by
  obtain ⟨hleaves, -, ⟨calls, hcalls, hobeys⟩, l', hl, htells⟩ := obeys_exec respected_leaving hp c False.elim
  rw [hd] at hleaves hcalls hl htells
  obtain rfl : l' = l := List.append_cancel_left (hl.symm.trans ho)
  refine ⟨hleaves, fun call hc => ?_, fun ⟨o, hmem, hshows⟩ => htells o hmem hshows⟩
  rcases List.mem_append.mp (hcalls ▸ hc) with hc | hc
  · exact .inl hc
  · exact .inr (hobeys call hc)

theorem obeys_idle (a : App) : a.idle.Obeys := fun _ hx => absurd hx List.not_mem_nil

theorem obeys_step (h : s.Obeys) (hs : Busy.Step serve s e s') : s'.Obeys := by
  have hset : ∀ {a : App} {x : Taken} {j : ℕ}, (∀ call ∈ x.pending, Call.Obeys leaving call) →
      Busy.Obeys { app := a, taken := s.taken.set j x } := by
    intro a x j hx y hy
    rcases List.mem_or_eq_of_mem_set hy with hy | rfl
    · exact h y hy
    · exact hx
  cases hs with
  | @touch i b a p d hp hd hl =>
    intro y hy
    rcases List.mem_append.mp hy with hy | hy
    · exact h y hy
    · obtain rfl := List.mem_singleton.mp hy
      have hturn := (leaves_turn (obeys_press hp) hd (List.nil_append _).symm).2.1
      exact fun call hc => (hturn call hc).elim (fun hnil => absurd hnil List.not_mem_nil) id
  | @answer j x r callback pre post response w d l a hx hp hw hd ho hl =>
    have hpending := h x (List.mem_of_getElem? hx)
    have hturn := (leaves_turn (hpending _ (mem_of_taken hp) response) hd ho).2.1
    exact hset fun call hc => (hturn call hc).elim (fun hrest => hpending call (mem_of_mem_rest hp hrest)) id
  | @lost j x r callback pre post response w hx hp hw =>
    have hpending := h x (List.mem_of_getElem? hx)
    exact hset fun call hc => hpending call (mem_of_mem_rest hp hc)

/-- A touch, and the turn of its program. -/
theorem leaves_touch (hs : Busy.Step serve s (.touch i, l) s') :
    ∃ b, s.app.Touched i b ∧ Leaves none b.world.1 s'.app.world.1 ∧
      ((∃ o ∈ l, o.ShowsResult) → s'.app.userManager.Cleared) := by
  cases hs with
  | @touch _ b a p d hp hd hl =>
    obtain ⟨hleaves, -, hshows⟩ := leaves_turn (obeys_press hp) hd (List.nil_append _).symm
    refine ⟨b, touched_press hp, ?_, fun ho => ?_⟩
    · show Leaves none b.world.1 a.world.1
      rw [hl.world]
      exact hleaves
    · show a.world.1.userManager.Cleared
      rw [hl.world]
      exact hshows ho

/-- An answer, and the turn of its callback. -/
theorem leaves_answer (h : s.Obeys) (hs : Busy.Step (AnswersOrKept Kept) s (.answer j r response, l) s') :
    Leaves (some ⟨r, response⟩) s.app.world.1 s'.app.world.1 ∧
      ((∃ o ∈ l, o.ShowsResult) → s'.app.userManager.Cleared) := by
  cases hs with
  | @answer _ x _ callback pre post _ w d _ a hx hp hw hd ho hl =>
    have hcall := h x (List.mem_of_getElem? hx) _ (mem_of_taken hp)
    obtain ⟨hleaves, -, hshows⟩ := leaves_turn (hcall response) hd ho
    refine ⟨?_, fun hl' => ?_⟩
    · show Leaves (some ⟨r, response⟩) s.app.world.1 a.world.1
      rw [hl.world]
      exact (leaves_answers hw).trans hleaves
    · show a.world.1.userManager.Cleared
      rw [hl.world]
      exact hshows hl'

theorem leaves_lost (hs : Busy.Step (AnswersOrKept Kept) s (.lost j r response, l) s') :
    Leaves (some ⟨r, response⟩) s.app.world.1 s'.app.world.1 := by
  cases hs with
  | lost hx hp hw => exact leaves_answers hw

/-- A logout that leads to the authentication screen has reset the record. -/
theorem reset_of_logout (hs : Busy.Step serve s (.touch .logoutButtonPressed, l) s')
    (ho : .redirectToAuth ∈ l) : s'.app.userManager = s.app.userManager.resetUserData := by
  cases hs with
  | @touch _ b a p d hp hd hl =>
    show a.world.1.userManager = _
    rw [hl.world]
    cases App.press_cases hp with
    | calls hi => cases hi
    | leads hleads => cases hleads
    | opens hopens => cases hopens
    | logout hroot =>
      subst hd
      rw [Settings.logoutButtonPressed, Program.exec_read] at ho ⊢
      split at ho
      · rename_i hout
        rw [if_pos hout]
        rfl
      · simp [Config.fresh] at ho

end Moves

end Pledge
