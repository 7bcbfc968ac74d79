import Pledge.SessionRecord

/-!
# One session after the other

What the user of the device before leaves in the session record, and what of it the next
user starts with.
-/

namespace Pledge

open EventLoop

/-- The app after its launch: `Auth.auth()` and the one-time amount have been kept. -/
structure App.Launched (a : App) : Prop where
  user : a.userManager.user = none
  completeDonation : a.userManager.completeDonation = none
  tmpDonateAmount : a.userManager.tmpDonateAmount = none
  activeDonates : a.activeDonates = []
  page : a.page = if a.world.1.currentUser.isSome then .root else .auth

/-- What the moves so far leave on the device: whether a bucket was kept that has neither been paid for
nor been logged out of since, whether a record was set since the last logout, and the one-time amount
chosen last. -/
structure Remains where
  bucket : Bool := false
  record : Bool := false
  oneTime : Option Int := none
deriving DecidableEq, Repr

namespace Remains

/-- The one-time amount outlives the app. -/
def launched (a : App) : Remains := { oneTime := a.userManager.storedOneTimeDonateAmout }

def next (g : Remains) (s : Busy) (e : Busy.Move × List Effect) (_ : Busy) : Remains :=
  match e with
  | (.touch i, l) =>
    if i = .logoutButtonPressed ∧ .redirectToAuth ∈ l then { oneTime := g.oneTime }
    else
      { bucket := i.saves || g.bucket && !decide (∃ o ∈ l, o.ShowsResult)
        record := g.record
        oneTime := (s.app.chosen i).or g.oneTime }
  | (.answer _ r a, l) =>
    { g with
      bucket := g.bucket && !decide (∃ o ∈ l, o.ShowsResult)
      record := g.record || r.setsUser a }
  | (.lost .., _) => g

/-- The session record holds no more than `g` has it. -/
structure Holds (g : Remains) (u : UserManager) : Prop where
  bucket : g.bucket = false → u.Cleared
  record : g.record = false → u.user = none
  oneTime : u.storedOneTimeDonateAmout = g.oneTime

end Remains

/-- `s` comes after the end of a session, and `g` is what all that has happened leaves: a move has led to
the authentication screen, by a logout or because nobody was signed in any more. -/
inductive SessionEnded (Kept : Server → Server → Prop) (s : Busy) (g : Remains) : Prop
  | intro {a₀ : App} {s₁ s₂ : Busy} {g₁ g₂ : Remains} {e : Busy.Move × List Effect} (hl : a₀.Launched)
      (h : History (recorded (Busy.Step (AnswersOrKept Kept)) Remains.next) (fun _ _ => True)
        (a₀.idle, .launched a₀) (s₁, g₁))
      (hs : recorded (Busy.Step (AnswersOrKept Kept)) Remains.next (s₁, g₁) e (s₂, g₂))
      (ho : .redirectToAuth ∈ e.2)
      (hrest : History (recorded (Busy.Step (AnswersOrKept Kept)) Remains.next) (fun _ _ => True)
        (s₂, g₂) (s, g))

/-- What arrives while the touch with number `j` is answered: its own answers are those of `respond`,
and `Ok` holds of what else is answered. -/
def Arrives (respond : (r : Request) → r.Response) (Ok : Request → Prop) (j : ℕ) : Busy.Move → Prop
  | .touch _ => False
  | .answer k r a | .lost k r a => if k = j then a = respond r else Ok r

/-- A sign-in of `uid` with these responses that went through. -/
inductive SignsIn (Kept : Server → Server → Prop) (respond : (r : Request) → r.Response)
    (Ok : Request → Prop) (email password uid : String) (s t : Busy) : Prop
  | intro {s₁ : Busy} {l : List Effect} {x : Taken}
      (htouch : Busy.Step (AnswersOrKept Kept) s (.touch (.authenticate (.signIn email password)), l) s₁)
      (h : History (Busy.Step (AnswersOrKept Kept)) (fun _ e => Arrives respond Ok s.taken.length e.1) s₁ t)
      (hx : t.taken[s.taken.length]? = some x) (ho : .reported true ∈ x.out)
      (hu : t.app.world.1.currentUser = some uid)

/-- The donation state of the session record. -/
structure SameDonationState (u u' : UserManager) : Prop where
  user : u.user = u'.user
  completeDonation : u.completeDonation = u'.completeDonation
  tmpDonateAmount : u.tmpDonateAmount = u'.tmpDonateAmount
  oneTimeDonateAmout : u.oneTimeDonateAmout = u'.oneTimeDonateAmout

variable {Kept : Server → Server → Prop} {respond : (r : Request) → r.Response} {email password uid : String}
  {a₀ : App} {s s' t t' : Busy} {g g' : Remains} {e : Busy.Move × List Effect} {l : List Effect} {j : ℕ}

/-! ## What a session leaves -/

namespace Remains

theorem holds_launched (hl : a₀.Launched) : (launched a₀).Holds a₀.userManager :=
  ⟨fun _ => ⟨hl.completeDonation, hl.tmpDonateAmount⟩, fun _ => hl.user, rfl⟩

/-- A success screen vouches for what it has reset; otherwise nothing has been kept before. -/
theorem cleared_of_kept {b : Bool} {u : UserManager} (hb : b = false → u.Cleared)
    (hl : (∃ o ∈ l, o.ShowsResult) → u.Cleared)
    (h : (b && !decide (∃ o ∈ l, o.ShowsResult)) = false) : u.Cleared := by
  by_cases hshows : ∃ o ∈ l, o.ShowsResult
  · exact hl hshows
  · simp only [hshows, decide_false, Bool.not_false, Bool.and_true] at h
    exact hb h

theorem holds_step (ho : s.Obeys) (h : g.Holds s.app.userManager)
    (hs : Busy.Step (AnswersOrKept Kept) s e s') : (g.next s e s').Holds s'.app.userManager := by
  obtain ⟨m, l⟩ := e
  cases m with
  | touch i =>
    obtain ⟨b, htouched, hleaves, hshows⟩ := leaves_touch hs
    unfold next
    dsimp only
    split
    case isTrue hout =>
      obtain ⟨rfl, hredirect⟩ := hout
      rw [reset_of_logout hs hredirect]
      exact ⟨fun _ => ⟨rfl, rfl⟩, fun _ => rfl, h.oneTime⟩
    case isFalse =>
      refine ⟨fun hb => ?_, fun hr => ?_, ?_⟩
      · obtain ⟨hsaves, hkept⟩ := Bool.or_eq_false_iff.mp hb
        exact cleared_of_kept (fun hg => hleaves.cleared (htouched.cleared hsaves (h.bucket hg))) hshows hkept
      · exact hleaves.user nofun (htouched.user.trans (h.record hr))
      · rw [← h.oneTime]
        exact hleaves.oneTime.trans htouched.oneTime
  | answer k r a =>
    obtain ⟨hleaves, hshows⟩ := leaves_answer ho hs
    refine ⟨fun hb => cleared_of_kept (fun hg => hleaves.cleared (h.bucket hg)) hshows hb, fun hr => ?_,
      hleaves.oneTime.trans h.oneTime⟩
    obtain ⟨hg, hsets⟩ := Bool.or_eq_false_iff.mp hr
    refine hleaves.user ?_ (h.record hg)
    rintro _ ⟨rfl⟩
    exact hsets
  | lost k r a =>
    have hleaves := leaves_lost hs
    have hu : s'.app.userManager = s.app.userManager := by
      cases hs with
      | lost _ _ hw => exact userManager_kept hw
    rw [hu]
    exact h

theorem holds_of_history {Ok : Busy × Remains → Busy.Move × List Effect → Prop}
    (h : History (recorded (Busy.Step (AnswersOrKept Kept)) next) Ok (s, g) (s', g')) (ho : s.Obeys)
    (hg : g.Holds s.app.userManager) : s'.Obeys ∧ g'.Holds s'.app.userManager := by
  refine h.invariant (I := fun x => x.1.Obeys ∧ x.2.Holds x.1.app.userManager) ?_ ⟨ho, hg⟩
  rintro ⟨s, g⟩ e ⟨s', g'⟩ ⟨ho, hg⟩ - ⟨hs, hnext⟩
  dsimp only at hs hnext
  subst hnext
  exact ⟨obeys_step ho hs, holds_step ho hg hs⟩

end Remains

theorem holds_of_ended (h : SessionEnded Kept s g) : s.Obeys ∧ g.Holds s.app.userManager := by
  obtain ⟨hl, hrun, ⟨hs, hnext⟩, -, hrest⟩ := h
  dsimp only at hs hnext
  subst hnext
  obtain ⟨ho, hg⟩ := Remains.holds_of_history hrun (obeys_idle _) (Remains.holds_launched hl)
  exact Remains.holds_of_history hrest (obeys_step ho hs) (Remains.holds_step ho hg hs)

/-! ## The next sign-in -/

/-- The callback of the sign-in. -/
def signedInCallback (error : Option String) : Prog :=
  match error with
  | some _ => .emit (.reported false) .stop
  | none => FirestoreManager.fetchUpdateUser fun _ => .emit (.reported true) .stop

/-- The callback of the read of the record after it. -/
def recordCallback (snapshot : Option (Document UserDoc)) : Prog :=
  match LendUser.init? snapshot with
  | some user =>
    .modify (fun d => d.setUserManager { d.userManager with user := some user }) (.emit (.reported true) .stop)
  | none => .emit (.reported true) .stop

/-- How far the touch `x` has come with its sign-in, when the record was `user` before. -/
inductive Signing (respond : (r : Request) → r.Response) (user : Option LendUser) (s : Busy) (x : Taken) : Prop
  | signs {email password : String} (hp : x.pending = [⟨.signIn email password, signedInCallback⟩])
      (ho : x.out = []) (hu : s.app.userManager.user = user)
  | reads {uid : String} (hp : x.pending = [⟨.getUser uid, recordCallback⟩]) (ho : x.out = [])
      (hc : s.app.world.1.currentUser = some uid) (hu : s.app.userManager.user = user)
  | ended (hp : x.pending = []) (h : .reported true ∈ x.out → ∃ uid, s.app.world.1.currentUser = some uid ∧
      s.app.userManager.user = (LendUser.init? (respond (.getUser uid))).or user)

variable {user : Option LendUser} {x : Taken}

theorem call_signIn : (Authentication.signIn email password).call =
    .modify Authentication.signedOut (.ask (.signIn email password) signedInCallback) := by
  refine congrArg (fun k : Option String → Prog =>
    (.modify Authentication.signedOut (.ask (Request.signIn email password) k) : Prog)) (funext fun error => ?_)
  cases error <;> rfl

theorem signing_touch {serve : World → (r : Request) → r.Response → World → Prop}
    (hs : Busy.Step serve s (.touch (.authenticate (.signIn email password)), l) s') :
    s'.app.userManager = s.app.userManager ∧
      ∃ x, s'.taken[s.taken.length]? = some x ∧ Signing respond s.app.userManager.user s' x := by
  cases hs with
  | @touch _ b a p d hp hd hl =>
    have hu : a.userManager = s.app.userManager := by
      show a.world.1.userManager = _
      rw [hl.world, ← hd]
      cases App.press_cases hp with
      | calls hi =>
        cases hi
        exact Authentication.signedOut_userManager _
      | leads hleads => cases hleads
      | opens hopens => cases hopens
    refine ⟨hu, ⟨d.waiting, s.app, .authenticate (.signIn email password)⟩, by simp, ?_⟩
    cases App.press_cases hp with
    | calls hi =>
      cases hi
      rw [call_signIn] at hd
      subst hd
      exact .signs rfl rfl (congrArg UserManager.user hu)
    | leads hleads => cases hleads
    | opens hopens => cases hopens

/-- The sign-in of the touch itself goes on. -/
theorem signing_answer {r : Request} {callback : r.Response → Prog} {response : r.Response}
    {pre post : List (Call Device Frame Effect Request.Response)} {w : World} {d : Loop}
    (h : Signing respond user s x) (hp : x.pending = pre ++ ⟨r, callback⟩ :: post)
    (hs : AnswersOrKept Kept s.app.world r response w) (hr : response = respond r)
    (hd : (callback response).exec ⟨w, x.heap, pre ++ post, x.out⟩ = d) {a : App} (ha : a.world = d.state)
    {y : Taken} (hy : y.pending = d.pending) (hout : y.out = d.out) {ts : List Taken} :
    Signing respond user ⟨a, ts⟩ y := by
  have hua : a.userManager = d.state.1.userManager := congrArg (fun w => w.1.userManager) ha
  have hca : a.world.1.currentUser = d.state.1.currentUser := congrArg (fun w => w.1.currentUser) ha
  have huser := userManager_kept hs
  cases h with
  | signs hp' ho hu =>
    obtain ⟨rfl, rfl, he⟩ := eq_of_single (hp'.symm.trans hp)
    cases he
    have hkept : w.1.userManager.user = user := (congrArg UserManager.user huser).trans hu
    cases response with
    | some error =>
      rw [signedInCallback] at hd
      subst hd
      refine .ended hy fun hmem => ?_
      rw [hout, ho] at hmem
      simp at hmem
    | none =>
      rcases hs with ⟨uid, -, rfl⟩ | ⟨hread, -⟩
      · rw [signedInCallback] at hd
        subst hd
        exact .reads hy (hout.trans ho) hca (hua ▸ hkept)
      · exact hread.elim
  | @reads uid hp' ho hc hu =>
    obtain ⟨rfl, rfl, he⟩ := eq_of_single (hp'.symm.trans hp)
    cases he
    have hw : w = s.app.world := by
      rcases hs with ⟨hw, -⟩ | ⟨-, hw, -⟩
      · exact hw
      · exact hw
    subst hw hr
    unfold recordCallback at hd
    split at hd
    · rename_i record hinit
      subst hd
      refine .ended hy fun _ => ⟨uid, hca.trans hc, ?_⟩
      rw [hinit, Option.some_or]
      exact congrArg UserManager.user hua
    · rename_i hinit
      subst hd
      refine .ended hy fun _ => ⟨uid, hca.trans hc, ?_⟩
      rw [hinit, Option.none_or]
      exact (congrArg UserManager.user hua).trans hu
  | ended hp' =>
    rw [hp'] at hp
    simp at hp

/-- What else is answered meanwhile leaves it where it is. -/
theorem Signing.congr (h : Signing respond user s x) (hu : s'.app.userManager.user = s.app.userManager.user)
    (hc : s'.app.world.1.currentUser = s.app.world.1.currentUser) : Signing respond user s' x := by
  cases h with
  | signs hp ho hu' => exact .signs hp ho (hu.trans hu')
  | reads hp ho hc' hu' => exact .reads hp ho (hc.trans hc') (hu.trans hu')
  | ended hp h =>
    refine .ended hp fun hout => ?_
    obtain ⟨uid, huid, hrecord⟩ := h hout
    exact ⟨uid, hc.trans huid, hu.trans hrecord⟩

/-- An answer that is lost is the end of it. -/
theorem signing_lost {r : Request} {callback : r.Response → Prog} {ts : List Taken} {a : App}
    {pre post : List (Call Device Frame Effect Request.Response)} (h : Signing respond user s x)
    (hp : x.pending = pre ++ ⟨r, callback⟩ :: post) :
    Signing respond user ⟨a, ts⟩ { x with pending := pre ++ post } := by
  have hover : ∀ {c : Call Device Frame Effect Request.Response}, x.pending = [c] → x.out = [] →
      Signing respond user ⟨a, ts⟩ { x with pending := pre ++ post } := by
    intro c hone ho
    obtain ⟨rfl, rfl, -⟩ := eq_of_single (hone.symm.trans hp)
    refine .ended rfl fun hmem => ?_
    rw [show ({ x with pending := [] ++ [] } : Taken).out = [] from ho] at hmem
    cases hmem
  cases h with
  | signs hp' ho => exact hover hp' ho
  | reads hp' ho => exact hover hp' ho
  | ended hp' =>
    rw [hp'] at hp
    simp at hp

/-- A sign-in under way: nothing has been kept, and the one-time amount is what it was. -/
structure Underway (respond : (r : Request) → r.Response) (u : UserManager) (j : ℕ) (s : Busy) : Prop where
  obeys : s.Obeys
  cleared : s.app.userManager.Cleared
  oneTime : s.app.userManager.storedOneTimeDonateAmout = u.storedOneTimeDonateAmout
  signing : ∃ x, s.taken[j]? = some x ∧ Signing respond u.user s x

theorem underway_step {u : UserManager} (h : Underway respond u j s)
    (hs : Busy.Step (AnswersOrKept Kept) s e s') (hok : Arrives respond (fun r => ¬ r.Identifies) j e.1) :
    Underway respond u j s' := by
  obtain ⟨x, hx, hsigning⟩ := h.signing
  have hkeeps : ∀ {r : Request} {a : r.Response}, Leaves (some ⟨r, a⟩) s.app.world.1 s'.app.world.1 →
      (∃ x, s'.taken[j]? = some x ∧ Signing respond u.user s' x) → Underway respond u j s' :=
    fun hleaves hsigning =>
      ⟨obeys_step h.obeys hs, hleaves.cleared h.cleared, hleaves.oneTime.trans h.oneTime, hsigning⟩
  -- the answer to another touch
  have hothers : ∀ {r : Request} {a : r.Response}, Leaves (some ⟨r, a⟩) s.app.world.1 s'.app.world.1 →
      ¬ r.Identifies → Signing respond u.user s' x :=
    fun hleaves hr => hsigning.congr (hleaves.identity _ rfl hr).1 (hleaves.identity _ rfl hr).2
  have hlength : j < s.taken.length := (List.getElem?_eq_some_iff.mp hx).1
  obtain ⟨m, l⟩ := e
  cases m with
  | touch i => exact hok.elim
  | answer k r a =>
    have hleaves := (leaves_answer h.obeys hs).1
    refine hkeeps hleaves ?_
    simp only [Arrives] at hok
    cases hs with
    | @answer _ y _ callback pre post _ w d _ b hy hp hw hd ho hl =>
      split at hok
      · rename_i hk
        subst hk
        obtain rfl := Option.some.inj (hy.symm.trans hx)
        exact ⟨_, List.getElem?_set_self hlength, signing_answer hsigning hp hw hok hd hl.world rfl rfl⟩
      · rename_i hk
        exact ⟨x, (List.getElem?_set_ne hk).trans hx, hothers hleaves hok⟩
  | lost k r a =>
    have hleaves := leaves_lost hs
    refine hkeeps hleaves ?_
    simp only [Arrives] at hok
    cases hs with
    | @lost _ y _ callback pre post _ w hy hp hw =>
      split at hok
      · rename_i hk
        subst hk
        obtain rfl := Option.some.inj (hy.symm.trans hx)
        exact ⟨_, List.getElem?_set_self hlength, signing_lost hsigning hp⟩
      · rename_i hk
        exact ⟨x, (List.getElem?_set_ne hk).trans hx, hothers hleaves hok⟩

/-- Where nothing has been kept, the next user starts with the record that was read, or with the one
that was left, and with the one-time amount. -/
theorem userManager_signsIn (ho : s.Obeys) (hc : s.app.userManager.Cleared)
    (hs : SignsIn Kept respond (fun r => ¬ r.Identifies) email password uid s t) :
    t.app.userManager =
      { user := (LendUser.init? (respond (.getUser uid))).or s.app.userManager.user
        storedOneTimeDonateAmout := s.app.userManager.storedOneTimeDonateAmout } := by
  obtain ⟨htouch, hrun, hx, hout, hu⟩ := hs
  obtain ⟨hsame, hstart⟩ := signing_touch htouch
  have hunder : Underway respond s.app.userManager s.taken.length t :=
    hrun.invariant (I := Underway respond s.app.userManager s.taken.length)
      (fun _ e _ h hok (hs : Busy.Step (AnswersOrKept Kept) _ e _) => underway_step h hs hok)
      ⟨obeys_step ho htouch, hsame ▸ hc, congrArg UserManager.storedOneTimeDonateAmout hsame, hstart⟩
  obtain ⟨x, hx', hsigning⟩ := hunder.signing
  obtain rfl := Option.some.inj (hx'.symm.trans hx)
  have huser : t.app.userManager.user =
      (LendUser.init? (respond (.getUser uid))).or s.app.userManager.user := by
    cases hsigning with
    | signs _ ho' | reads _ ho' =>
      rw [ho'] at hout
      cases hout
    | ended _ h =>
      obtain ⟨uid', hu', hrecord⟩ := h hout
      obtain rfl := Option.some.inj (hu'.symm.trans hu)
      exact hrecord
  rw [← huser, ← hunder.oneTime, ← hunder.cleared.completeDonation, ← hunder.cleared.tmpDonateAmount]

/-- Two sessions end, each in its way, and are followed by the same sign-in, answered the same. The
next session starts in the same donation state if neither left a bucket behind, both left the same
one-time amount, the record is read or none was left, and nothing that is still in flight signs in or
touches the record meanwhile. -/
theorem sameDonationState_of_signsIn (he : SessionEnded Kept s g) (he' : SessionEnded Kept s' g')
    (hs : SignsIn Kept respond (fun r => ¬ r.Identifies) email password uid s t)
    (hs' : SignsIn Kept respond (fun r => ¬ r.Identifies) email password uid s' t')
    (hb : g.bucket = false) (hb' : g'.bucket = false) (hone : g.oneTime = g'.oneTime)
    (hread : LendUser.init? (respond (.getUser uid)) ≠ none ∨ g.record = false ∧ g'.record = false) :
    SameDonationState t.app.userManager t'.app.userManager := by
  obtain ⟨ho, hg⟩ := holds_of_ended he
  obtain ⟨ho', hg'⟩ := holds_of_ended he'
  have hstored : s.app.userManager.storedOneTimeDonateAmout = s'.app.userManager.storedOneTimeDonateAmout :=
    hg.oneTime.trans (hone.trans hg'.oneTime.symm)
  rw [userManager_signsIn ho (hg.bucket hb) hs, userManager_signsIn ho' (hg'.bucket hb') hs', hstored]
  refine ⟨?_, rfl, rfl, rfl⟩
  rcases hread with hread | ⟨hr, hr'⟩
  · obtain ⟨record, hr⟩ := Option.ne_none_iff_exists'.mp hread
    simp only [hr, Option.some_or]
  · simp only [hg.record hr, hg'.record hr']

/-! ## Ann, then Ben -/

/-- Ann is signed in when the app is launched; Ben has an account. -/
def annApp : App := { world := ({ currentUser := some "ann" }, Authentication.benWorld.2), page := .root }

/-- Ann keeps a one-time bucket of ten for the shelter. -/
def keptApp : App :=
  { world := ({ currentUser := some "ann"
                userManager :=
                  { completeDonation := some
                      { donatedOrganisations := [{ amount := 10, organisation := BucketScreen.shelter }]
                        type := .once }
                    storedOneTimeDonateAmout := some 10 } }, Authentication.benWorld.2)
    page := .root }

/-- Ben's sign-in and the read of his record succeed. -/
def benResponds : (r : Request) → r.Response
  | .signIn .. => none
  | .getUser _ => some ⟨"ben", some { email := some "ben@mail.com" }⟩
  | r => r.rejected

theorem launched_annApp : annApp.Launched := ⟨rfl, rfl, rfl, rfl, rfl⟩

variable (Kept) in
/-- Ann keeps her bucket. -/
theorem remembered_keptApp : ∃ ts, History (recorded (Busy.Step (AnswersOrKept Kept)) Remains.next)
    (fun _ _ => True) (annApp.idle, .launched annApp) (⟨keptApp, ts⟩, ⟨true, false, some 10⟩) := by
  have hlaunched : History (recorded (Busy.Step (AnswersOrKept Kept)) Remains.next) (fun _ _ => True)
      (annApp.idle, .launched annApp) (annApp.idle, .launched annApp) := .refl
  have hdonate := hlaunched.note (e := (.touch (.donate (.organisation BucketScreen.shelter) .once), _)) trivial
    (.touch rfl rfl (App.sees_foldl_shown _ _))
  have hopen := hdonate.note (e := (.touch (.adjustContinuePressed 10), _)) trivial
    (.touch rfl rfl (App.sees_foldl_shown _ _))
  have hkeep := hopen.note (e := (.touch (.bucket .keepBrowsingButtonPressed), _)) trivial
    (.touch rfl rfl (App.sees_foldl_shown _ _))
  exact ⟨_, hkeep⟩

/-- My Impacts waits for Ann's record. -/
def loadingTaken : Taken :=
  ⟨(MyImpacts.loadActiveDonates.exec (.fresh _ keptApp.world)).waiting, keptApp, .loadActiveDonates⟩

/-- Ann has logged out. -/
def loggedOutApp : App :=
  { world := ({ userManager := { storedOneTimeDonateAmout := some 10 } }, Authentication.benWorld.2)
    page := .auth }

def logoutTaken : Taken := ⟨⟨[], [], [.redirectToAuth]⟩, keptApp, .logoutButtonPressed⟩

variable (Kept) in
/-- She logs out while My Impacts still waits, and her record arrives on the authentication screen. -/
theorem exists_loggedOut : ∃ s, SessionEnded Kept s ⟨false, true, some 10⟩ ∧ s.app.page = .auth ∧
    s.app.world.2 = Authentication.benWorld.2 := by
  obtain ⟨ts, hkept⟩ := remembered_keptApp Kept
  have hload : Busy.Step (AnswersOrKept Kept) ⟨keptApp, ts⟩ (.touch .loadActiveDonates, [])
      ⟨keptApp, ts ++ [loadingTaken]⟩ :=
    .touch (d := MyImpacts.loadActiveDonates.exec (.fresh _ keptApp.world)) rfl rfl (.nil _)
  have hlogout : Busy.Step (AnswersOrKept Kept) ⟨keptApp, ts ++ [loadingTaken]⟩
      (.touch .logoutButtonPressed, [.redirectToAuth])
      ⟨loggedOutApp, ts ++ [loadingTaken] ++ [logoutTaken]⟩ :=
    .touch (d := Settings.logoutButtonPressed.exec (.fresh _ keptApp.world)) rfl rfl (.shown (.nil _))
  have hread : Busy.Step (AnswersOrKept Kept) ⟨loggedOutApp, ts ++ [loadingTaken] ++ [logoutTaken]⟩
      (.answer ts.length (.getUser "ann") (some ⟨"ann", (Authentication.benWorld.2.account "ann").user⟩), _) _ :=
    .answer (by simp) (show loadingTaken.pending = [] ++ _ :: [] from rfl) (.inl ⟨rfl, .inr rfl⟩) rfl rfl
      (App.sees_foldl_shown _ _)
  have hended := hkept.note trivial hload
  exact ⟨_, ⟨launched_annApp, hended, ⟨hlogout, rfl⟩, List.mem_singleton.mpr rfl, .note .refl trivial hread⟩,
    rfl, rfl⟩

/-- Signing out from outside, noticed by the next request. -/
theorem exists_redirected {a₀ a : App} {ts : List Taken} (hl : a₀.Launched)
    (h : History (recorded (Busy.Step (AnswersOrKept Kept)) Remains.next) (fun _ _ => True)
      (a₀.idle, .launched a₀) (⟨a, ts⟩, g)) (hp : a.page = .root) :
    ∃ s, SessionEnded Kept s g ∧ s.app.page = .auth ∧ s.app.userManager = a.userManager ∧
      s.app.world.2 = a.world.2 := by
  obtain ⟨⟨d, server⟩, page, activeDonates⟩ := a
  obtain rfl : page = .root := hp
  obtain ⟨bucket, record, oneTime⟩ := g
  obtain ⟨w, hw⟩ : ∃ w : World, w = ({ d with currentUser := none }, server) := ⟨_, rfl⟩
  have hout : Busy.Step (AnswersOrKept Kept) ⟨⟨(d, server), .root, activeDonates⟩, ts⟩ (.touch .signedOut, [])
      ⟨⟨w, .root, activeDonates⟩, ts ++ [⟨⟨[], [], []⟩, ⟨(d, server), .root, activeDonates⟩, .signedOut⟩]⟩ := by
    subst hw
    exact .touch (d := .fresh _ ({ d with currentUser := none }, server)) rfl rfl (.nil _)
  have hredirect : ∀ ts, Busy.Step (AnswersOrKept Kept) ⟨⟨w, .root, activeDonates⟩, ts⟩
      (.touch .fetchUpdateUser, [.redirectToAuth]) ⟨⟨w, .auth, []⟩,
        ts ++ [⟨⟨[], [], [.redirectToAuth]⟩, ⟨w, .root, activeDonates⟩, .fetchUpdateUser⟩]⟩ := by
    subst hw
    exact fun ts => .touch (d := ⟨({ d with currentUser := none }, server), [], [], [.redirectToAuth]⟩) rfl rfl
      (.shown (.nil _))
  refine ⟨_, ⟨hl, h.note trivial hout, ⟨hredirect _, ?_⟩, List.mem_singleton.mpr rfl, .refl⟩, rfl, ?_⟩
  · cases bucket <;> rfl
  · rw [hw]
    exact ⟨rfl, rfl⟩

/-- Ben's sign-in, begun in `a`. -/
def benTaken (a : App) (pending : List (Call Device Frame Effect Request.Response)) (out : List Effect) :
    Taken :=
  ⟨⟨[], pending, out⟩, a, .authenticate (.signIn "ben@mail.com" "password")⟩

variable (Kept) in
/-- Ben signs in. -/
theorem exists_signsIn (Ok : Request → Prop) (hp : s.app.page = .auth)
    (hs : s.app.world.2 = Authentication.benWorld.2) :
    ∃ t, SignsIn Kept benResponds Ok "ben@mail.com" "password" "ben" s t ∧
      t.app.userManager.completeDonation = s.app.userManager.completeDonation := by
  obtain ⟨⟨⟨d, server⟩, page, activeDonates⟩, ts⟩ := s
  obtain rfl : page = .auth := hp
  obtain rfl : server = Authentication.benWorld.2 := hs
  obtain ⟨a, ha⟩ : ∃ a : App, a = ⟨(d, Authentication.benWorld.2), .auth, activeDonates⟩ := ⟨_, rfl⟩
  obtain ⟨w, hw⟩ : ∃ w, w = Authentication.signedIn "ben" (d, Authentication.benWorld.2) := ⟨_, rfl⟩
  obtain ⟨page, hpage⟩ : ∃ page : Page, page = .authenticating (.signIn "ben@mail.com" "password") := ⟨_, rfl⟩
  have hemail : (Authentication.benWorld.2.account "ben").email = some "ben@mail.com" := by
    simp [Authentication.benWorld]
  have hrecord : some ⟨"ben", some { email := some "ben@mail.com" }⟩ =
      (some ⟨"ben", (w.2.account "ben").user⟩ : Option (Document UserDoc)) := by
    simp [hw, Authentication.signedIn, Authentication.benWorld]
  have htouch : Busy.Step (AnswersOrKept Kept) ⟨a, ts⟩
      (.touch (.authenticate (.signIn "ben@mail.com" "password")), [])
      ⟨⟨(Authentication.signedOut d, Authentication.benWorld.2), page, activeDonates⟩,
        ts ++ [benTaken a [⟨.signIn "ben@mail.com" "password", signedInCallback⟩] []]⟩ := by
    subst ha hpage
    exact .touch (d := ⟨(Authentication.signedOut d, Authentication.benWorld.2), [],
      [⟨.signIn "ben@mail.com" "password", signedInCallback⟩], []⟩) rfl (by rw [call_signIn]; rfl) (.nil _)
  have hsigned : Busy.Step (AnswersOrKept Kept)
      ⟨⟨(Authentication.signedOut d, Authentication.benWorld.2), page, activeDonates⟩,
        ts ++ [benTaken a [⟨.signIn "ben@mail.com" "password", signedInCallback⟩] []]⟩
      (.answer ts.length (.signIn "ben@mail.com" "password") none, [])
      ⟨⟨w, page, activeDonates⟩, ts ++ [benTaken a [⟨.getUser "ben", recordCallback⟩] []]⟩ := by
    subst hw
    exact step_answer_last (d := ⟨_, [], [⟨.getUser "ben", recordCallback⟩], []⟩)
      (show _ = [] ++ _ :: [] from rfl) (.inl ⟨"ben", hemail, rfl⟩) rfl rfl (.nil _)
  have hread : Busy.Step (AnswersOrKept Kept)
      ⟨⟨w, page, activeDonates⟩, ts ++ [benTaken a [⟨.getUser "ben", recordCallback⟩] []]⟩
      (.answer ts.length (.getUser "ben") (some ⟨"ben", some { email := some "ben@mail.com" }⟩), [.reported true])
      ⟨⟨Authentication.refreshed { email := "ben@mail.com", displayName := none } w, .root, activeDonates⟩,
        ts ++ [benTaken a [] [.reported true]]⟩ := by
    subst hpage
    exact step_answer_last (d := ⟨_, [], [], [.reported true]⟩) (show _ = [] ++ _ :: [] from rfl)
      (.inl ⟨rfl, .inr hrecord⟩) rfl rfl (.shown (.nil _))
  subst ha
  refine ⟨_, ⟨htouch, (History.refl.tail ?_ hsigned).tail ?_ hread, List.getElem?_concat_length,
    List.mem_singleton.mpr rfl, ?_⟩, ?_⟩
  · simp [Arrives, benResponds]
  · simp [Arrives, benResponds]
  · rw [hw]
    rfl
  · have hkept := congrArg UserManager.completeDonation (Authentication.signedOut_userManager d)
    rw [hw]
    exact hkept

/-- After a logout nothing is left of Ann's bucket, and Ben's record replaces hers, although it arrived
after the logout: Ben starts as he does on a device on which only its one-time amount was chosen. -/
theorem sameDonationState_afterLogout : ∃ s s' t t', SessionEnded (fun _ _ => False) s ⟨false, true, some 10⟩ ∧
    SessionEnded (fun _ _ => False) s' ⟨false, false, some 10⟩ ∧
    SignsIn (fun _ _ => False) benResponds (fun r => ¬ r.Identifies) "ben@mail.com" "password" "ben" s t ∧
    SignsIn (fun _ _ => False) benResponds (fun r => ¬ r.Identifies) "ben@mail.com" "password" "ben" s' t' ∧
    SameDonationState t.app.userManager t'.app.userManager := by
  have hlaunched : ({ annApp with world := ({ currentUser := some "ann"
                                              userManager := { storedOneTimeDonateAmout := some 10 } },
                                            Authentication.benWorld.2) } : App).Launched :=
    ⟨rfl, rfl, rfl, rfl, rfl⟩
  obtain ⟨s, he, hp, hserver⟩ := exists_loggedOut fun _ _ => False
  obtain ⟨s', he', hp', -, hserver'⟩ := exists_redirected hlaunched .refl rfl
  obtain ⟨t, ht, -⟩ := exists_signsIn (fun _ _ => False) (fun r => ¬ r.Identifies) hp hserver
  obtain ⟨t', ht', -⟩ := exists_signsIn (fun _ _ => False) (fun r => ¬ r.Identifies) hp' hserver'
  exact ⟨s, s', t, t', he, he', ht, ht',
    sameDonationState_of_signsIn he he' ht ht' rfl rfl rfl (.inl (by decide))⟩

/-- Ann's session ends without a logout, and Ben finds her bucket. -/
theorem not_sameDonationState :
    ¬ ∀ (Kept : Server → Server → Prop) (respond : (r : Request) → r.Response) (email password uid : String)
      (s s' t t' : Busy) (g g' : Remains), SessionEnded Kept s g → SessionEnded Kept s' g' →
      SignsIn Kept respond (fun _ => True) email password uid s t →
      SignsIn Kept respond (fun _ => True) email password uid s' t' →
      SameDonationState t.app.userManager t'.app.userManager := by
  intro hall
  obtain ⟨ts, hkept⟩ := remembered_keptApp fun _ _ => False
  obtain ⟨s, he, hp, hu, hserver⟩ := exists_redirected launched_annApp hkept rfl
  obtain ⟨s', he', hp', hu', hserver'⟩ := exists_redirected launched_annApp .refl rfl
  obtain ⟨t, ht, hcomplete⟩ := exists_signsIn (fun _ _ => False) (fun _ => True) hp hserver
  obtain ⟨t', ht', hcomplete'⟩ := exists_signsIn (fun _ _ => False) (fun _ => True) hp' hserver'
  have hsame := (hall _ _ _ _ _ _ _ _ _ _ _ he he' ht ht').completeDonation
  rw [hcomplete, hcomplete', hu, hu'] at hsame
  cases hsame

end Pledge
