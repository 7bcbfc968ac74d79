import Pledge.Settlement

/-!
# Signing in and signing up

What an authentication reports, and what the session record and the account hold then,
for every outcome of each of its requests.
-/

namespace Pledge

open EventLoop

/-- The record that the `Users` document of `uid` decodes to. -/
def Server.recordOf (s : Server) (uid : String) : Option LendUser :=
  LendUser.init? (some ⟨uid, (s.account uid).user⟩)

/-- The services answer as they may, and let each request succeed or fail as `ok` says. -/
def Decided (ok : Request → Prop) (w : World) (r : Request) (a : r.Response) (w' : World) : Prop :=
  Answers w r a w' ∧ (ok r ↔ Succeeds w r a w')

inductive Authentication
  | signIn (email password : String)
  | signUp (email password : String) (displayName : Option String)
deriving DecidableEq, Repr

namespace Authentication

def email : Authentication → String
  | signIn email _ => email
  | signUp email _ _ => email

/-- The operation called with a completion that keeps what it was told. -/
def call : Authentication → Prog
  | signIn email password =>
    FirestoreManager.signIn email password fun error => .emit (.reported error.isNone) .stop
  | signUp email password displayName =>
    FirestoreManager.signUp email password displayName fun success _ =>
      .emit (.reported success) .stop

/-- The signed-in account has a `Users` document, the session record is what it decodes to,
and its e-mail is the one that signed in. -/
def Usable (email : String) (w : World) : Prop :=
  ∃ uid user, w.1.currentUser = some uid ∧ w.2.recordOf uid = some user ∧ user.email = email ∧
    w.1.userManager.user = some user

/-- Signing in needs a readable record with the e-mail, and its read to succeed unless the
record is there already; signing up needs the record to be written, unless it is there. -/
def Recorded (ok : Request → Prop) (w : World) : Authentication → Prop
  | signIn email password =>
    ok (.signIn email password) → ∀ uid, (w.2.account uid).email = some email →
      ∃ user, w.2.recordOf uid = some user ∧ user.email = email ∧
        (ok (.getUser uid) ∨ w.1.userManager.user = some user)
  | signUp email password displayName =>
    ok (.createUser email password) → (∀ u, (w.2.account u).email ≠ some email) →
      ∀ uid, (w.2.account uid).email = none →
        ok (.setUser uid { email := some email, displayName }) ∨
          w.2.recordOf uid = some { email, displayName }

variable {ok : Request → Prop} {w w' : World} {h : List Frame} {l : List Effect}
  {email password uid : String} {displayName : Option String} {k : Option String → Prog}

/-! ## Signing in -/

/-- The device after `try Auth.auth().signOut()`. -/
def signedOut (d : Device) : Device :=
  if d.signOutError.isNone then { d with currentUser := none } else d

theorem signedOut_userManager (d : Device) : (signedOut d).userManager = d.userManager := by
  unfold signedOut
  split <;> rfl

/-- The world once the account step of a sign-in went through. -/
def signedIn (uid : String) (w : World) : World :=
  ({ signedOut w.1 with currentUser := some uid }, w.2)

/-- The world once the record was read as well. -/
def refreshed (user : LendUser) (w : World) : World :=
  (w.1.setUserManager { w.1.userManager with user := some user }, w.2)

theorem yields_fetchUpdateUser {k : Bool → Prog} (hu : w.1.currentUser = some uid) :
    (FirestoreManager.fetchUpdateUser k).Yields (Decided ok) w h w' l ↔
      (¬ ok (.getUser uid) ∧ (k false).Yields (Decided ok) w h w' l) ∨
      (ok (.getUser uid) ∧ ((w.2.recordOf uid = none ∧ (k false).Yields (Decided ok) w h w' l) ∨
        ∃ user, w.2.recordOf uid = some user ∧
          (k true).Yields (Decided ok) (refreshed user w) h w' l)) := by
  rw [FirestoreManager.fetchUpdateUser, yields_withUid_signedIn hu]
  dsimp only
  rw [yields_ask]
  constructor
  · rintro ⟨snapshot, w₁, ⟨ha, hok⟩, hk⟩
    obtain ⟨rfl, rfl | rfl⟩ := id ha
    · refine .inl ⟨fun ho => (hok.mp ho).2 rfl, hk⟩
    · refine .inr ⟨hok.mpr ⟨ha, fun hs => by cases hs⟩, ?_⟩
      cases hr : w₁.2.recordOf uid with
      | none =>
        unfold Server.recordOf at hr
        rw [hr] at hk
        exact .inl ⟨rfl, hk⟩
      | some user =>
        unfold Server.recordOf at hr
        rw [hr] at hk
        exact .inr ⟨user, rfl, hk⟩
  · rintro (⟨hno, hk⟩ | ⟨hok, hk⟩)
    · refine ⟨none, w, ⟨⟨rfl, .inl rfl⟩, fun ho => absurd ho hno, fun hs => absurd rfl hs.2⟩, hk⟩
    · refine ⟨some ⟨uid, (w.2.account uid).user⟩, w,
        ⟨⟨rfl, .inr rfl⟩, fun _ => ⟨⟨rfl, .inr rfl⟩, fun hs => by cases hs⟩, fun _ => hok⟩, ?_⟩
      rcases hk with ⟨hr, hk⟩ | ⟨user, hr, hk⟩
      all_goals
        unfold Server.recordOf at hr
        rw [hr]
        exact hk

theorem yields_signIn :
    (FirestoreManager.signIn email password k).Yields (Decided ok) w h w' l ↔
      (¬ ok (.signIn email password) ∧
        ∃ e, (k (some e)).Yields (Decided ok) (signedOut w.1, w.2) h w' l) ∨
      (ok (.signIn email password) ∧ ∃ uid, (w.2.account uid).email = some email ∧
        (FirestoreManager.fetchUpdateUser fun _ => k none).Yields (Decided ok) (signedIn uid w)
          h w' l) := by
  rw [FirestoreManager.signIn, yields_modify, yields_ask]
  constructor
  · rintro ⟨error, w₁, ⟨ha, hok⟩, hk⟩
    cases error with
    | some e =>
      obtain rfl : w₁ = _ := ha
      exact .inl ⟨fun ho => absurd (hok.mp ho).2 nofun, e, hk⟩
    | none =>
      obtain ⟨uid, he, rfl⟩ := id ha
      exact .inr ⟨hok.mpr ⟨ha, rfl⟩, uid, he, hk⟩
  · rintro (⟨hno, e, hk⟩ | ⟨hok, uid, he, hk⟩)
    · exact ⟨some e, _, ⟨rfl, fun ho => absurd ho hno, fun hs => absurd hs.2 nofun⟩, hk⟩
    · have ha : Answers (signedOut w.1, w.2) (.signIn email password) none (signedIn uid w) :=
        ⟨uid, he, rfl⟩
      exact ⟨none, _, ⟨ha, fun _ => ⟨ha, rfl⟩, fun _ => hok⟩, hk⟩

/-! ## Signing up -/

/-- The world once the account was created. -/
def created (email password uid : String) (w : World) : World :=
  ({ w.1 with currentUser := some uid },
    (w.2.setAccount uid { w.2.account uid with email := some email }).record
      [.createUser email password])

def setUser (email : String) (displayName : Option String) (d : Device) : Device :=
  d.setUserManager { d.userManager with user := some { email, displayName } }

/-- The world once the account was created and the local record set. -/
def signedUp (email password : String) (displayName : Option String) (uid : String) (w : World) :
    World :=
  (setUser email displayName (created email password uid w).1, (created email password uid w).2)

def userWritten (uid : String) (data : UserDoc) (w : World) : World :=
  (w.1, (w.2.setAccount uid { w.2.account uid with user := some data }).record [.setUser uid data])

theorem yields_addUser {k : Bool → Prog} :
    (FirestoreManager.addUser uid email displayName k).Yields (Decided ok) w h w' l ↔
      (¬ ok (.setUser uid { email := some email, displayName }) ∧
        (k false).Yields (Decided ok) w h w' l) ∨
      (ok (.setUser uid { email := some email, displayName }) ∧
        (k true).Yields (Decided ok)
          (userWritten uid { email := some email, displayName } w) h w' l) := by
  rw [FirestoreManager.addUser, yields_ask]
  constructor
  · rintro ⟨error, w₁, ⟨ha, hok⟩, hk⟩
    cases error with
    | some e =>
      obtain rfl : w₁ = w := ha
      exact .inl ⟨fun ho => absurd (hok.mp ho).2 nofun, hk⟩
    | none =>
      obtain ⟨a, rfl, rfl⟩ := id ha
      exact .inr ⟨hok.mpr ⟨ha, rfl⟩, hk⟩
  · rintro (⟨hno, hk⟩ | ⟨hok, hk⟩)
    · exact ⟨some "error", w, ⟨rfl, fun ho => absurd ho hno, fun hs => absurd hs.2 nofun⟩, hk⟩
    · have ha : Answers w (.setUser uid { email := some email, displayName }) none
          (userWritten uid { email := some email, displayName } w) := ⟨_, rfl, rfl⟩
      exact ⟨none, _, ⟨ha, fun _ => ⟨ha, rfl⟩, fun _ => hok⟩, hk⟩

/-- Whether the profile change succeeds makes no difference. -/
theorem yields_commitChanges {name : String} {f : Device → Device} {p : Prog} :
    (Program.ask (.commitChanges name) fun _ => .modify f p).Yields (Decided ok) w h w' l ↔
      p.Yields (Decided ok) (f w.1, w.2) h w' l := by
  rw [yields_ask, ← yields_modify]
  constructor
  · rintro ⟨error, w₁, ⟨rfl, -⟩, hk⟩
    exact hk
  · intro hk
    by_cases hok : ok (.commitChanges name)
    · exact ⟨none, w, ⟨rfl, fun _ => ⟨rfl, rfl⟩, fun _ => hok⟩, hk⟩
    · exact ⟨some "error", w, ⟨rfl, fun ho => absurd ho hok, fun hs => absurd hs.2 nofun⟩, hk⟩

theorem yields_signUp {k : Bool → Option String → Prog} :
    (FirestoreManager.signUp email password displayName k).Yields (Decided ok) w h w' l ↔
      (¬ ok (.createUser email password) ∧
        ∃ e, (k false e).Yields (Decided ok) w h w' l) ∨
      (ok (.createUser email password) ∧ ∃ uid, (∀ u, (w.2.account u).email ≠ some email) ∧
        (w.2.account uid).email = none ∧
        (FirestoreManager.addUser uid email displayName fun _ => k true none).Yields (Decided ok)
          (signedUp email password displayName uid w) h w' l) := by
  have hcommit : ∀ name uid, (Program.ask (.commitChanges name) fun _ =>
        .modify (setUser email (some name))
          (FirestoreManager.addUser uid email (some name) fun _ => k true none)).Yields (Decided ok)
        (created email password uid w) h w' l ↔
      (FirestoreManager.addUser uid email (some name) fun _ => k true none).Yields (Decided ok)
        (signedUp email password (some name) uid w) h w' l :=
    fun name uid => yields_commitChanges
  rw [FirestoreManager.signUp, yields_ask]
  constructor
  · rintro ⟨⟨user, error⟩, w₁, ⟨ha, hok⟩, hk⟩
    cases error with
    | some e =>
      obtain rfl : w₁ = w := by cases user <;> exact ha
      exact .inl ⟨fun ho => absurd (hok.mp ho).2.1 nofun, some e, hk⟩
    | none =>
      cases user with
      | none =>
        obtain rfl : w₁ = w := ha
        exact .inl ⟨fun ho => absurd rfl (hok.mp ho).2.2, none, hk⟩
      | some uid =>
        obtain ⟨hfree, hnone, rfl⟩ := id ha
        refine .inr ⟨hok.mpr ⟨ha, rfl, nofun⟩, uid, hfree, hnone, ?_⟩
        cases displayName with
        | none => exact hk
        | some name => exact (hcommit name uid).mp hk
  · rintro (⟨hno, e, hk⟩ | ⟨hok, uid, hfree, hnone, hk⟩)
    · cases e with
      | none => exact ⟨{}, w, ⟨rfl, fun ho => absurd ho hno, fun hs => absurd rfl hs.2.2⟩, hk⟩
      | some e =>
        exact ⟨{ error := some e }, w,
          ⟨rfl, fun ho => absurd ho hno, fun hs => absurd hs.2.1 nofun⟩, hk⟩
    · have ha : Answers w (.createUser email password) { user := some uid } _ :=
        ⟨hfree, hnone, rfl⟩
      refine ⟨{ user := some uid }, _, ⟨ha, fun _ => ⟨ha, rfl, nofun⟩, fun _ => hok⟩, ?_⟩
      cases displayName with
      | none => exact hk
      | some name => exact (hcommit name uid).mpr hk

/-! ## What is reported -/

/-- A sign-in that is reported as done ends with the record that was read, or with what was
there before. -/
theorem signIn_usable_iff :
    (∀ w' l, (signIn email password).call.Yields (Decided ok) w [] w' l →
      (.reported true ∈ l → Usable email w') ∧
      (.reported false ∈ l → w'.1.userManager.user = w.1.userManager.user)) ↔
      Recorded ok w (signIn email password) := by
  constructor
  · intro hall hok uid he
    have hsigned : (signedIn uid w).1.currentUser = some uid := rfl
    have hsame : (signedIn uid w).1.userManager = w.1.userManager := signedOut_userManager w.1
    -- the execution in which the e-mail belongs to `uid`
    have hrun : ∀ w₁, (∀ k : Prog, k.Yields (Decided ok) w₁ [] w₁ [.reported true] →
        (FirestoreManager.fetchUpdateUser fun _ => k).Yields (Decided ok) (signedIn uid w) [] w₁
          [.reported true]) → Usable email w₁ := by
      intro w₁ hfetch
      have hk := hfetch (.emit (.reported true) .stop) (yields_emit_stop.mpr ⟨rfl, rfl⟩)
      have hy : (signIn email password).call.Yields (Decided ok) w [] w₁ [.reported true] :=
        (yields_signIn (k := fun error => .emit (.reported error.isNone) .stop)).mpr
          (.inr ⟨hok, uid, he, hk⟩)
      exact (hall w₁ _ hy).1 List.mem_cons_self
    by_cases hread : ok (.getUser uid)
    · cases hr : w.2.recordOf uid with
      | none =>
        obtain ⟨uid', user, hu, hrec, -, -⟩ := hrun (signedIn uid w) fun k hk =>
          (yields_fetchUpdateUser hsigned).mpr (.inr ⟨hread, .inl ⟨hr, hk⟩⟩)
        obtain rfl : uid = uid' := Option.some.inj (hsigned.symm.trans hu)
        rw [show (signedIn uid w).2 = w.2 from rfl, hr] at hrec
        cases hrec
      | some user =>
        obtain ⟨uid', user', hu, hrec, hmail, -⟩ := hrun (refreshed user (signedIn uid w)) fun k hk =>
          (yields_fetchUpdateUser hsigned).mpr (.inr ⟨hread, .inr ⟨user, hr, hk⟩⟩)
        obtain rfl : uid = uid' := Option.some.inj hu
        obtain rfl : user = user' := Option.some.inj (hr.symm.trans hrec)
        exact ⟨user, rfl, hmail, .inl hread⟩
    · obtain ⟨uid', user, hu, hrec, hmail, huser⟩ := hrun (signedIn uid w) fun k hk =>
        (yields_fetchUpdateUser hsigned).mpr (.inl ⟨hread, hk⟩)
      obtain rfl : uid = uid' := Option.some.inj (hsigned.symm.trans hu)
      exact ⟨user, hrec, hmail, .inr (by rwa [hsame] at huser)⟩
  · intro hrec w' l hy
    rw [call] at hy
    rcases yields_signIn.mp hy with ⟨-, e, hk⟩ | ⟨hok, uid, he, hk⟩
    · obtain ⟨rfl, rfl⟩ := yields_emit_stop.mp hk
      refine ⟨fun hm => by simp at hm, fun _ => ?_⟩
      exact congrArg UserManager.user (signedOut_userManager w.1)
    · have hsigned : (signedIn uid w).1.currentUser = some uid := rfl
      have hsame : (signedIn uid w).1.userManager = w.1.userManager := signedOut_userManager w.1
      obtain ⟨user, hr, hmail, hread⟩ := hrec hok uid he
      rcases (yields_fetchUpdateUser hsigned).mp hk with ⟨hno, hk⟩ | ⟨-, ⟨hnone, -⟩ | ⟨user', hr', hk⟩⟩
      · obtain ⟨rfl, rfl⟩ := yields_emit_stop.mp hk
        refine ⟨fun _ => ⟨uid, user, hsigned, hr, hmail, ?_⟩, fun hm => by simp at hm⟩
        rw [hsame]
        exact hread.resolve_left hno
      · rw [show (signedIn uid w).2 = w.2 from rfl, hr] at hnone
        cases hnone
      · obtain rfl : user = user' := Option.some.inj (hr.symm.trans hr')
        obtain ⟨rfl, rfl⟩ := yields_emit_stop.mp hk
        exact ⟨fun _ => ⟨uid, user, hsigned, hr, hmail, rfl⟩, fun hm => by simp at hm⟩

theorem yields_call_signUp :
    (signUp email password displayName).call.Yields (Decided ok) w h w' l ↔
      (¬ ok (.createUser email password) ∧ w' = w ∧ l = [.reported false]) ∨
      (ok (.createUser email password) ∧ ∃ uid, (∀ u, (w.2.account u).email ≠ some email) ∧
        (w.2.account uid).email = none ∧ l = [.reported true] ∧
        ((¬ ok (.setUser uid { email := some email, displayName }) ∧
            w' = signedUp email password displayName uid w) ∨
          (ok (.setUser uid { email := some email, displayName }) ∧
            w' = userWritten uid { email := some email, displayName }
              (signedUp email password displayName uid w)))) := by
  rw [call, yields_signUp]
  simp only [yields_addUser, yields_emit_stop, exists_const]
  refine or_congr_right (and_congr_right fun _ => exists_congr fun uid => ?_)
  tauto

/-- A sign-up sets the local record at once; the document follows only if it is written. -/
theorem signUp_usable_iff :
    (∀ w' l, (signUp email password displayName).call.Yields (Decided ok) w [] w' l →
      (.reported true ∈ l → Usable email w') ∧
      (.reported false ∈ l → w'.1.userManager.user = w.1.userManager.user)) ↔
      Recorded ok w (signUp email password displayName) := by
  have hkept : ∀ uid, (signedUp email password displayName uid w).2.recordOf uid = w.2.recordOf uid := by
    intro uid
    simp [Server.recordOf, signedUp, created]
  have hwritten : ∀ uid, (userWritten uid { email := some email, displayName }
      (signedUp email password displayName uid w)).2.recordOf uid = some { email, displayName } := by
    intro uid
    simp [Server.recordOf, userWritten, LendUser.init?]
  constructor
  · intro hall hok hfree uid hnone
    by_cases hwrite : ok (.setUser uid { email := some email, displayName })
    · exact .inl hwrite
    · refine .inr ?_
      have hy : (signUp email password displayName).call.Yields (Decided ok) w []
          (signedUp email password displayName uid w) [.reported true] :=
        yields_call_signUp.mpr (.inr ⟨hok, uid, hfree, hnone, rfl, .inl ⟨hwrite, rfl⟩⟩)
      obtain ⟨uid', user, hu, hrec, -, huser⟩ := (hall _ _ hy).1 List.mem_cons_self
      obtain rfl : uid = uid' := Option.some.inj hu
      obtain rfl := Option.some.inj huser
      rw [← hkept]
      exact hrec
  · intro hrec w' l hy
    rcases yields_call_signUp.mp hy with
      ⟨-, rfl, rfl⟩ | ⟨hok, uid, hfree, hnone, rfl, ⟨hno, rfl⟩ | ⟨-, rfl⟩⟩
    · exact ⟨fun hm => by simp at hm, fun _ => rfl⟩
    · have hr := (hrec hok hfree uid hnone).resolve_left hno
      exact ⟨fun _ => ⟨uid, _, rfl, (hkept uid).trans hr, rfl, rfl⟩, fun hm => by simp at hm⟩
    · exact ⟨fun _ => ⟨uid, _, rfl, hwritten uid, rfl, rfl⟩, fun hm => by simp at hm⟩

/-- Reported success means a usable record, and a failed account step leaves the session
record alone, exactly when the record is where the operation ends without looking. -/
theorem authentication_usable_iff (a : Authentication) (ok : Request → Prop) (w : World) :
    (∀ w' l, a.call.Yields (Decided ok) w [] w' l →
      (.reported true ∈ l → Usable a.email w') ∧
      (.reported false ∈ l → w'.1.userManager.user = w.1.userManager.user)) ↔
      Recorded ok w a := by
  cases a with
  | signIn email password => exact signIn_usable_iff
  | signUp email password displayName => exact signUp_usable_iff

/-- The record cannot be read; everything else succeeds. -/
def readFails : Request → Prop
  | .getUser _ => False
  | _ => True

/-- Ben has an account; the session record is still Ann's. -/
def benWorld : World :=
  (donorWorld.1, donorWorld.2.setAccount "ben" { email := some "ben@mail.com"
                                                 user := some { email := some "ben@mail.com" } })

/-- Ben's sign-in is reported as done while the session record stays Ann's. -/
theorem not_authentication_usable :
    ¬ ∀ (a : Authentication) (ok : Request → Prop) (w w' : World) (l : List Effect),
      a.call.Yields (Decided ok) w [] w' l →
      (.reported true ∈ l → Usable a.email w') ∧
      (.reported false ∈ l → w'.1.userManager.user = w.1.userManager.user) := by
  intro h
  have hrec : Recorded readFails benWorld (signIn "ben@mail.com" "password") :=
    signIn_usable_iff.mp fun w' l => h _ _ _ w' l
  obtain ⟨user, hr, hmail, hread | hsame⟩ := hrec trivial "ben" (by simp [benWorld])
  · exact hread
  · obtain rfl := Option.some.inj hsame
    revert hmail
    decide

end Authentication

end Pledge
