import Pledge.Authentication
import Pledge.EventLoop.Histories
import Pledge.Validator

/-!
# The forms of the authentication screens

The fields of `SignInViewController` and `SignUpViewController`: when a field is checked, what is sent,
and what is shown below a field after an answer. A text changes only in the field that is being edited,
and while an answer is awaited the activity view covers the screen.
-/

namespace Pledge

open EventLoop

/-- `trimmedCount` is the number of characters without the white space around them. -/
def Validator.isPasswordValid (trimmedCount : String → ℕ) (password : String) : Bool :=
  decide (6 ≤ trimmedCount password)

open Constants.Error

/-- The label and the icon of an error are hidden where there is none. -/
structure InputView where
  text : String := ""
  error : Option String := none
deriving DecidableEq, Repr

inductive AuthField
  | name
  | email
  | password
deriving DecidableEq, Repr

/-- What `AuthErrorCode(rawValue:)` makes of the code of an error. -/
inductive AuthErrorCode
  | emailAlreadyInUse
  | userNotFound
  | wrongPassword
  | other
deriving DecidableEq, Repr

inductive AuthScreen
  | signIn
  | signUp
deriving DecidableEq, Repr

inductive AuthRequest
  | authenticate (authentication : Authentication)
  | resetPassword (email : String)
deriving DecidableEq, Repr

/-- A failure has the code of its error, if that has a known one. -/
inductive AuthAnswer
  | success
  | failure (errorCode : Option AuthErrorCode) (message : String)
deriving DecidableEq, Repr

inductive AuthEvent
  | handleTap (field : AuthField)
  | edited (text : String)
  | tapRecognizer
  | authButtonPressed
  | forgotPasswordButtonPressed
  | answered (answer : AuthAnswer)
deriving DecidableEq, Repr

inductive AuthEffect
  | redirectToWelcome
  | redirectToStartDonate
  | showToastAlert (message : String) (success : Bool)
deriving DecidableEq, Repr

/-- `request` is awaited under the activity view. -/
structure AuthForm where
  nameInputView : InputView := {}
  emailInputView : InputView := {}
  passwordInputView : InputView := {}
  firstResponder : Option AuthField := none
  request : Option AuthRequest := none
deriving DecidableEq, Repr

namespace AuthForm

def username (vc : AuthForm) : String := vc.nameInputView.text

def email (vc : AuthForm) : String := vc.emailInputView.text

def password (vc : AuthForm) : String := vc.passwordInputView.text

def setEmailError (error : Option String) (vc : AuthForm) : AuthForm :=
  { vc with emailInputView := { vc.emailInputView with error } }

def setPasswordError (error : Option String) (vc : AuthForm) : AuthForm :=
  { vc with passwordInputView := { vc.passwordInputView with error } }

def updateEmailInputView (vc : AuthForm) : AuthForm :=
  if Validator.isEmailValid vc.email then vc.setEmailError none
  else vc.setEmailError (some emailInputError)

variable (trimmedCount : String → ℕ)

/-- The `updatePasswordInputView` of both screens, `message` apart. -/
def updatePasswordInputViewWith (message : String) (vc : AuthForm) : AuthForm :=
  if Validator.isPasswordValid trimmedCount vc.password then vc.setPasswordError none
  else vc.setPasswordError (some message)

/-- The press of the button of both screens, after `view.endEditing(true)`. -/
def submit (message : String) (authentication : AuthForm → Authentication) (vc : AuthForm) : AuthForm :=
  if Validator.isEmailValid vc.email then
    let vc := vc.setEmailError none
    if Validator.isPasswordValid trimmedCount vc.password then
      let vc := vc.setPasswordError none
      { vc with request := some (.authenticate (authentication vc)) }
    else vc.setPasswordError (some message)
  else vc.setEmailError (some emailInputError)

end AuthForm

namespace SignInViewController

def passwordError : String := "Please enter your password"

def updatePasswordInputView (trimmedCount : String → ℕ) (vc : AuthForm) : AuthForm :=
  vc.updatePasswordInputViewWith trimmedCount passwordError

def manageAuthError (errorCode : Option AuthErrorCode) (vc : AuthForm) : AuthForm :=
  let vc := (vc.setEmailError none).setPasswordError none
  match errorCode with
  | some .userNotFound => vc.setEmailError (some "User not found")
  | some .wrongPassword => vc.setPasswordError (some "Wrong Password")
  | _ => (vc.setEmailError (some "")).setPasswordError (some unexpectedError)

def signInButtonPressed (trimmedCount : String → ℕ) (vc : AuthForm) : AuthForm :=
  vc.submit trimmedCount passwordError fun vc => .signIn vc.email vc.password

def forgotPasswordButtonPressed (vc : AuthForm) : AuthForm :=
  if Validator.isEmailValid vc.email then
    { vc.setEmailError none with request := some (.resetPassword vc.email) }
  else vc.setEmailError (some emailInputError)

end SignInViewController

namespace SignUpViewController

def updatePasswordInputView (trimmedCount : String → ℕ) (vc : AuthForm) : AuthForm :=
  vc.updatePasswordInputViewWith trimmedCount passwordInputError

def manageAuthError (errorCode : Option AuthErrorCode) (vc : AuthForm) : AuthForm :=
  let vc := (vc.setEmailError none).setPasswordError none
  match errorCode with
  | some .emailAlreadyInUse => vc.setEmailError (some "The email is already in use")
  | _ => (vc.setEmailError (some "")).setPasswordError (some unexpectedError)

def validDisplayName (vc : AuthForm) : Option String :=
  if vc.username.isEmpty then none else some vc.username

def signUpButtonPressed (trimmedCount : String → ℕ) (vc : AuthForm) : AuthForm :=
  vc.submit trimmedCount passwordInputError fun vc => .signUp vc.email vc.password (validDisplayName vc)

end SignUpViewController

namespace AuthScreen

def updatePasswordInputView (trimmedCount : String → ℕ) : AuthScreen → AuthForm → AuthForm
  | signIn => SignInViewController.updatePasswordInputView trimmedCount
  | signUp => SignUpViewController.updatePasswordInputView trimmedCount

def manageAuthError : AuthScreen → Option AuthErrorCode → AuthForm → AuthForm
  | signIn => SignInViewController.manageAuthError
  | signUp => SignUpViewController.manageAuthError

def authButtonPressed (trimmedCount : String → ℕ) : AuthScreen → AuthForm → AuthForm
  | signIn => SignInViewController.signInButtonPressed trimmedCount
  | signUp => SignUpViewController.signUpButtonPressed trimmedCount

def redirect : AuthScreen → AuthEffect
  | signIn => .redirectToWelcome
  | signUp => .redirectToStartDonate

/-- `onDidEndEditing`; the name has none. -/
def onDidEndEditing (trimmedCount : String → ℕ) (s : AuthScreen) : AuthField → AuthForm → AuthForm
  | .name, vc => vc
  | .email, vc => vc.updateEmailInputView
  | .password, vc => s.updatePasswordInputView trimmedCount vc

/-- `view.endEditing(true)`. -/
def endEditing (trimmedCount : String → ℕ) (s : AuthScreen) (vc : AuthForm) : AuthForm :=
  match vc.firstResponder with
  | some field => { s.onDidEndEditing trimmedCount field vc with firstResponder := none }
  | none => vc

/-- A change of the text in the field that is being edited. -/
def edited (text : String) (vc : AuthForm) : Option AuthForm :=
  vc.firstResponder.map fun
    | .name => { vc with nameInputView := { vc.nameInputView with text } }
    | .email => { vc with emailInputView := { vc.emailInputView with text } }
    | .password => { vc with passwordInputView := { vc.passwordInputView with text } }

def answered (s : AuthScreen) (request : AuthRequest) (answer : AuthAnswer) (vc : AuthForm) :
    AuthForm × Option AuthEffect :=
  let vc := { vc with request := none }
  match request, answer with
  | .authenticate _, .success => (vc, some s.redirect)
  | .authenticate _, .failure errorCode _ => (s.manageAuthError errorCode vc, none)
  | .resetPassword _, .success =>
    (vc, some (.showToastAlert "Check the email to reset password" true))
  | .resetPassword _, .failure _ message => (vc, some (.showToastAlert message false))

def step (trimmedCount : String → ℕ) (s : AuthScreen) (vc : AuthForm) (e : AuthEvent) :
    Option (AuthForm × Option AuthEffect) :=
  match vc.request, e with
  | some request, .answered answer => some (s.answered request answer vc)
  | some _, _ => none
  | none, .handleTap field =>
    if field = .name ∧ s = .signIn then none
    else if vc.firstResponder = some field then some (vc, none)
    else some ({ s.endEditing trimmedCount vc with firstResponder := some field }, none)
  | none, .edited text => (edited text vc).map fun vc => (vc, none)
  | none, .tapRecognizer => some (s.endEditing trimmedCount vc, none)
  | none, .authButtonPressed => some (s.authButtonPressed trimmedCount (s.endEditing trimmedCount vc), none)
  | none, .forgotPasswordButtonPressed =>
    if s = .signIn then
      some (SignInViewController.forgotPasswordButtonPressed (s.endEditing trimmedCount vc), none)
    else none
  | none, .answered _ => none

/-- A touch or an answer, as the form sees it. -/
def Step (trimmedCount : String → ℕ) (s : AuthScreen) (vc : AuthForm) (e : AuthEvent) (vc' : AuthForm) : Prop :=
  ∃ effect, s.step trimmedCount vc e = some (vc', effect)

end AuthScreen

/-- An authentication that was answered with a failure. -/
structure Rejection where
  authentication : Authentication
  errorCode : Option AuthErrorCode

/-- The last rejection, kept along a run. -/
def reject (last : Option Rejection) (vc : AuthForm) (e : AuthEvent) (_ : AuthForm) : Option Rejection :=
  match vc.request, e with
  | some (.authenticate authentication), .answered (.failure errorCode _) => some ⟨authentication, errorCode⟩
  | _, _ => last

namespace AuthScreen

/-- The form after a sequence of events, and the last rejection among them. -/
abbrev Reached (trimmedCount : String → ℕ) (s : AuthScreen) (t : AuthForm × Option Rejection) : Prop :=
  History (recorded (s.Step trimmedCount) reject) (fun _ _ => True) ({}, none) t

/-! ## What is shown and sent -/

def passwordError : AuthScreen → String
  | signIn => SignInViewController.passwordError
  | signUp => passwordInputError

/-- What the fields sign in or up. -/
def authentication : AuthScreen → AuthForm → Authentication
  | signIn, vc => .signIn vc.email vc.password
  | signUp, vc => .signUp vc.email vc.password (SignUpViewController.validDisplayName vc)

/-- The error below the e-mail after a rejection. -/
def emailVerdict : AuthScreen → Option AuthErrorCode → Option String
  | signIn, some .userNotFound => some "User not found"
  | signIn, some .wrongPassword => none
  | signUp, some .emailAlreadyInUse => some "The email is already in use"
  | _, _ => some ""

/-- The error below the password after a rejection. -/
def passwordVerdict : AuthScreen → Option AuthErrorCode → Option String
  | signIn, some .userNotFound => none
  | signIn, some .wrongPassword => some "Wrong Password"
  | signUp, some .emailAlreadyInUse => none
  | _, _ => some unexpectedError

end AuthScreen

def Authentication.password : Authentication → String
  | signIn _ password => password
  | signUp _ password _ => password

/-- The error below a field is its message exactly where the text is not valid, an empty text apart;
any other error is one that `Given` accounts for. -/
structure Told (valid : Bool) (message text : String) (error : Option String) (Given : String → Prop) :
    Prop where
  invalid : error = some message → valid = false
  told : valid = false → text ≠ "" → error = some message
  given : ∀ m, error = some m → m ≠ message → Given m

/-- What a form may show and send after the rejection `last`. A field says of its own text what the
last rejection said, and nothing else; what is sent are the texts, and they have been checked. -/
structure AuthForm.Truthful (trimmedCount : String → ℕ) (s : AuthScreen) (last : Option Rejection)
    (vc : AuthForm) : Prop where
  email : vc.firstResponder ≠ some .email →
    Told (Validator.isEmailValid vc.email) emailInputError vc.email vc.emailInputView.error fun m =>
      ∃ r, last = some r ∧ r.authentication.email = vc.email ∧ s.emailVerdict r.errorCode = some m
  password : vc.firstResponder ≠ some .password →
    Told (Validator.isPasswordValid trimmedCount vc.password) s.passwordError vc.password
      vc.passwordInputView.error fun m =>
        ∃ r, last = some r ∧ r.authentication.password = vc.password ∧ s.passwordVerdict r.errorCode = some m
  request : ∀ request, vc.request = some request →
    vc.firstResponder = none ∧ Validator.isEmailValid vc.email = true ∧ vc.emailInputView.error = none ∧
      (request = .authenticate (s.authentication vc) ∧ vc.passwordInputView.error = none ∧
          Validator.isPasswordValid trimmedCount vc.password = true ∨
        s = .signIn ∧ request = .resetPassword vc.email)

/-! ## Every event -/

section Told

variable {valid : Bool} {message text : String} {Given : String → Prop}

theorem told_none (h : valid = true) : Told valid message text none Given where
  invalid he := by cases he
  told hf := absurd (h.symm.trans hf) (by simp)
  given _ he := by cases he

theorem told_message (h : valid = false) : Told valid message text (some message) Given where
  invalid _ := h
  told _ _ := rfl
  given _ he hne := absurd (Option.some.inj he).symm hne

/-- The error after a check. -/
def checked (valid : Bool) (message : String) : Option String := if valid then none else some message

theorem told_checked : Told valid message text (checked valid message) Given := by
  cases valid with
  | true => exact told_none rfl
  | false => exact told_message rfl

theorem told_given {error : Option String} (h : valid = true) (hne : error ≠ some message)
    (hgiven : ∀ m, error = some m → Given m) : Told valid message text error Given where
  invalid he := absurd he hne
  told hf := absurd (h.symm.trans hf) (by simp)
  given m he _ := hgiven m he

end Told

namespace AuthScreen

variable {trimmedCount : String → ℕ} {s : AuthScreen} {last : Option Rejection} {vc vc' : AuthForm}

theorem manageAuthError_eq (s : AuthScreen) (errorCode : Option AuthErrorCode) (vc : AuthForm) :
    s.manageAuthError errorCode vc =
      (vc.setEmailError (s.emailVerdict errorCode)).setPasswordError (s.passwordVerdict errorCode) := by
  rcases s with _ | _ <;> rcases errorCode with _ | _ | _ | _ | _ <;> rfl

theorem authButtonPressed_eq (s : AuthScreen) (vc : AuthForm) :
    s.authButtonPressed trimmedCount vc = vc.submit trimmedCount s.passwordError s.authentication := by
  cases s <;> rfl

theorem updatePasswordInputView_eq (s : AuthScreen) (vc : AuthForm) :
    s.updatePasswordInputView trimmedCount vc =
      vc.updatePasswordInputViewWith trimmedCount s.passwordError := by
  cases s <;> rfl

theorem emailVerdict_ne (s : AuthScreen) (errorCode : Option AuthErrorCode) :
    s.emailVerdict errorCode ≠ some emailInputError := by
  rcases s with _ | _ <;> rcases errorCode with _ | _ | _ | _ | _ <;> decide

theorem passwordVerdict_ne (s : AuthScreen) (errorCode : Option AuthErrorCode) :
    s.passwordVerdict errorCode ≠ some s.passwordError := by
  rcases s with _ | _ <;> rcases errorCode with _ | _ | _ | _ | _ <;> decide

theorem authentication_email (s : AuthScreen) (vc : AuthForm) : (s.authentication vc).email = vc.email := by
  cases s <;> rfl

theorem authentication_password (s : AuthScreen) (vc : AuthForm) :
    (s.authentication vc).password = vc.password := by
  cases s <;> rfl

/-- The errors after the end of editing. -/
theorem onDidEndEditing_eq (s : AuthScreen) (field : AuthField) (vc : AuthForm) :
    s.onDidEndEditing trimmedCount field vc = match field with
      | .name => vc
      | .email => vc.setEmailError (checked (Validator.isEmailValid vc.email) emailInputError)
      | .password =>
        vc.setPasswordError (checked (Validator.isPasswordValid trimmedCount vc.password) s.passwordError) := by
  cases field with
  | name => rfl
  | email =>
    simp only [onDidEndEditing, AuthForm.updateEmailInputView, checked]
    split <;> rfl
  | password =>
    simp only [onDidEndEditing, updatePasswordInputView_eq, AuthForm.updatePasswordInputViewWith, checked]
    split <;> rfl

theorem endEditing_firstResponder (trimmedCount : String → ℕ) (s : AuthScreen) (vc : AuthForm) :
    (s.endEditing trimmedCount vc).firstResponder = none := by
  unfold endEditing
  split
  · rfl
  · assumption

theorem endEditing_request (trimmedCount : String → ℕ) (s : AuthScreen) (vc : AuthForm) :
    (s.endEditing trimmedCount vc).request = vc.request := by
  unfold endEditing
  split
  · rw [onDidEndEditing_eq]
    split <;> rfl
  · rfl

/-- Where nothing is awaited. -/
theorem truthful_idle (hr : vc.request = none)
    (hemail : vc.firstResponder ≠ some .email →
      Told (Validator.isEmailValid vc.email) emailInputError vc.email vc.emailInputView.error fun m =>
        ∃ r, last = some r ∧ r.authentication.email = vc.email ∧ s.emailVerdict r.errorCode = some m)
    (hpassword : vc.firstResponder ≠ some .password →
      Told (Validator.isPasswordValid trimmedCount vc.password) s.passwordError vc.password
        vc.passwordInputView.error fun m => ∃ r, last = some r ∧
          r.authentication.password = vc.password ∧ s.passwordVerdict r.errorCode = some m) :
    vc.Truthful trimmedCount s last :=
  ⟨hemail, hpassword, fun _ he => absurd (hr.symm.trans he) (by simp)⟩

/-- The form that is not edited any more is checked. -/
theorem truthful_endEditing (h : vc.Truthful trimmedCount s last) (hr : vc.request = none) :
    (s.endEditing trimmedCount vc).Truthful trimmedCount s last := by
  cases hf : vc.firstResponder with
  | none =>
    rw [endEditing, hf]
    exact h
  | some field =>
    rw [endEditing, hf]
    dsimp only
    rw [onDidEndEditing_eq]
    cases field with
    | name => exact truthful_idle hr (fun _ => h.email (by simp [hf])) fun _ => h.password (by simp [hf])
    | email => exact truthful_idle hr (fun _ => told_checked) fun _ => h.password (by simp [hf])
    | password => exact truthful_idle hr (fun _ => h.email (by simp [hf])) fun _ => told_checked

/-- What the button sends has been checked. -/
theorem truthful_submit (h : vc.Truthful trimmedCount s last) (hf : vc.firstResponder = none)
    (hr : vc.request = none) :
    (vc.submit trimmedCount s.passwordError s.authentication).Truthful trimmedCount s last := by
  have hpassword := h.password (by simp [hf])
  unfold AuthForm.submit
  split
  case isTrue hvalid =>
    dsimp only
    split
    case isTrue hvalidPassword =>
      refine ⟨fun _ => told_none hvalid, fun _ => told_none hvalidPassword, fun request he => ?_⟩
      have hrequest := (Option.some.inj he).symm
      refine ⟨hf, hvalid, rfl, .inl ⟨hrequest.trans ?_, rfl, hvalidPassword⟩⟩
      cases s <;> rfl
    case isFalse hinvalid =>
      exact truthful_idle hr (fun _ => told_none hvalid) fun _ => told_message (eq_false_of_ne_true hinvalid)
  case isFalse hinvalid =>
    exact truthful_idle hr (fun _ => told_message (eq_false_of_ne_true hinvalid)) fun _ => hpassword

theorem truthful_forgotPassword (h : vc.Truthful trimmedCount .signIn last) (hf : vc.firstResponder = none)
    (hr : vc.request = none) :
    (SignInViewController.forgotPasswordButtonPressed vc).Truthful trimmedCount .signIn last := by
  have hpassword := h.password (by simp [hf])
  unfold SignInViewController.forgotPasswordButtonPressed
  split
  case isTrue hvalid =>
    refine ⟨fun _ => told_none hvalid, fun _ => hpassword, fun request he => ?_⟩
    exact ⟨hf, hvalid, rfl, .inr ⟨rfl, (Option.some.inj he).symm⟩⟩
  case isFalse hinvalid =>
    exact truthful_idle hr (fun _ => told_message (eq_false_of_ne_true hinvalid)) fun _ => hpassword

/-- While a text is being edited only the other field is checked. -/
theorem truthful_edited {text : String} (h : vc.Truthful trimmedCount s last) (hr : vc.request = none)
    (he : edited text vc = some vc') : vc'.Truthful trimmedCount s last := by
  obtain ⟨field, hfield, rfl⟩ := Option.map_eq_some_iff.mp he
  cases field with
  | name => exact truthful_idle hr h.email h.password
  | email => exact truthful_idle hr (fun hne => absurd hfield hne) h.password
  | password => exact truthful_idle hr h.email fun hne => absurd hfield hne

/-- An answer is about the texts that were sent, and these are still in the fields. -/
theorem truthful_answered {request : AuthRequest} (h : vc.Truthful trimmedCount s last)
    (hr : vc.request = some request) (answer : AuthAnswer) (vc' : AuthForm) :
    (s.answered request answer vc).1.Truthful trimmedCount s (reject last vc (.answered answer) vc') := by
  obtain ⟨hf, hvalid, -, hrequest⟩ := h.request request hr
  have hemail := h.email (by simp [hf])
  have hpassword := h.password (by simp [hf])
  have hsame : AuthForm.Truthful trimmedCount s last { vc with request := none } :=
    truthful_idle rfl (fun _ => hemail) fun _ => hpassword
  unfold reject
  rcases hrequest with ⟨rfl, -, hvalidPassword⟩ | ⟨-, rfl⟩
  · cases answer with
    | success => simpa only [answered, hr] using hsame
    | failure errorCode message =>
      simp only [answered, manageAuthError_eq, hr]
      refine truthful_idle rfl (fun _ => told_given hvalid (s.emailVerdict_ne errorCode) fun m hm => ?_)
        fun _ => told_given hvalidPassword (s.passwordVerdict_ne errorCode) fun m hm => ?_
      · exact ⟨_, rfl, s.authentication_email vc, hm⟩
      · exact ⟨_, rfl, s.authentication_password vc, hm⟩
  · cases answer <;> simpa only [answered, hr] using hsame

theorem truthful_step {e : AuthEvent} (h : vc.Truthful trimmedCount s last)
    (hs : s.Step trimmedCount vc e vc') : vc'.Truthful trimmedCount s (reject last vc e vc') := by
  obtain ⟨effect, hs⟩ := hs
  cases hr : vc.request with
  | some request =>
    cases e with
    | answered answer =>
      simp only [step, hr, Option.some.injEq] at hs
      have hanswered := truthful_answered h hr answer vc'
      rwa [hs] at hanswered
    | _ => simp [step, hr] at hs
  | none =>
    have hlast : reject last vc e vc' = last := by simp [reject, hr]
    have hend := truthful_endEditing h hr
    have hfirst := endEditing_firstResponder trimmedCount s vc
    have hrequest := (endEditing_request trimmedCount s vc).trans hr
    rw [hlast]
    cases e with
    | handleTap field =>
      simp only [step, hr] at hs
      split at hs
      · cases hs
      split at hs
      · cases hs
        exact h
      · cases hs
        exact truthful_idle hrequest (fun _ => hend.email (by simp [hfirst]))
          fun _ => hend.password (by simp [hfirst])
    | edited text =>
      simp only [step, hr, Option.map_eq_some_iff] at hs
      obtain ⟨vc₁, he, hs⟩ := hs
      cases hs
      exact truthful_edited h hr he
    | tapRecognizer =>
      simp only [step, hr] at hs
      cases hs
      exact hend
    | authButtonPressed =>
      simp only [step, hr, authButtonPressed_eq] at hs
      cases hs
      exact truthful_submit hend hfirst hrequest
    | forgotPasswordButtonPressed =>
      simp only [step, hr] at hs
      split at hs
      · rename_i hsignIn
        subst hsignIn
        cases hs
        exact truthful_forgotPassword hend hfirst hrequest
      · cases hs
    | answered answer => simp [step, hr] at hs

/-- However a form is used and answered: below a field that is not being edited stands its message
exactly where the text is not valid, or else what the last rejection said of this text; and what is
sent are the texts of the fields, checked, with no error shown beside them. -/
theorem truthful_of_history (h : s.Reached trimmedCount (vc, last)) : vc.Truthful trimmedCount s last := by
  refine h.invariant (I := fun t => t.1.Truthful trimmedCount s t.2) ?_ ?_
  · rintro ⟨vc, last⟩ e ⟨vc', last'⟩ htruthful - ⟨hs, hlast⟩
    rw [show last' = reject last vc e vc' from hlast]
    exact truthful_step htruthful hs
  · have htold : ∀ {valid message} {Given : String → Prop}, Told valid message "" none Given :=
      ⟨fun he => (by cases he), fun _ hne => absurd rfl hne, fun _ he => (by cases he)⟩
    exact truthful_idle rfl (fun _ => htold) fun _ => htold

/-- Ann's form with her e-mail. -/
def annForm : AuthForm := { emailInputView := { text := "ann@mail.com" } }

/-- Ann has the wrong password, and is told so below it. -/
theorem truthful_of_history_ann : ∃ last : Option Rejection,
    AuthForm.Truthful String.length .signIn last
      { annForm with passwordInputView := { text := "lender", error := some "Wrong Password" } } := by
  have hemail : AuthScreen.signIn.Reached String.length ({ firstResponder := some .email }, none) :=
    .note (e := .handleTap .email) .refl trivial ⟨_, rfl⟩
  have hann : AuthScreen.signIn.Reached String.length ({ annForm with firstResponder := some .email }, none) :=
    hemail.note (e := .edited "ann@mail.com") trivial ⟨_, rfl⟩
  have hpassword : AuthScreen.signIn.Reached String.length
      ({ annForm with firstResponder := some .password }, none) :=
    hann.note (e := .handleTap .password) trivial ⟨none, by decide⟩
  have hlender : AuthScreen.signIn.Reached String.length
      ({ annForm with passwordInputView := { text := "lender" }, firstResponder := some .password }, none) :=
    hpassword.note (e := .edited "lender") trivial ⟨_, rfl⟩
  have hsent : AuthScreen.signIn.Reached String.length
      ({ annForm with
          passwordInputView := { text := "lender" }
          request := some (.authenticate (.signIn "ann@mail.com" "lender")) }, none) :=
    hlender.note (e := .authButtonPressed) trivial ⟨none, by decide⟩
  have hrejected : AuthScreen.signIn.Reached String.length
      ({ annForm with passwordInputView := { text := "lender", error := some "Wrong Password" } }, _) :=
    hsent.note (e := .answered (.failure (some .wrongPassword) "wrong password")) trivial ⟨_, rfl⟩
  exact ⟨_, truthful_of_history hrejected⟩

end AuthScreen

end Pledge
