import Pledge.NetworkManager
import Pledge.World

/-!
# PaymentManager

One call of `pay`: the sheet, its authorisations, the Stripe tokens, the payment requests
and their replies, which come in any order.
-/

namespace Pledge

open NetworkManager (Reply)

/-- One request to the payment endpoint; `late` when the sheet was gone before it was sent,
`processed` when the server has taken the amount. -/
structure Post where
  amount : Int
  token : String
  isOneTimeMode : Bool
  late : Bool
  processed : Bool := false
  reply : Option Reply := none
deriving DecidableEq, Repr

/-- Where one `didAuthorizePayment` has got to. -/
inductive Attempt
  | creatingToken
  | failed
  | posted (post : Post)
deriving DecidableEq, Repr

inductive Sheet
  | presented
  | dismissing
  | dismissed
deriving DecidableEq, Repr

/-- A `PaymentManager` after `pay`; `reported` is what `paymentCallback` was called with. -/
structure PaymentSession where
  user : Option LendUser
  amount : Int
  isOneTimeMode : Bool
  stripeTokenId : Option String := none
  sheet : Sheet := .presented
  attempts : List Attempt := []
  reported : Option PaymentResult := none
deriving DecidableEq, Repr

inductive PaymentEvent
  | didAuthorizePayment
  | tokenCreated (index : ℕ) (token : Option String)
  | processed (index : ℕ)
  | replied (index : ℕ) (reply : Reply)
  | didFinish
  | dismissed
deriving DecidableEq, Repr

namespace Post

def Accepted (post : Post) : Prop := ∃ reply, post.reply = some reply ∧ reply.accepts = true

end Post

namespace Attempt

def post? : Attempt → Option Post
  | posted post => some post
  | _ => none

/-- No token, no user, or a reply other than success while the sheet was there. -/
def TurnedDown : Attempt → Prop
  | creatingToken => False
  | failed => True
  | posted post => post.late = false ∧ ∃ reply, post.reply = some reply ∧ reply.accepts = false

/-- What the server has taken in this attempt. -/
def charge? : Attempt → Option (Int × Bool)
  | posted post => if post.processed then some (post.amount, post.isOneTimeMode) else none
  | _ => none

/-- The same, without a request that was sent after the sheet was gone. -/
def timelyCharge? : Attempt → Option (Int × Bool)
  | posted post => if post.late then none else (posted post).charge?
  | _ => none

end Attempt

namespace PaymentSession

/-- `pay(to:amount:isOneTimeMode:)` of a new `PaymentManager`. -/
def pay (user : Option LendUser) (amount : Int) (isOneTimeMode : Bool) : PaymentSession :=
  { user, amount, isOneTimeMode }

/-- The callback of `createToken`; without a user `subscriptionPayment` fails at once. -/
def createdToken (s : PaymentSession) : Option String → Attempt
  | none => .failed
  | some token =>
    match s.user with
    | none => .failed
    | some _ =>
      .posted { amount := s.amount, token, isOneTimeMode := s.isOneTimeMode
                late := decide (s.sheet = .dismissed) }

/-- The closure in `paymentAuthorizationViewControllerDidFinish`. -/
def callback (s : PaymentSession) : PaymentResult :=
  match s.stripeTokenId with
  | some token => .success token
  | none => .failure

/-- One event. The server accepts only what it has processed. -/
def step : PaymentEvent → PaymentSession → Option PaymentSession
  | .didAuthorizePayment, s =>
    if s.sheet = .presented then some { s with attempts := s.attempts ++ [.creatingToken] } else none
  | .tokenCreated index token, s =>
    match s.attempts[index]? with
    | some .creatingToken =>
      some { s with attempts := s.attempts.set index (s.createdToken token) }
    | _ => none
  | .processed index, s =>
    match s.attempts[index]? with
    | some (.posted post) =>
      if post.processed then none
      else some { s with attempts := s.attempts.set index (.posted { post with processed := true }) }
    | _ => none
  | .replied index reply, s =>
    match s.attempts[index]? with
    | some (.posted post) =>
      if post.reply = none ∧ (reply.accepts → post.processed) then
        some { s with
          attempts := s.attempts.set index (.posted { post with reply := some reply })
          stripeTokenId := if reply.accepts then some post.token else s.stripeTokenId }
      else none
    | _ => none
  | .didFinish, s => if s.sheet = .presented then some { s with sheet := .dismissing } else none
  | .dismissed, s =>
    if s.sheet = .dismissing then some { s with sheet := .dismissed, reported := some s.callback }
    else none

def steps (l : List PaymentEvent) (s : PaymentSession) : Option PaymentSession :=
  l.foldlM (fun s e => step e s) s

def post? (s : PaymentSession) (index : ℕ) : Option Post :=
  s.attempts[index]?.bind Attempt.post?

def charges (s : PaymentSession) : List (Int × Bool) := s.attempts.filterMap Attempt.charge?

def timelyCharges (s : PaymentSession) : List (Int × Bool) :=
  s.attempts.filterMap Attempt.timelyCharge?

/-- At most one charge is taken, and the callback reports success exactly when one charge
of the requested amount is taken by the requests sent before the callback. -/
structure Truthful (s : PaymentSession) : Prop where
  once : s.charges.length ≤ 1
  report : ∀ result, s.reported = some result →
    (result ≠ .failure ↔ s.timelyCharges = [(s.amount, s.isOneTimeMode)])

/-- The sheet asks for another authorisation when every earlier one was turned down, and goes
when every request has its reply; the server takes a request before it replies to it, and
replies to one that it has taken with success. A request sent once the sheet is gone is free. -/
def Orderly (s : PaymentSession) : PaymentEvent → Prop
  | .didAuthorizePayment => ∀ attempt ∈ s.attempts, attempt.TurnedDown
  | .processed index => ∀ post, s.post? index = some post → post.late = true ∨ post.reply = none
  | .replied index reply => ∀ post, s.post? index = some post → post.processed = true →
      post.late = true ∨ reply.accepts = true
  | .dismissed => ∀ index post, s.post? index = some post → post.reply ≠ none
  | _ => True

/-- What a truthful session needs of its next event to stay so. -/
def Careful (s : PaymentSession) : PaymentEvent → Prop
  | .processed index => s.charges = [] ∧
      (s.sheet = .dismissed → ∀ post, s.post? index = some post → post.late = true)
  | .dismissed => ∀ index post, s.post? index = some post → post.processed = true → post.Accepted
  | _ => True

def TruthfulAlong (l : List PaymentEvent) (s : PaymentSession) : Prop :=
  ∀ l₁ s₁, l₁ <+: l → steps l₁ s = some s₁ → s₁.Truthful

/-- Every event of `l` satisfies `P` where it occurs. -/
def Along (P : PaymentSession → PaymentEvent → Prop) (l : List PaymentEvent)
    (s : PaymentSession) : Prop :=
  ∀ l₁ e s₁, l₁ ++ [e] <+: l → steps l₁ s = some s₁ → P s₁ e

/-! ## What always holds -/

/-- The facts about one request that no event changes. -/
structure Fits (s : PaymentSession) (post : Post) : Prop where
  user : s.user ≠ none
  amount : post.amount = s.amount
  mode : post.isOneTimeMode = s.isOneTimeMode
  accepted : post.Accepted → post.processed = true
  late : post.late = true → s.sheet = .dismissed

structure Inv (s : PaymentSession) : Prop where
  fits : ∀ index post, s.post? index = some post → s.Fits post
  token : s.stripeTokenId ≠ none ↔ ∃ index post, s.post? index = some post ∧ post.Accepted
  reported : s.reported ≠ none ↔ s.sheet = .dismissed
  success : ∀ token, s.reported = some (.success token) → s.stripeTokenId ≠ none

theorem inv_pay (user : Option LendUser) (amount : Int) (isOneTimeMode : Bool) :
    (pay user amount isOneTimeMode).Inv := by
  constructor <;> simp [pay, post?]

section Step

variable {s s' : PaymentSession} {e : PaymentEvent} {index : ℕ} {old attempt : Attempt} {post : Post}

theorem attempts_of_post? (h : s.post? index = some post) :
    s.attempts[index]? = some (.posted post) := by
  obtain ⟨a, ha, hp⟩ := Option.bind_eq_some_iff.mp h
  cases a with
  | posted post' =>
    cases hp
    exact ha
  | creatingToken | failed => cases hp

theorem post?_of_attempts (h : s.attempts[index]? = some attempt) :
    s.post? index = attempt.post? := by
  simp [post?, h]

theorem post?_append (ha : s'.attempts = s.attempts ++ [.creatingToken]) (i : ℕ) :
    s'.post? i = s.post? i := by
  rw [post?, post?, ha, List.getElem?_append]
  split
  · rfl
  · rename_i hlt
    rw [List.getElem?_eq_none (Nat.le_of_not_lt hlt)]
    cases i - s.attempts.length <;> rfl

theorem post?_set (ho : s.attempts[index]? = some old)
    (ha : s'.attempts = s.attempts.set index attempt) (i : ℕ) :
    s'.post? i = if index = i then attempt.post? else s.post? i := by
  rw [post?, ha, List.getElem?_set]
  split
  · simp [(List.getElem?_eq_some_iff.mp ho).1]
  · rfl

theorem post?_set_posted (ho : s.attempts[index]? = some old)
    (ha : s'.attempts = s.attempts.set index (.posted post)) (i : ℕ) :
    s'.post? i = if index = i then some post else s.post? i := post?_set ho ha i

/-- Replacing one attempt, when the token follows the accepted requests. -/
theorem inv_set (h : s.Inv) {token : Option String} (ho : s.attempts[index]? = some old)
    (hfits : ∀ post, attempt.post? = some post → s.Fits post)
    (hold : ∀ post, old.post? = some post → post.Accepted →
      ∃ post', attempt.post? = some post' ∧ post'.Accepted)
    (htoken : token ≠ none ↔
      s.stripeTokenId ≠ none ∨ ∃ post, attempt.post? = some post ∧ post.Accepted) :
    Inv { s with attempts := s.attempts.set index attempt, stripeTokenId := token } := by
  have hset : ∀ i, post? { s with
      attempts := s.attempts.set index attempt, stripeTokenId := token } i =
      if index = i then attempt.post? else s.post? i := post?_set ho rfl
  refine ⟨fun i post hp => ?_, ?_, h.reported, fun t ht => htoken.mpr (.inl (h.success t ht))⟩
  · have hfit : s.Fits post := by
      rw [hset] at hp
      split at hp
      · exact hfits post hp
      · exact h.fits i post hp
    exact ⟨hfit.user, hfit.amount, hfit.mode, hfit.accepted, hfit.late⟩
  · rw [htoken, h.token]
    constructor
    · rintro (⟨i, post, hp, ha⟩ | ⟨post, hp, ha⟩)
      · by_cases hi : index = i
        · subst hi
          obtain ⟨post', hp', ha'⟩ := hold post ((post?_of_attempts ho).symm.trans hp) ha
          exact ⟨index, post', by rw [hset, if_pos rfl, hp'], ha'⟩
        · exact ⟨i, post, by rw [hset, if_neg hi, hp], ha⟩
      · exact ⟨index, post, by rw [hset, if_pos rfl, hp], ha⟩
    · rintro ⟨i, post, hp, ha⟩
      rw [hset] at hp
      split at hp
      · exact .inr ⟨post, hp, ha⟩
      · exact .inl ⟨i, post, hp, ha⟩

/-- A request that has just been sent fits, and nothing is accepted yet. -/
theorem fits_createdToken {token : Option String} (hp : (s.createdToken token).post? = some post) :
    s.Fits post ∧ ¬ post.Accepted := by
  cases token with
  | none => cases hp
  | some token =>
    cases hu : s.user with
    | none => simp [createdToken, hu, Attempt.post?] at hp
    | some user =>
      simp only [createdToken, hu, Attempt.post?, Option.some.injEq] at hp
      subst hp
      refine ⟨⟨by simp [hu], rfl, rfl, ?_, of_decide_eq_true⟩, ?_⟩ <;> simp [Post.Accepted]

theorem inv_step (h : s.Inv) (hs : step e s = some s') : s'.Inv := by
  cases e with
  | didAuthorizePayment =>
    simp only [step, Option.ite_none_right_eq_some, Option.some.injEq] at hs
    obtain ⟨-, rfl⟩ := hs
    have hpost : ∀ i, post? { s with attempts := s.attempts ++ [.creatingToken] } i = s.post? i :=
      post?_append rfl
    refine ⟨fun i post hp => ?_, ?_, h.reported, h.success⟩
    · obtain ⟨huser, hamount, hmode, hacc, hlate⟩ := h.fits i post (hpost i ▸ hp)
      exact ⟨huser, hamount, hmode, hacc, hlate⟩
    · simp only [hpost]
      exact h.token
  | tokenCreated index token =>
    simp only [step] at hs
    split at hs
    · rename_i ho
      obtain rfl := Option.some.inj hs
      refine inv_set h ho (fun post hp => (fits_createdToken hp).1) (fun post hp => by cases hp) ?_
      exact ⟨.inl, Or.rec id fun ⟨post, hp, ha⟩ => absurd ha (fits_createdToken hp).2⟩
    · cases hs
  | processed index =>
    simp only [step] at hs
    split at hs
    · rename_i post ho
      split at hs
      · cases hs
      · obtain rfl := Option.some.inj hs
        obtain ⟨huser, hamount, hmode, -, hlate⟩ := h.fits index post (post?_of_attempts ho)
        have hacc : post.Accepted → s.stripeTokenId ≠ none :=
          fun ha => h.token.mpr ⟨index, post, post?_of_attempts ho, ha⟩
        refine inv_set h ho ?_ ?_ ⟨.inl, Or.rec id ?_⟩
        · rintro _ ⟨⟩
          exact ⟨huser, hamount, hmode, fun _ => rfl, hlate⟩
        · rintro _ ⟨⟩ ha
          exact ⟨_, rfl, ha⟩
        · rintro ⟨_, ⟨⟩, ha⟩
          exact hacc ha
    · cases hs
  | replied index reply =>
    simp only [step] at hs
    split at hs
    · rename_i post ho
      split at hs
      · rename_i hc
        obtain ⟨hnone, hacc⟩ := hc
        obtain rfl := Option.some.inj hs
        obtain ⟨huser, hamount, hmode, -, hlate⟩ := h.fits index post (post?_of_attempts ho)
        refine inv_set h ho ?_ ?_ ?_
        · rintro _ ⟨⟩
          exact ⟨huser, hamount, hmode, fun ⟨r, hr, ha⟩ => hacc (Option.some.inj hr ▸ ha), hlate⟩
        · rintro _ ⟨⟩ ⟨r, hr, -⟩
          simp [hnone] at hr
        · have hiff : (∃ p, (Attempt.posted { post with reply := some reply }).post? = some p ∧
              p.Accepted) ↔ reply.accepts = true := by
            simp [Attempt.post?, Post.Accepted]
          rw [hiff]
          cases reply.accepts <;> simp
      · cases hs
    · cases hs
  | didFinish =>
    simp only [step, Option.ite_none_right_eq_some, Option.some.injEq] at hs
    obtain ⟨hsheet, rfl⟩ := hs
    refine ⟨fun i post hp => ?_, h.token, ?_, h.success⟩
    · obtain ⟨huser, hamount, hmode, hacc, hlate⟩ := h.fits i post hp
      exact ⟨huser, hamount, hmode, hacc, fun hl => by simp [hlate hl] at hsheet⟩
    · rw [h.reported, hsheet]
      simp
  | dismissed =>
    simp only [step, Option.ite_none_right_eq_some, Option.some.injEq] at hs
    obtain ⟨hsheet, rfl⟩ := hs
    refine ⟨fun i post hp => ?_, h.token, by simp, fun token ht => ?_⟩
    · obtain ⟨huser, hamount, hmode, hacc, -⟩ := h.fits i post hp
      exact ⟨huser, hamount, hmode, hacc, fun _ => rfl⟩
    · rw [callback] at ht
      split at ht
      · rename_i hsome
        simp [hsome]
      · simp at ht

/-! ## Counting charges -/

theorem length_filterMap_set {α β : Type} {l : List α} {f : α → Option β} {i : ℕ} {old a : α}
    (ho : l[i]? = some old) :
    ((l.set i a).filterMap f).length + (f old).toList.length =
      (l.filterMap f).length + (f a).toList.length := by
  induction l generalizing i with
  | nil => simp at ho
  | cons b l ih =>
    cases i with
    | zero =>
      obtain rfl : b = old := by simpa using ho
      cases hb : f b <;> cases ha : f a <;> simp [hb, ha]
    | succ i =>
      have hl := ih (i := i) (by simpa using ho)
      cases hb : f b <;> simp [hb] <;> omega

theorem timelyCharge?_eq (a : Attempt) :
    a.timelyCharge? = a.charge? ∨ a.timelyCharge? = none ∧ ∃ post, a.post? = some post ∧ post.late := by
  cases a with
  | posted post =>
    by_cases hl : post.late <;> simp [Attempt.timelyCharge?, Attempt.post?, hl]
  | creatingToken | failed => exact .inl rfl

theorem length_timelyCharges_le (s : PaymentSession) :
    s.timelyCharges.length ≤ s.charges.length := by
  unfold timelyCharges charges
  induction s.attempts with
  | nil => rfl
  | cons a l ih =>
    rcases timelyCharge?_eq a with h | ⟨h, -⟩ <;> cases hc : a.charge? <;> simp [h, hc] <;> omega

theorem timelyCharges_eq_charges (h : s.Inv) (hs : s.sheet ≠ .dismissed) :
    s.timelyCharges = s.charges := by
  refine List.filterMap_congr fun a ha => ?_
  rcases timelyCharge?_eq a with he | ⟨-, post, hp, hl⟩
  · exact he
  · obtain ⟨i, hi⟩ := List.mem_iff_getElem?.mp ha
    exact absurd ((h.fits i post ((post?_of_attempts hi).trans hp)).late hl) hs

theorem timelyCharges_eq_iff (h : s.Inv) :
    s.timelyCharges = [(s.amount, s.isOneTimeMode)] ↔ s.timelyCharges.length = 1 := by
  refine ⟨fun he => by simp [he], fun hl => ?_⟩
  obtain ⟨c, hc⟩ := List.length_eq_one_iff.mp hl
  have hmem : c ∈ s.timelyCharges := by simp [hc]
  obtain ⟨a, ha, hca⟩ := List.mem_filterMap.mp hmem
  obtain ⟨i, hi⟩ := List.mem_iff_getElem?.mp ha
  cases a with
  | posted post =>
    have hfit := h.fits i post (post?_of_attempts hi)
    rw [hc, ← hfit.amount, ← hfit.mode]
    simp only [Attempt.timelyCharge?, Attempt.charge?] at hca
    split at hca
    · cases hca
    · split at hca
      · cases hca
        rfl
      · cases hca
  | creatingToken | failed => cases hca

theorem truthful_iff (h : s.Inv) :
    s.Truthful ↔ s.charges.length ≤ 1 ∧
      ∀ result, s.reported = some result → (result ≠ .failure ↔ s.timelyCharges.length = 1) := by
  rw [← timelyCharges_eq_iff h]
  exact ⟨fun ht => ⟨ht.once, ht.report⟩, fun ht => ⟨ht.1, ht.2⟩⟩

/-- Events that leave the charges and the report alone keep a session truthful. -/
theorem truthful_congr (h : s.Inv) (h' : s'.Inv) (hr : s'.reported = s.reported)
    (hc : s'.charges.length = s.charges.length)
    (ht : s'.timelyCharges.length = s.timelyCharges.length) : s'.Truthful ↔ s.Truthful := by
  rw [truthful_iff h, truthful_iff h', hr, hc, ht]

theorem step_processed (hs : step (.processed index) s = some s') :
    ∃ post, s.post? index = some post ∧ s'.reported = s.reported ∧
      s'.charges.length = s.charges.length + 1 ∧
      s'.timelyCharges.length = s.timelyCharges.length + if post.late then 0 else 1 := by
  simp only [step] at hs
  split at hs
  · rename_i post ho
    split at hs
    · cases hs
    · rename_i hp
      obtain rfl := Option.some.inj hs
      have hc := length_filterMap_set (f := Attempt.charge?)
        (a := .posted { post with processed := true }) ho
      have ht := length_filterMap_set (f := Attempt.timelyCharge?)
        (a := .posted { post with processed := true }) ho
      refine ⟨post, post?_of_attempts ho, rfl, ?_, ?_⟩
      · simpa [charges, Attempt.charge?, hp] using hc
      · cases hl : post.late <;> 
          simpa [timelyCharges, Attempt.timelyCharge?, Attempt.charge?, hp, hl] using ht
  · cases hs

/-- The server takes the request of attempt `index`. -/
theorem truthful_processed_iff (h : s.Inv) (ht : s.Truthful)
    (hs : step (.processed index) s = some s') : s'.Truthful ↔ s.Careful (.processed index) := by
  obtain ⟨post, hpost, hr, hc, htc⟩ := step_processed hs
  obtain ⟨hone, hreport⟩ := (truthful_iff h).mp ht
  have hle := length_timelyCharges_le s
  rw [truthful_iff (inv_step h hs), hr, hc, htc]
  simp only [Careful, hpost, Option.some.injEq, forall_eq', ← List.length_eq_zero_iff]
  cases hl : post.late with
  | true =>
    simp only [if_true, Nat.add_zero, implies_true, and_true]
    exact ⟨fun hx => by omega, fun hx => ⟨by omega, hreport⟩⟩
  | false =>
    simp only [Bool.false_eq_true, if_false, imp_false]
    constructor
    · rintro ⟨hx, hy⟩
      refine ⟨by omega, fun hsheet => ?_⟩
      obtain ⟨result, hresult⟩ := Option.ne_none_iff_exists'.mp (h.reported.mpr hsheet)
      have hnil : s.timelyCharges.length = 0 := by omega
      have hold := hreport result hresult
      have hnew := hy result hresult
      simp only [hnil, Nat.zero_ne_one, iff_false, Nat.zero_add, iff_true] at hold hnew
      exact hold hnew
    · rintro ⟨hx, hsheet⟩
      refine ⟨by omega, fun result hresult => absurd (h.reported.mp ?_) hsheet⟩
      simp [hresult]

theorem charges_pos_iff :
    0 < s.charges.length ↔ ∃ i post, s.post? i = some post ∧ post.processed = true := by
  rw [List.length_pos_iff_exists_mem]
  constructor
  · rintro ⟨c, hc⟩
    obtain ⟨a, ha, hca⟩ := List.mem_filterMap.mp hc
    obtain ⟨i, hi⟩ := List.mem_iff_getElem?.mp ha
    cases a with
    | posted post =>
      by_cases hp : post.processed
      · exact ⟨i, post, post?_of_attempts hi, hp⟩
      · simp [Attempt.charge?, hp] at hca
    | creatingToken | failed => cases hca
  · rintro ⟨i, post, hpost, hp⟩
    refine ⟨(post.amount, post.isOneTimeMode), List.mem_filterMap.mpr ⟨.posted post, ?_, ?_⟩⟩
    · exact List.mem_of_getElem? (attempts_of_post? hpost)
    · simp [Attempt.charge?, hp]

/-- With one charge at most, one request at most was taken. -/
theorem processed_unique {i j : ℕ} {p q : Post} (hone : s.charges.length ≤ 1)
    (hi : s.post? i = some p) (hj : s.post? j = some q) (hp : p.processed = true)
    (hq : q.processed = true) : i = j := by
  by_contra hne
  have ho := attempts_of_post? hi
  have hlen : _ = s.charges.length + _ :=
    length_filterMap_set (f := Attempt.charge?) (a := .creatingToken) ho
  have hset : post? { s with attempts := s.attempts.set i .creatingToken } j = _ := post?_set ho rfl j
  rw [if_neg hne] at hset
  have hpos := charges_pos_iff.mpr ⟨j, q, hset.trans hj, hq⟩
  simp only [charges, Attempt.charge?, hp, if_true, Option.toList_some, Option.toList_none,
    List.length_singleton, List.length_nil] at *
  omega

/-- The sheet goes, and the callback is called. -/
theorem truthful_dismissed_iff (h : s.Inv) (ht : s.Truthful)
    (hs : step .dismissed s = some s') : s'.Truthful ↔ s.Careful .dismissed := by
  have h' := inv_step h hs
  simp only [step, Option.ite_none_right_eq_some, Option.some.injEq] at hs
  obtain ⟨hsheet, rfl⟩ := hs
  have hone := ht.once
  have hlen : s.timelyCharges.length = s.charges.length :=
    congrArg List.length (timelyCharges_eq_charges h (by simp [hsheet]))
  have hcallback : s.callback ≠ .failure ↔ s.stripeTokenId ≠ none := by
    rw [callback]
    split <;> simp_all
  have hcharge : s.charges.length = 1 ↔ ∃ i post, s.post? i = some post ∧ post.processed = true := by
    rw [← charges_pos_iff]
    omega
  rw [truthful_iff h']
  simp only [Option.some.injEq, forall_eq']
  rw [hcallback, h.token]
  show s.charges.length ≤ 1 ∧ (_ ↔ s.timelyCharges.length = 1) ↔ _
  rw [hlen, hcharge, and_iff_right hone]
  constructor
  · intro hiff i post hpost hp
    obtain ⟨j, q, hq, ha⟩ := hiff.mpr ⟨i, post, hpost, hp⟩
    obtain rfl := processed_unique hone hpost hq hp ((h.fits j q hq).accepted ha)
    cases hpost.symm.trans hq
    exact ha
  · intro hcare
    constructor
    · rintro ⟨i, post, hpost, ha⟩
      exact ⟨i, post, hpost, (h.fits i post hpost).accepted ha⟩
    · rintro ⟨i, post, hpost, hp⟩
      exact ⟨i, post, hpost, hcare i post hpost hp⟩

/-- A step keeps a session truthful exactly when it is careful. -/
theorem truthful_step_iff (h : s.Inv) (ht : s.Truthful) (hs : step e s = some s') :
    s'.Truthful ↔ s.Careful e := by
  have h' := inv_step h hs
  cases e with
  | processed index => exact truthful_processed_iff h ht hs
  | dismissed => exact truthful_dismissed_iff h ht hs
  | didAuthorizePayment =>
    simp only [step, Option.ite_none_right_eq_some, Option.some.injEq] at hs
    obtain ⟨-, rfl⟩ := hs
    refine iff_of_true ((truthful_congr h h' rfl ?_ ?_).mpr ht) trivial
    · simp [charges, Attempt.charge?]
    · simp [timelyCharges, Attempt.timelyCharge?]
  | tokenCreated index token =>
    simp only [step] at hs
    split at hs
    · rename_i ho
      obtain rfl := Option.some.inj hs
      have hc := length_filterMap_set (f := Attempt.charge?) (a := s.createdToken token) ho
      have htc := length_filterMap_set (f := Attempt.timelyCharge?) (a := s.createdToken token) ho
      have hnone : (s.createdToken token).charge? = none := by
        unfold createdToken
        split <;> [rfl; split] <;> rfl
      have htnone : (s.createdToken token).timelyCharge? = none := by
        rcases timelyCharge?_eq (s.createdToken token) with he | ⟨he, -⟩
        · rw [he, hnone]
        · exact he
      rw [hnone] at hc
      rw [htnone] at htc
      exact iff_of_true ((truthful_congr h h' rfl hc htc).mpr ht) trivial
    · cases hs
  | replied index reply =>
    simp only [step] at hs
    split at hs
    · rename_i post ho
      split at hs
      · obtain rfl := Option.some.inj hs
        have hc := length_filterMap_set (f := Attempt.charge?)
          (a := .posted { post with reply := some reply }) ho
        have htc := length_filterMap_set (f := Attempt.timelyCharge?)
          (a := .posted { post with reply := some reply }) ho
        refine iff_of_true ((truthful_congr h h' rfl ?_ ?_).mpr ht) trivial
        · exact Nat.add_right_cancel hc
        · exact Nat.add_right_cancel htc
      · cases hs
    · cases hs
  | didFinish =>
    simp only [step, Option.ite_none_right_eq_some, Option.some.injEq] at hs
    obtain ⟨-, rfl⟩ := hs
    exact iff_of_true ((truthful_congr h h' rfl rfl rfl).mpr ht) trivial

theorem truthful_pay (user : Option LendUser) (amount : Int) (isOneTimeMode : Bool) :
    (pay user amount isOneTimeMode).Truthful := by
  constructor <;> simp [pay, charges]

theorem steps_cons (e : PaymentEvent) (l : List PaymentEvent) (s : PaymentSession) :
    steps (e :: l) s = (step e s).bind (steps l) := rfl

theorem truthfulAlong_cons {l : List PaymentEvent} {t : PaymentSession} (he : step e s = some t) :
    s.TruthfulAlong (e :: l) ↔ s.Truthful ∧ t.TruthfulAlong l := by
  constructor
  · intro h
    refine ⟨h [] s (by simp) rfl, fun l₁ s₁ hl hs => ?_⟩
    exact h (e :: l₁) s₁ (by simpa using hl) (by simp [steps_cons, he, hs])
  · rintro ⟨ht, h⟩ l₁ s₁ hl hs
    cases l₁ with
    | nil =>
      cases hs
      exact ht
    | cons e₁ l₁ =>
      obtain ⟨rfl, hl₁⟩ := List.cons_prefix_cons.mp hl
      rw [steps_cons, he] at hs
      exact h l₁ s₁ hl₁ hs

theorem along_cons {P : PaymentSession → PaymentEvent → Prop} {l : List PaymentEvent}
    {t : PaymentSession} (he : step e s = some t) :
    Along P (e :: l) s ↔ P s e ∧ Along P l t := by
  constructor
  · intro h
    refine ⟨h [] e s (by simp) rfl, fun l₁ e₁ s₁ hl hs => ?_⟩
    exact h (e :: l₁) e₁ s₁ (by simpa using hl) (by simp [steps_cons, he, hs])
  · rintro ⟨hc, h⟩ l₁ e₁ s₁ hl hs
    cases l₁ with
    | nil =>
      obtain rfl : e₁ = e := by simpa using hl
      cases hs
      exact hc
    | cons e₂ l₁ =>
      obtain ⟨rfl, hl₁⟩ := List.cons_prefix_cons.mp hl
      rw [steps_cons, he] at hs
      exact h l₁ e₁ s₁ hl₁ hs

theorem truthfulAlong_iff {l : List PaymentEvent} (h : s.Inv) (ht : s.Truthful)
    (hs : steps l s = some s') : s.TruthfulAlong l ↔ Along Careful l s := by
  induction l generalizing s with
  | nil =>
    refine iff_of_true (fun l₁ s₁ hl hs₁ => ?_) (fun l₁ e s₁ hl => by simp at hl)
    obtain rfl := List.prefix_nil.mp hl
    cases hs₁
    exact ht
  | cons e l ih =>
    rw [steps_cons] at hs
    obtain ⟨t, he, hl⟩ := Option.bind_eq_some_iff.mp hs
    have hstep := truthful_step_iff h ht he
    rw [truthfulAlong_cons he, along_cons he, and_iff_right ht, ← hstep]
    constructor
    · intro hall
      have htt : t.Truthful := hall [] t (by simp) rfl
      exact ⟨htt, (ih (inv_step h he) htt hl).mp hall⟩
    · rintro ⟨htt, hall⟩
      exact (ih (inv_step h he) htt hl).mpr hall

theorem user_step (hs : step e s = some s') : s'.user = s.user := by
  cases e <;> simp only [step] at hs <;> repeat' split at hs
  all_goals cases hs
  all_goals rfl

theorem inv_steps {l : List PaymentEvent} (h : s.Inv) (hs : steps l s = some s') :
    s'.Inv ∧ s'.user = s.user := by
  induction l generalizing s with
  | nil =>
    cases hs
    exact ⟨h, rfl⟩
  | cons e l ih =>
    obtain ⟨t, he, hl⟩ := Option.bind_eq_some_iff.mp hs
    obtain ⟨h', hu⟩ := ih (inv_step h he) hl
    exact ⟨h', hu.trans (user_step he)⟩

end Step

/-- What a checkout may assume of the payment sheet: a reported success was charged, and
without a user nothing is. -/
theorem answers_pay {w : World} {amount : Int} {isOneTimeMode : Bool} {l : List PaymentEvent}
    {s : PaymentSession} {result : PaymentResult}
    (hs : steps l (pay w.1.userManager.user amount isOneTimeMode) = some s)
    (hr : s.reported = some result) :
    Answers w (.pay amount isOneTimeMode) result
      (w.1, w.2.record (.replicate s.charges.length (.pay amount isOneTimeMode))) := by
  obtain ⟨h, huser⟩ := inv_steps (inv_pay _ _ _) hs
  refine ⟨s.charges.length, ?_, ?_, rfl⟩
  · rintro token rfl
    obtain ⟨i, post, hpost, ha⟩ := h.token.mp (h.success token hr)
    exact charges_pos_iff.mpr ⟨i, post, hpost, (h.fits i post hpost).accepted ha⟩
  · intro hnone
    by_contra hne
    obtain ⟨i, post, hpost, -⟩ := charges_pos_iff.mp (Nat.pos_of_ne_zero hne)
    exact (h.fits i post hpost).user (huser.trans hnone)

/-! ## Orderly sessions -/

/-- Only the last attempt is not turned down; and a request sent while the sheet was there
has its reply when the sheet is gone, and was accepted if it was taken. -/
structure Ordered (s : PaymentSession) : Prop where
  last : ∀ i attempt, s.attempts[i]? = some attempt → ¬ attempt.TurnedDown →
    i + 1 = s.attempts.length
  told : ∀ i post, s.post? i = some post → post.late = false → post.reply ≠ none →
    post.processed = true → post.Accepted
  gone : s.sheet = .dismissed → ∀ i post, s.post? i = some post → post.late = false →
    post.reply ≠ none

theorem ordered_pay (user : Option LendUser) (amount : Int) (isOneTimeMode : Bool) :
    (pay user amount isOneTimeMode).Ordered := by
  constructor <;> simp [pay, post?]

section Orderly

variable {s s' : PaymentSession} {e : PaymentEvent} {index : ℕ} {old attempt : Attempt} {post : Post}

theorem not_turnedDown_of_late (h : post.late = true) : ¬ (Attempt.posted post).TurnedDown := by
  simp [Attempt.TurnedDown, h]

theorem not_turnedDown_of_reply (h : post.reply = none) : ¬ (Attempt.posted post).TurnedDown := by
  simp [Attempt.TurnedDown, h]

/-- The last attempt is replaced. -/
theorem ordered_set (h : s.Ordered) {token : Option String} (ho : s.attempts[index]? = some old)
    (hold : ¬ old.TurnedDown)
    (htold : ∀ post, attempt.post? = some post → post.late = false → post.reply ≠ none →
      post.processed = true → post.Accepted)
    (hgone : s.sheet = .dismissed → ∀ post, attempt.post? = some post → post.late = false →
      post.reply ≠ none) :
    Ordered { s with attempts := s.attempts.set index attempt, stripeTokenId := token } := by
  have hset : ∀ i, post? { s with
      attempts := s.attempts.set index attempt, stripeTokenId := token } i =
      if index = i then attempt.post? else s.post? i := post?_set ho rfl
  refine ⟨fun i a ha hn => ?_, fun i post hp => ?_, fun hs i post hp => ?_⟩
  · show i + 1 = (s.attempts.set index attempt).length
    rw [List.length_set]
    by_cases hi : index = i
    · subst hi
      exact h.last index old ho hold
    · rw [List.getElem?_set_ne hi] at ha
      exact h.last i a ha hn
  · rw [hset] at hp
    split at hp
    · exact htold post hp
    · exact h.told i post hp
  · rw [hset] at hp
    split at hp
    · exact hgone hs post hp
    · exact h.gone hs i post hp

theorem ordered_step (h : s.Ordered) (hok : s.Orderly e) (hs : step e s = some s') :
    s'.Ordered := by
  cases e with
  | didAuthorizePayment =>
    simp only [step, Option.ite_none_right_eq_some, Option.some.injEq] at hs
    obtain ⟨hsheet, rfl⟩ := hs
    have hpost : ∀ i, post? { s with attempts := s.attempts ++ [.creatingToken] } i = s.post? i :=
      post?_append rfl
    refine ⟨fun i a ha hn => ?_, fun i post hp => ?_, fun hd => by simp [hsheet] at hd⟩
    · have hlt := (List.getElem?_eq_some_iff.mp ha).1
      have hle : s.attempts.length ≤ i := by
        by_contra hi
        rw [List.getElem?_append_left (by omega)] at ha
        exact hn (hok a (List.mem_of_getElem? ha))
      simp only [List.length_append, List.length_singleton] at hlt ⊢
      omega
    · exact h.told i post (hpost i ▸ hp)
  | tokenCreated index token =>
    simp only [step] at hs
    split at hs
    · rename_i ho
      obtain rfl := Option.some.inj hs
      refine ordered_set h ho (fun hd => hd) (fun post hp _ hr => absurd ?_ hr)
        fun hd post hp hl => absurd ?_ (Bool.eq_false_iff.mp hl)
      all_goals
        unfold createdToken at hp
        split at hp <;> [cases hp; split at hp]
      all_goals cases hp
      · rfl
      · simpa using hd
    · cases hs
  | processed index =>
    simp only [step] at hs
    split at hs
    · rename_i post ho
      split at hs
      · cases hs
      · obtain rfl := Option.some.inj hs
        have hpost := post?_of_attempts ho
        rcases hok post hpost with hl | hr
        · refine ordered_set h ho (not_turnedDown_of_late hl) ?_ ?_
          · rintro _ ⟨⟩ hl'
            simp [hl] at hl'
          · rintro - _ ⟨⟩ hl'
            simp [hl] at hl'
        · refine ordered_set h ho (not_turnedDown_of_reply hr) ?_ ?_
          · rintro _ ⟨⟩ - hr'
            exact absurd hr hr'
          · rintro hd _ ⟨⟩
            exact h.gone hd index post hpost
    · cases hs
  | replied index reply =>
    simp only [step] at hs
    split at hs
    · rename_i post ho
      split at hs
      · rename_i hc
        obtain rfl := Option.some.inj hs
        refine ordered_set h ho (not_turnedDown_of_reply hc.1) ?_ ?_
        · rintro _ ⟨⟩ hl - hp
          have haccepts := (hok post (post?_of_attempts ho) hp).resolve_left (by simpa using hl)
          exact ⟨reply, rfl, haccepts⟩
        · rintro - _ ⟨⟩ -
          simp
      · cases hs
    · cases hs
  | didFinish =>
    simp only [step, Option.ite_none_right_eq_some, Option.some.injEq] at hs
    obtain ⟨-, rfl⟩ := hs
    exact ⟨h.last, h.told, fun hd => by cases hd⟩
  | dismissed =>
    simp only [step, Option.ite_none_right_eq_some, Option.some.injEq] at hs
    obtain ⟨-, rfl⟩ := hs
    exact ⟨h.last, h.told, fun _ i post hp _ => hok i post hp⟩

/-- What is not the last attempt has not been charged. -/
theorem not_processed_of_turnedDown (h : s.Ordered) (ho : s.attempts[index]? = some (.posted post))
    (hd : (Attempt.posted post).TurnedDown) : post.processed = false := by
  obtain ⟨hl, reply, hr, ha⟩ := hd
  refine Bool.eq_false_iff.mpr fun hp => ?_
  obtain ⟨reply', hr', ha'⟩ := h.told index post (post?_of_attempts ho) hl (by simp [hr]) hp
  obtain rfl := Option.some.inj (hr.symm.trans hr')
  simp [ha] at ha'

/-- An orderly event is careful. -/
theorem careful_of_orderly (h : s.Inv) (ho : s.Ordered) (hok : s.Orderly e)
    (hs : step e s = some s') : s.Careful e := by
  cases e with
  | processed index =>
    simp only [step] at hs
    split at hs
    · rename_i post hpost
      split at hs
      · cases hs
      · rename_i hp
        have hopen : ¬ (Attempt.posted post).TurnedDown :=
          (hok post (post?_of_attempts hpost)).elim not_turnedDown_of_late not_turnedDown_of_reply
        have hlast := ho.last index _ hpost hopen
        refine ⟨?_, fun hd post' hp' => ?_⟩
        · refine List.eq_nil_iff_length_eq_zero.mpr (Nat.eq_zero_of_not_pos fun hpos => ?_)
          obtain ⟨i, q, hq, hqp⟩ := charges_pos_iff.mp hpos
          have hqo := attempts_of_post? hq
          by_cases hi : i = index
          · subst hi
            cases hqo.symm.trans hpost
            exact hp hqp
          · have hqd : (Attempt.posted q).TurnedDown := by
              by_contra hn
              exact hi (Nat.succ.inj ((ho.last i _ hqo hn).trans hlast.symm))
            simp [not_processed_of_turnedDown ho hqo hqd] at hqp
        · cases (post?_of_attempts hpost).symm.trans hp'
          rcases hok post hp' with hl | hr
          · exact hl
          · by_contra hl
            exact ho.gone hd index post hp' (Bool.eq_false_iff.mpr hl) hr
    · cases hs
  | dismissed =>
    simp only [step, Option.ite_none_right_eq_some, Option.some.injEq] at hs
    intro i post hp hproc
    have hl : post.late = false := Bool.eq_false_iff.mpr fun hl => by
      simpa [hs.1] using (h.fits i post hp).late hl
    exact ho.told i post hp hl (hok i post hp) hproc
  | didAuthorizePayment | tokenCreated | replied | didFinish => trivial

theorem along_of_orderly {l : List PaymentEvent} (h : s.Inv) (ho : s.Ordered)
    (hok : Along Orderly l s) (hs : steps l s = some s') : Along Careful l s ∧ s'.Ordered := by
  induction l generalizing s with
  | nil =>
    cases hs
    exact ⟨fun l₁ e s₁ hl => by simp at hl, ho⟩
  | cons e l ih =>
    obtain ⟨t, he, hl⟩ := Option.bind_eq_some_iff.mp hs
    obtain ⟨hfirst, hrest⟩ := (along_cons he).mp hok
    obtain ⟨hcareful, ho'⟩ := ih (inv_step h he) (ordered_step ho hfirst he) hrest hl
    exact ⟨(along_cons he).mpr ⟨careful_of_orderly h ho hfirst he, hcareful⟩, ho'⟩

/-! ## No clause can go -/

/-- A way to go on, orderly from here, after which the session is not truthful. -/
def GoesWrong (s : PaymentSession) : Prop :=
  ∃ l t, Along Orderly l s ∧ steps l s = some t ∧ ¬ t.Truthful

theorem goesWrong_of_not_truthful (h : ¬ s.Truthful) : s.GoesWrong :=
  ⟨[], s, fun l₁ e s₁ hl => by simp at hl, rfl, h⟩

theorem goesWrong_of_step (hs : step e s = some s') (hok : s.Orderly e) (h : s'.GoesWrong) :
    s.GoesWrong := by
  obtain ⟨l, t, hl, ht, hn⟩ := h
  exact ⟨e :: l, t, (along_cons hs).mpr ⟨hok, hl⟩, by simp [steps_cons, hs, ht], hn⟩

/-- A request that is not refused may be taken, and the other attempts stay as they are. -/
theorem goesWrong_of_posted (h : s.Inv) (ho : s.attempts[index]? = some (.posted post))
    (hopen : ¬ (Attempt.posted post).TurnedDown)
    (hnext : ∀ (t : PaymentSession) (p : Post), t.Inv → t.user = s.user →
      t.attempts = s.attempts.set index (.posted p) → p.processed = true → t.GoesWrong) :
    s.GoesWrong := by
  by_cases hp : post.processed = true
  · refine hnext s post h rfl (List.ext_getElem? fun i => ?_) hp
    rw [List.getElem?_set]
    split
    · rename_i hi
      subst hi
      rw [if_pos (List.getElem?_eq_some_iff.mp ho).1, ho]
    · rfl
  · have hstep : step (.processed index) s = some { s with
        attempts := s.attempts.set index (.posted { post with processed := true }) } := by
      simp [step, ho, hp]
    refine goesWrong_of_step hstep (fun q hq => ?_) (hnext _ _ (inv_step h hstep) rfl rfl rfl)
    cases (post?_of_attempts ho).symm.trans hq
    by_contra hn
    rw [not_or] at hn
    obtain ⟨reply, hr⟩ := Option.ne_none_iff_exists'.mp hn.2
    refine hopen ⟨Bool.eq_false_iff.mpr hn.1, reply, hr, Bool.eq_false_iff.mpr fun ha => ?_⟩
    exact hp ((h.fits index post hq).accepted ⟨reply, hr, ha⟩)

/-- So may the request of an attempt that is still waiting for its token. -/
theorem goesWrong_of_charged (h : s.Inv) (hu : s.user ≠ none) (ho : s.attempts[index]? = some old)
    (hopen : ¬ old.TurnedDown)
    (hnext : ∀ (t : PaymentSession) (p : Post), t.Inv → t.user = s.user →
      t.attempts = s.attempts.set index (.posted p) → p.processed = true → t.GoesWrong) :
    s.GoesWrong := by
  cases old with
  | creatingToken =>
    obtain ⟨user, huser⟩ := Option.ne_none_iff_exists'.mp hu
    have hstep : step (.tokenCreated index (some "token")) s = some { s with
        attempts := s.attempts.set index (s.createdToken (some "token")) } := by
      simp [step, ho]
    have hlt := (List.getElem?_eq_some_iff.mp ho).1
    have hcreated : s.createdToken (some "token") = .posted
        { amount := s.amount, token := "token", isOneTimeMode := s.isOneTimeMode
          late := decide (s.sheet = .dismissed) } := by
      simp [createdToken, huser]
    rw [hcreated] at hstep
    have hposted := List.getElem?_set_self (a := s.createdToken (some "token")) hlt
    rw [hcreated] at hposted
    refine goesWrong_of_step hstep trivial
      (goesWrong_of_posted (inv_step h hstep) hposted (not_turnedDown_of_reply rfl) ?_)
    intro t p ht htu hta hp
    exact hnext t p ht htu (by simpa using hta) hp
  | failed => exact absurd trivial hopen
  | posted post => exact goesWrong_of_posted h ho hopen hnext

/-- Two attempts that are not turned down may both be charged. -/
theorem goesWrong_of_two {other : Attempt} {i : ℕ} (h : s.Inv) (hu : s.user ≠ none)
    (ho : s.attempts[index]? = some old) (hopen : ¬ old.TurnedDown)
    (hi : s.attempts[i]? = some other) (hother : ¬ other.TurnedDown) (hne : index ≠ i) :
    s.GoesWrong := by
  refine goesWrong_of_charged h hu ho hopen fun t p ht htu hta hp => ?_
  have hti : t.attempts[i]? = some other := by rw [hta, List.getElem?_set_ne hne, hi]
  refine goesWrong_of_charged ht (htu ▸ hu) hti hother fun t' q _ _ hta' hq => ?_
  refine goesWrong_of_not_truthful fun htruth => hne ?_
  refine processed_unique htruth.once ?_ ?_ hp hq
  · rw [post?_set hti hta', if_neg (Ne.symm hne), post?_set ho hta, if_pos rfl]
    rfl
  · rw [post?_set hti hta', if_pos rfl]
    rfl

/-- When every request has its reply, the sheet may go; one that was taken and not accepted is
then not reported. -/
theorem goesWrong_of_unaccepted (h : s.Inv) (hsheet : s.sheet ≠ .dismissed)
    (hreply : ∀ i q, s.post? i = some q → q.reply ≠ none) (hpost : s.post? index = some post)
    (hp : post.processed = true) (hn : ¬ post.Accepted) : s.GoesWrong := by
  have hgoes : ∀ {s : PaymentSession}, s.Inv → s.sheet = .dismissing →
      (∀ i q, s.post? i = some q → q.reply ≠ none) → s.post? index = some post → s.GoesWrong := by
    intro s h hsheet hreply hpost
    by_cases ht : s.Truthful
    · have hstep : step .dismissed s = some { s with
          sheet := .dismissed, reported := some s.callback } := by
        simp [step, hsheet]
      refine goesWrong_of_step hstep hreply (goesWrong_of_not_truthful fun ht' => hn ?_)
      exact (truthful_dismissed_iff h ht hstep).mp ht' index post hpost hp
    · exact goesWrong_of_not_truthful ht
  cases hs : s.sheet with
  | dismissed => exact absurd hs hsheet
  | dismissing => exact hgoes h hs hreply hpost
  | presented =>
    have hstep : step .didFinish s = some { s with sheet := .dismissing } := by
      simp [step, hs]
    exact goesWrong_of_step hstep trivial (hgoes (inv_step h hstep) rfl hreply hpost)

/-- An event that is not orderly can be followed by orderly ones to an untruthful end. -/
theorem goesWrong_of_not_orderly (h : s.Inv) (ho : s.Ordered) (ht : s.Truthful)
    (hu : s.user ≠ none) (hs : step e s = some s') (hn : ¬ s.Orderly e) : s'.GoesWrong := by
  have h' := inv_step h hs
  have hu' : s'.user ≠ none := (user_step hs) ▸ hu
  cases e with
  | didAuthorizePayment =>
    simp only [step, Option.ite_none_right_eq_some, Option.some.injEq] at hs
    obtain ⟨-, rfl⟩ := hs
    simp only [Orderly, not_forall] at hn
    obtain ⟨a, ha, hopen⟩ := hn
    obtain ⟨i, hi⟩ := List.mem_iff_getElem?.mp ha
    have hlt := (List.getElem?_eq_some_iff.mp hi).1
    have hold : (s.attempts ++ [.creatingToken])[i]? = some a := by
      simpa [List.getElem?_append_left hlt] using hi
    have hnew : (s.attempts ++ [.creatingToken])[s.attempts.length]? = some .creatingToken := by simp
    exact goesWrong_of_two h' hu' hold hopen hnew (fun hd => hd) (Nat.ne_of_lt hlt)
  | tokenCreated | didFinish => exact absurd trivial hn
  | processed index =>
    simp only [Orderly, not_forall, not_or] at hn
    obtain ⟨post, hpost, hl, hr⟩ := hn
    have hattempt := attempts_of_post? hpost
    by_cases hd : s.sheet = .dismissed
    · refine goesWrong_of_not_truthful fun ht' => hl ?_
      exact ((truthful_processed_iff h ht hs).mp ht').2 hd post hpost
    · simp only [step, hattempt, Option.ite_none_left_eq_some, Option.some.injEq] at hs
      obtain ⟨hp, rfl⟩ := hs
      have hnew : ∀ i, post? { s with
          attempts := s.attempts.set index (.posted { post with processed := true }) } i =
          if index = i then some { post with processed := true } else s.post? i :=
        post?_set_posted hattempt rfl
      have hself := (hnew index).trans (if_pos rfl)
      by_cases hreply : ∀ i q, post? { s with
          attempts := s.attempts.set index (.posted { post with processed := true }) } i = some q →
          q.reply ≠ none
      · exact goesWrong_of_unaccepted h' hd hreply hself rfl fun ha =>
          hp ((h.fits index post hpost).accepted ha)
      · simp only [not_forall, not_not] at hreply
        obtain ⟨i, q, hq, hqr⟩ := hreply
        have hne : i ≠ index := by
          rintro rfl
          cases hself.symm.trans hq
          exact hr hqr
        refine goesWrong_of_charged h' hu' (attempts_of_post? hq) (not_turnedDown_of_reply hqr) ?_
        intro t p _ _ hta hpp
        refine goesWrong_of_not_truthful fun htruth => hne ?_
        refine processed_unique (q := { post with processed := true }) htruth.once ?_ ?_ hpp rfl
        · rw [post?_set_posted (attempts_of_post? hq) hta, if_pos rfl]
        · rw [post?_set_posted (attempts_of_post? hq) hta, if_neg hne, hself]
  | replied index reply =>
    simp only [Orderly, not_forall, not_or] at hn
    obtain ⟨post, hpost, hp, hl, ha⟩ := hn
    have hattempt := attempts_of_post? hpost
    simp only [step, hattempt, Option.ite_none_right_eq_some, Option.some.injEq] at hs
    obtain ⟨⟨hnone, -⟩, rfl⟩ := hs
    have hd : s.sheet ≠ .dismissed := fun hd =>
      ho.gone hd index post hpost (Bool.eq_false_iff.mpr hl) hnone
    have hnew : ∀ token i, post? { s with
        attempts := s.attempts.set index (.posted { post with reply := some reply })
        stripeTokenId := token } i =
        if index = i then some { post with reply := some reply } else s.post? i :=
      fun _ => post?_set_posted hattempt rfl
    refine goesWrong_of_unaccepted h' hd (fun i q hq hqr => ?_) ((hnew _ index).trans (if_pos rfl)) hp
      fun ⟨r, hr, har⟩ => ha (Option.some.inj hr ▸ har)
    rw [hnew] at hq
    split at hq
    · cases hq
      cases hqr
    · rename_i hne
      have hqlast := ho.last i _ (attempts_of_post? hq) (not_turnedDown_of_reply hqr)
      have hlast := ho.last index _ hattempt (not_turnedDown_of_reply hnone)
      exact hne (Nat.succ.inj (hlast.trans hqlast.symm))
  | dismissed =>
    simp only [Orderly, not_forall, not_not] at hn
    obtain ⟨i, post, hpost, hr⟩ := hn
    by_cases ht' : s'.Truthful
    · have hnot : ¬ post.Accepted := fun ⟨r, hr', _⟩ => by simp [hr] at hr'
      have hp : ¬ post.processed = true := fun hp =>
        hnot ((truthful_dismissed_iff h ht hs).mp ht' i post hpost hp)
      simp only [step, Option.ite_none_right_eq_some, Option.some.injEq] at hs
      obtain ⟨hsheet, rfl⟩ := hs
      have hattempt := attempts_of_post? hpost
      have hstep : step (.processed i) { s with sheet := .dismissed, reported := some s.callback } =
          some { s with
            sheet := .dismissed, reported := some s.callback
            attempts := s.attempts.set i (.posted { post with processed := true }) } := by
        simp [step, hattempt, hp]
      refine goesWrong_of_step hstep (fun q hq => .inr ?_) (goesWrong_of_not_truthful fun ht'' => ?_)
      · cases hpost.symm.trans hq
        exact hr
      · have hl := ((truthful_processed_iff h' ht' hstep).mp ht'').2 rfl post hpost
        simpa [hsheet] using (h.fits i post hpost).late hl
    · exact goesWrong_of_not_truthful ht'

end Orderly

/-- A session whose events are all orderly is truthful all along; and of a user who is signed
in, the next event is orderly exactly when no orderly way to go on is untruthful. -/
theorem session_truthful_of_orderly {user : Option LendUser} {amount : Int} {isOneTimeMode : Bool}
    {l : List PaymentEvent} {s : PaymentSession}
    (hs : steps l (pay user amount isOneTimeMode) = some s)
    (hok : Along Orderly l (pay user amount isOneTimeMode)) :
    (pay user amount isOneTimeMode).TruthfulAlong l ∧
      (user ≠ none → ∀ e s', step e s = some s' → (s.Orderly e ↔
        ∀ l' t, Along Orderly l' s' → steps l' s' = some t → t.Truthful)) := by
  have h₀ := inv_pay user amount isOneTimeMode
  have ht₀ := truthful_pay user amount isOneTimeMode
  obtain ⟨hcareful, ho⟩ := along_of_orderly h₀ (ordered_pay user amount isOneTimeMode) hok hs
  have htruthful := (truthfulAlong_iff h₀ ht₀ hs).mpr hcareful
  refine ⟨htruthful, fun huser e s' he => ?_⟩
  have ht := htruthful l s List.prefix_rfl hs
  obtain ⟨h, hu⟩ := inv_steps h₀ hs
  constructor
  · intro hoe l' t hl' ht'
    have hts := (truthful_step_iff h ht he).mpr (careful_of_orderly h ho hoe he)
    obtain ⟨hc, -⟩ := along_of_orderly (inv_step h he) (ordered_step ho hoe he) hl' ht'
    exact (truthfulAlong_iff (inv_step h he) hts ht').mpr hc l' t List.prefix_rfl ht'
  · intro hall
    by_contra hn
    obtain ⟨l', t, hl', ht', hnot⟩ := goesWrong_of_not_orderly h ho ht (hu ▸ huser) he hn
    exact hnot (hall l' t hl' ht')

/-- One authorisation whose request is processed and accepted. -/
def smoothSession : List PaymentEvent :=
  [.didAuthorizePayment, .tokenCreated 0 (some "token"), .processed 0,
    .replied 0 (.object (some 1) (some "ok")), .didFinish, .dismissed]

theorem session_truthful_smooth :
    ∃ s, steps smoothSession (pay (some { email := "ann@mail.com", displayName := none }) 13 false) =
      some s ∧ s.Truthful ∧ s.reported = some (.success "token") := by
  obtain ⟨s, hs, hr⟩ : ∃ s, steps smoothSession
      (pay (some { email := "ann@mail.com", displayName := none }) 13 false) = some s ∧
      s.reported = some (.success "token") := ⟨_, rfl, rfl⟩
  refine ⟨s, hs, (session_truthful_of_orderly hs ?_).1 smoothSession s List.prefix_rfl hs, hr⟩
  refine (along_cons rfl).mpr ⟨by simp [Orderly, pay], ?_⟩
  refine (along_cons rfl).mpr ⟨trivial, ?_⟩
  refine (along_cons rfl).mpr ⟨fun post hp => by cases hp; exact .inr rfl, ?_⟩
  refine (along_cons rfl).mpr ⟨fun post hp _ => by cases hp; exact .inr rfl, ?_⟩
  refine (along_cons rfl).mpr ⟨trivial, ?_⟩
  refine (along_cons rfl).mpr ⟨fun index post hpost => ?_, fun _ _ _ hl => by simp at hl⟩
  have ho := attempts_of_post? hpost
  cases index with
  | zero =>
    cases ho
    simp
  | succ index => cases ho


/-- The reply to a processed request is lost, and the second authorisation charges again. -/
theorem not_session_truthful :
    ¬ ∀ l s, steps l (pay (some { email := "ann@mail.com", displayName := none }) 13 false) = some s →
      s.Truthful := by
  intro h
  have hs := h [.didAuthorizePayment, .tokenCreated 0 (some "token"), .processed 0,
    .replied 0 (.error "The network connection was lost."), .didAuthorizePayment,
    .tokenCreated 1 (some "token"), .processed 1] _ rfl
  exact absurd hs.once (by decide)

end PaymentSession

end Pledge
