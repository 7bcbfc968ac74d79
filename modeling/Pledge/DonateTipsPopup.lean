import Pledge.EventLoop.Histories
import Pledge.Format.MachineInt
import Pledge.MyBucket

/-!
# DonateTipsPopupViewController

The tip for a checkout: stored, counted up and down, or typed.
-/

namespace Pledge

open EventLoop MachineInt

/-- What the popup holds. `isUserInteractionEnabled` is that of its text field. -/
structure DonateTipsPopup where
  tipsAmount : Int := 3
  text : String := ""
  isUserInteractionEnabled : Bool := false
deriving DecidableEq, Repr

inductive TipsAction
  | fetchedUpdateUser (success : Bool) (tips : Option Int)
  | customTipButtonPressed
  | edited (text : String)
  | doneButtonAction
  | cancelButtonAction
  | minusButtonPressed
  | plusButtonPressed
deriving DecidableEq, Repr

/-- `donateAmount + tipsAmount`, as the total is shown and charged. -/
def DonateConfirmation.total? (vc : DonateConfirmation) : Option Int := add? vc.donateAmount vc.tipsAmount

namespace DonateTipsPopup

def updateUI (vc : DonateTipsPopup) : DonateTipsPopup := { vc with text := description vc.tipsAmount }

/-- `tips` is `UserManager.shared.user?.tips`. -/
def takeTips (vc : DonateTipsPopup) : Option Int → DonateTipsPopup
  | some tips => { vc with tipsAmount := tips }
  | none => vc

def viewDidLoad (tips : Option Int) : DonateTipsPopup := (takeTips {} tips).updateUI

/-- What `doneButtonAction` makes of a text. -/
def entered (text : String) : Int :=
  let value := (parse? text).getD 0
  if value < 0 then 0 else value

def doneButtonAction (vc : DonateTipsPopup) : DonateTipsPopup :=
  { vc with isUserInteractionEnabled := false, tipsAmount := entered vc.text }.updateUI

def cancelButtonAction (vc : DonateTipsPopup) : DonateTipsPopup :=
  { vc with text := description vc.tipsAmount, isUserInteractionEnabled := false }

def minusButtonPressed (vc : DonateTipsPopup) : DonateTipsPopup :=
  if 0 < vc.tipsAmount then { vc with tipsAmount := vc.tipsAmount - 1 }.updateUI else vc

/-- `none` is the trap of an overflowing addition. -/
def plusButtonPressed (vc : DonateTipsPopup) : Option DonateTipsPopup :=
  (add? vc.tipsAmount 1).map fun tipsAmount => { vc with tipsAmount := tipsAmount }.updateUI

/-- What `onDonateAction` is given. -/
def donateButtonPressed (vc : DonateTipsPopup) : Int := vc.tipsAmount

def step (vc : DonateTipsPopup) : TipsAction → Option DonateTipsPopup
  | .fetchedUpdateUser success tips => some (if success then (vc.takeTips tips).updateUI else vc)
  | .customTipButtonPressed => some { vc with isUserInteractionEnabled := true }
  | .edited text => some { vc with text := text }
  | .doneButtonAction => some vc.doneButtonAction
  | .cancelButtonAction => some vc.cancelButtonAction
  | .minusButtonPressed => some vc.minusButtonPressed
  | .plusButtonPressed => vc.plusButtonPressed

/-- The keyboard with its toolbar is there only while the text field takes input. -/
def Enabled (vc : DonateTipsPopup) : TipsAction → Prop
  | .edited _ | .doneButtonAction | .cancelButtonAction => vc.isUserInteractionEnabled = true
  | _ => True

/-! ## What the popup may be made to do -/

/-- A stored tip that `p` taps and any bucket leave within the limit. -/
def Stored (p : ℕ) (tips : Int) : Prop := 0 ≤ tips ∧ tips + p + 300 ≤ 2 ^ 24

/-- At most `p` taps on plus, stored tips within the limit, and the texts that are confirmed. -/
def Allowed (p : ℕ) (Confirms : String → Prop) (s : DonateTipsPopup × ℕ) (action : TipsAction) : Prop :=
  s.1.Enabled action ∧
  match action with
  | .fetchedUpdateUser true (some tips) => Stored p tips
  | .doneButtonAction => s.1.text = description s.1.tipsAmount ∨ Confirms s.1.text
  | .plusButtonPressed => s.2 < p
  | _ => True

def countPlus (n : ℕ) (_ : DonateTipsPopup) (action : TipsAction) (_ : DonateTipsPopup) : ℕ :=
  if action = .plusButtonPressed then n + 1 else n

/-- The popup after a sequence of actions, and its taps on plus. -/
abbrev Reached (p : ℕ) (Confirms : String → Prop) (tips : Option Int) (s : DonateTipsPopup × ℕ) : Prop :=
  History (recorded (fun vc action vc' => vc.step action = some vc') countPlus) (Allowed p Confirms)
    (viewDidLoad tips, 0) s

/-- Nothing can overflow, and the total is charged as it is. -/
structure Safe (vc : DonateTipsPopup) : Prop where
  nonneg : 0 ≤ vc.tipsAmount
  le : ∀ donateAmount, 1 ≤ donateAmount → donateAmount ≤ 300 → donateAmount + vc.tipsAmount ≤ 2 ^ 24
  step : ∀ action, vc.Enabled action → (vc.step action).isSome
  charged : ∀ checkout : DonateConfirmation, 1 ≤ checkout.donateAmount → checkout.donateAmount ≤ 300 →
    checkout.tipsAmount = vc.donateButtonPressed →
    checkout.total? = some (checkout.donateAmount + checkout.tipsAmount) ∧
      checkout.payAmount = checkout.donateAmount + checkout.tipsAmount

variable {vc vc' : DonateTipsPopup} {p n : ℕ} {Confirms : String → Prop} {tips : Option Int}
  {action : TipsAction} {s : DonateTipsPopup × ℕ}

theorem inRange_of_le {x : Int} (h₀ : 0 ≤ x) (h : x ≤ 2 ^ 24) : InRange x := by
  unfold InRange minValue maxValue
  omega

theorem entered_nonneg (text : String) : 0 ≤ entered text := by
  unfold entered
  dsimp only
  split <;> omega

/-- The text that the popup writes itself is read back. -/
theorem entered_description {x : Int} (h₀ : 0 ≤ x) (h : x ≤ 2 ^ 24) : entered (description x) = x := by
  unfold entered
  rw [parse?_description (inRange_of_le h₀ h)]
  exact if_neg (by simpa using h₀)

theorem safe_of_le (h₀ : 0 ≤ vc.tipsAmount) (h : vc.tipsAmount + 300 ≤ 2 ^ 24) : vc.Safe where
  nonneg := h₀
  le donateAmount _ hmax := by omega
  step action _ := by
    cases action with
    | plusButtonPressed =>
      have hadd := add?_eq_some_iff.mpr ⟨inRange_of_le (x := vc.tipsAmount + 1) (by omega) (by omega), rfl⟩
      have hstep : (vc.plusButtonPressed).isSome := by
        rw [plusButtonPressed, hadd]
        rfl
      exact hstep
    | _ => rfl
  charged checkout hmin hmax htips := by
    have htips : checkout.tipsAmount = vc.tipsAmount := htips
    constructor
    · exact add?_eq_some_iff.mpr ⟨inRange_of_le (by omega) (by omega), rfl⟩
    · apply Binary32.exact_of_natAbs_le
      unfold Binary32.precision
      omega

/-- With its taps on plus taken off the tip stays within the limit. -/
structure Within (p : ℕ) (s : DonateTipsPopup × ℕ) : Prop where
  taps : s.2 ≤ p
  nonneg : 0 ≤ s.1.tipsAmount
  le : s.1.tipsAmount + p + 300 ≤ 2 ^ 24 + s.2

theorem Within.safe (h : Within p s) : s.1.Safe := by
  obtain ⟨htaps, hnonneg, hle⟩ := h
  apply safe_of_le hnonneg
  omega

/-- Whatever an allowed action does to the tip, a tap on plus pays for it. -/
theorem within_step (hlimit : ∀ text, Confirms text → entered text + p + 300 ≤ 2 ^ 24)
    (h : Within p (vc, n)) (hok : Allowed p Confirms (vc, n) action) (hs : vc.step action = some vc') :
    Within p (vc', countPlus n vc action vc') := by
  obtain ⟨htaps, hnonneg, hle⟩ := h
  dsimp only at htaps hnonneg hle
  obtain ⟨-, hallowed⟩ := hok
  cases action with
  | fetchedUpdateUser success tips =>
    obtain rfl := Option.some.inj hs
    cases success with
    | false => exact ⟨htaps, hnonneg, hle⟩
    | true =>
      cases tips with
      | none => exact ⟨htaps, hnonneg, hle⟩
      | some tips =>
        obtain ⟨h₀, hmax⟩ : Stored p tips := hallowed
        refine ⟨htaps, h₀, ?_⟩
        show tips + p + 300 ≤ 2 ^ 24 + (n : Int)
        omega
  | customTipButtonPressed =>
    obtain rfl := Option.some.inj hs
    exact ⟨htaps, hnonneg, hle⟩
  | edited text =>
    obtain rfl := Option.some.inj hs
    exact ⟨htaps, hnonneg, hle⟩
  | doneButtonAction =>
    obtain rfl := Option.some.inj hs
    refine ⟨htaps, entered_nonneg _, ?_⟩
    show entered vc.text + p + 300 ≤ 2 ^ 24 + (n : Int)
    rcases hallowed with hsame | hconfirms
    · have hsame : vc.text = description vc.tipsAmount := hsame
      rw [hsame, entered_description hnonneg (by omega)]
      exact hle
    · have hmax := hlimit vc.text hconfirms
      omega
  | cancelButtonAction =>
    obtain rfl := Option.some.inj hs
    exact ⟨htaps, hnonneg, hle⟩
  | minusButtonPressed =>
    obtain rfl := Option.some.inj hs
    unfold minusButtonPressed
    split
    case isTrue hpos =>
      refine ⟨htaps, ?_, ?_⟩
      · show 0 ≤ vc.tipsAmount - 1
        omega
      · show vc.tipsAmount - 1 + p + 300 ≤ 2 ^ 24 + (n : Int)
        omega
    case isFalse => exact ⟨htaps, hnonneg, hle⟩
  | plusButtonPressed =>
    have hfew : n < p := hallowed
    obtain ⟨tipsAmount, hadd, rfl⟩ := Option.map_eq_some_iff.mp hs
    obtain ⟨-, rfl⟩ := add?_eq_some_iff.mp hadd
    refine ⟨hfew, ?_, ?_⟩
    · show 0 ≤ vc.tipsAmount + 1
      omega
    · show vc.tipsAmount + 1 + p + 300 ≤ 2 ^ 24 + ((n + 1 : ℕ) : Int)
      omega

theorem within_viewDidLoad (h : Stored p (tips.getD 3)) : Within p (viewDidLoad tips, 0) := by
  have htips : (viewDidLoad tips).tipsAmount = tips.getD 3 := by cases tips <;> rfl
  obtain ⟨h₀, hmax⟩ := h
  refine ⟨Nat.zero_le p, ?_, ?_⟩
  · rwa [← htips] at h₀
  · dsimp only
    rw [htips]
    omega

theorem within_of_reached (hlimit : ∀ text, Confirms text → entered text + p + 300 ≤ 2 ^ 24)
    (hstored : Stored p (tips.getD 3)) (h : Reached p Confirms tips s) : Within p s := by
  refine h.invariant (I := fun s => Within p s) ?_ (within_viewDidLoad hstored)
  rintro ⟨vc, n⟩ action ⟨vc', n'⟩ hwithin hok ⟨hs, hn⟩
  obtain rfl : n' = countPlus n vc action vc' := hn
  exact within_step hlimit hwithin hok hs

/-- A confirmed text and `k` taps after it. -/
theorem reached_entered {text : String} (htext : Confirms text)
    (hall : ∀ s, Reached p Confirms tips s → s.1.Safe) {k : ℕ} (hk : k ≤ p) :
    ∃ vc, Reached p Confirms tips (vc, k) ∧ vc.tipsAmount = entered text + k := by
  induction k with
  | zero =>
    have hstart : Reached p Confirms tips (viewDidLoad tips, 0) := .refl
    have hcustom : Allowed p Confirms (viewDidLoad tips, 0) .customTipButtonPressed := ⟨trivial, trivial⟩
    have hediting : Reached p Confirms tips (⟨(viewDidLoad tips).tipsAmount, (viewDidLoad tips).text, true⟩, 0) :=
      hstart.note hcustom rfl
    have hedited : Allowed p Confirms (⟨(viewDidLoad tips).tipsAmount, (viewDidLoad tips).text, true⟩, 0)
        (.edited text) := ⟨rfl, trivial⟩
    have htyped : Reached p Confirms tips (⟨(viewDidLoad tips).tipsAmount, text, true⟩, 0) :=
      hediting.note hedited rfl
    have hdone : Allowed p Confirms (⟨(viewDidLoad tips).tipsAmount, text, true⟩, 0) .doneButtonAction :=
      ⟨rfl, .inr htext⟩
    refine ⟨_, htyped.note hdone rfl, ?_⟩
    show entered text = entered text + ((0 : ℕ) : Int)
    omega
  | succ k ih =>
    obtain ⟨vc, hvc, htips⟩ := ih (by omega)
    obtain ⟨vc', hstep⟩ := Option.isSome_iff_exists.mp ((hall _ hvc).step .plusButtonPressed trivial)
    have hok : Allowed p Confirms (vc, k) .plusButtonPressed := ⟨trivial, hk⟩
    refine ⟨vc', hvc.note hok hstep, ?_⟩
    obtain ⟨tipsAmount, hadd, rfl⟩ := Option.map_eq_some_iff.mp hstep
    obtain ⟨-, rfl⟩ := add?_eq_some_iff.mp hadd
    show vc.tipsAmount + 1 = entered text + ((k + 1 : ℕ) : Int)
    omega

/-- Nothing overflows in any run exactly when the typed tips that are confirmed leave room for the
taps on plus and the largest bucket. -/
theorem safe_iff (Confirms : String → Prop) (p : ℕ) (tips : Option Int) (hstored : Stored p (tips.getD 3)) :
    (∀ s, Reached p Confirms tips s → s.1.Safe) ↔
      ∀ text, Confirms text → entered text + p + 300 ≤ 2 ^ 24 := by
  constructor
  · intro hall text htext
    obtain ⟨vc, hreached, htips⟩ := reached_entered htext hall (Nat.le_refl p)
    have hle := (hall _ hreached).le 300 (by omega) (by omega)
    dsimp only at hle
    omega
  · intro hlimit s hs
    exact (within_of_reached hlimit hstored hs).safe

theorem safe_iff_three :
    (∀ s, Reached 2 (· = "250") (some 3) s → s.1.Safe) ↔
      ∀ text, text = "250" → entered text + 2 + 300 ≤ 2 ^ 24 :=
  safe_iff (· = "250") 2 (some 3) (by unfold Stored; decide)

/-- The largest integer can be typed, and no addition to it works out. -/
theorem not_safe :
    ¬ ∀ (p : ℕ) (tips : Int), Stored p tips → ∀ s, Reached p (fun _ => True) (some tips) s → s.1.Safe := by
  intro hall
  have hstored : Stored 0 3 := by
    unfold Stored
    decide
  have hsafe := hall 0 3 hstored
  have htext : (fun _ : String => True) "9223372036854775807" := trivial
  obtain ⟨vc, hreached, htips⟩ := reached_entered htext hsafe (Nat.le_refl 0)
  have hle := (hsafe _ hreached).le 1 (by omega) (by omega)
  have hentered : entered "9223372036854775807" = 9223372036854775807 := by decide
  rw [hentered] at htips
  dsimp only at hle
  omega

end DonateTipsPopup

end Pledge
