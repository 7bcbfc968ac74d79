import Pledge.Confirmed
import Pledge.Format.Rounding
import Pledge.Retry

/-!
# What is charged

The total of a checkout goes to the endpoint as a single-precision number. However the app is used, a
charge is that number for a confirmed total, and no such number is nearer to it.
-/

namespace Pledge

open EventLoop

/-- The total on the screen of a confirmed checkout. -/
def Confirmed.total (c : Confirmed) : Int := c.vc.donateAmount + c.vc.tipsAmount

/-- A charge of `amount` for checkout `c`, one of the checkouts of `g`. -/
structure ChargedFor (g : List Confirmed) (c : Confirmed) (amount : Int) : Prop where
  confirmed : c ∈ g
  notRecorded : c.total ≠ c.device.userManager.userDonateAndTips
  /-- No amount that can be charged is nearer to the total. -/
  nearest : ∀ x, Binary32.Exact x → (amount - c.total).natAbs ≤ (x - c.total).natAbs
  /-- It is off by one part in `2 ^ 24` at most. -/
  error : (amount - c.total).natAbs * 2 ^ 24 ≤ c.total.natAbs
  exact : c.total.natAbs ≤ 2 ^ 24 → amount = c.total
  /-- Who confirms more is not charged less. -/
  ordered : ∀ c' ∈ g, ∀ amount' isOneTimeMode, c'.Charges amount' isOneTimeMode → c.total ≤ c'.total →
    amount ≤ amount'

variable {g : List Confirmed} {a₀ a : App} {c : Confirmed}

theorem Confirmed.Charges.chargedFor {amount : Int} {isOneTimeMode : Bool} (h : c.Charges amount isOneTimeMode)
    (hc : c ∈ g) : ChargedFor g c amount := by
  obtain ⟨hskip, rfl, -⟩ := h
  refine ⟨hc, hskip, fun x hx => ?_, ?_, fun hle => ?_, fun c' _ amount' _ h' hle => ?_⟩
  · exact Binary32.natAbs_ofInt_sub_le hx c.total
  · exact Binary32.natAbs_ofInt_sub_mul_le c.total
  · exact Binary32.exact_of_natAbs_le hle
  · rw [h'.2.1]
    exact Binary32.ofInt_mono hle

/-- However the app is used, every charge is for a checkout that was confirmed with another total than
the recorded one; it is the nearest amount that can be charged, the total itself up to `2 ^ 24`, and
grows with the total. -/
theorem charged_of_history
    (h : History (recorded (App.Step fun _ => Answers) confirm) (fun _ _ => True) (a₀, []) (a, g)) :
    ∃ t, a.world.2.journal = a₀.world.2.journal ++ t ∧ ∀ amount isOneTimeMode,
      .pay amount isOneTimeMode ∈ t → ∃ c, c.vc.isOneTimeMode = isOneTimeMode ∧ ChargedFor g c amount := by
  obtain ⟨t, ht, hw⟩ := exists_warranted h
  refine ⟨t, ht.journal, fun amount isOneTimeMode hmem => ?_⟩
  obtain ⟨c, hc, hcharges⟩ := hw.charges amount isOneTimeMode hmem
  exact ⟨c, hcharges.2.2.symm, hcharges.chargedFor hc⟩

/-- Ann on the screen with ten and a tip of three. -/
def annTipping : App :=
  { world := donorWorld
    page := .bucket .root ⟨hungerLoaded, .confirmation DonateConfirmation.tenAndThree⟩ }

/-- She is charged thirteen, though the sheet reports a failure. -/
theorem charged_of_history_ann : ∃ (a : App) (t : List Request), a.world.2.journal = annTipping.world.2.journal ++ t ∧
    .pay 13 false ∈ t ∧ ∃ c, c.vc.isOneTimeMode = false ∧
      ChargedFor [⟨DonateConfirmation.tenAndThree, donorWorld.1⟩] c 13 := by
  have hpress : DonateConfirmation.tenAndThree.Presses donorWorld
      (DonateConfirmation.tenAndThree.charged 1 donorWorld) [] :=
    DonateConfirmation.presses_iff.mpr (.inr (.inl
      ⟨DonateConfirmation.not_skips_tenAndThree, 1, by simp [donorWorld], rfl, rfl⟩))
  have hstep : App.Step (fun _ => Answers) annTipping (.completeCheckoutButtonPressed, []) _ :=
    ⟨_, _, _, rfl, hpress, rfl⟩
  obtain ⟨t, hj, hcharged⟩ := charged_of_history (History.note .refl trivial hstep)
  have hmem : .pay 13 false ∈ t := by
    obtain rfl : t = [.pay 13 false] := hj.symm
    exact List.mem_singleton_self _
  exact ⟨_, t, hj, hmem, hcharged 13 false hmem⟩

end Pledge
