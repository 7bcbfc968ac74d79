import Pledge.Checkout

/-! When pressing Complete Checkout again charges again. -/
namespace Pledge

open EventLoop

namespace DonateConfirmation

variable {vc : DonateConfirmation} {w w' w₁ w₂ w₃ : World} {h : List Frame} {l : List Effect}
  {uid : String} {t : List Request}

/-- Something has been charged between `w` and `w'`. -/
def Charges (w w' : World) : Prop :=
  ∃ t amount mode, w'.2.journal = w.2.journal ++ t ∧ Request.pay amount mode ∈ t

/-- The press ended with the error alert and left the screen in front. -/
def Alerts (l : List Effect) : Prop := .networkErrorAlert ∈ l ∧ .redirectToAuth ∉ l

/-- Further presses on the same screen, before the success screen has appeared. -/
inductive Retries (vc : DonateConfirmation) : World → World → Prop
  | none (w : World) : Retries vc w w
  | again {w w₁ w₂ : World} {l : List Effect} (h : Retries vc w w₁) (hp : vc.Presses w₁ w₂ l)
      (hs : ∀ d t m, Effect.showDonateResult d t m ∉ l) (hr : .redirectToAuth ∉ l) : Retries vc w w₂

/-- The user's record names the amounts of the screen. -/
def Recorded (vc : DonateConfirmation) (d : Device) : Prop :=
  d.userManager.defaultDonateAmount = vc.donateAmount ∧ d.userManager.tipsAmount = vc.tipsAmount

/-! ## Recorded amounts are never charged again -/

theorem skips_of_recorded {d : Device} (hr : vc.Recorded d) : vc.Skips d := by
  rw [Skips, UserManager.userDonateAndTips_eq, hr.1, hr.2]

theorem not_charges_of_skips (hs : vc.Skips w.1) (hp : vc.Presses w w' l) : ¬ Charges w w' := by
  rintro ⟨t, amount, mode, ht, hpay⟩
  rcases presses_iff.mp hp with ⟨-, hy⟩ | ⟨hn, -⟩ | ⟨hn, -⟩
  · obtain ⟨t', ht', hmem⟩ := journal_sendToUpdateDonates hy
    obtain rfl : t = t' := List.append_cancel_left (ht.symm.trans ht')
    rcases hmem _ hpay with h | ⟨_, _, h⟩
    · exact h
    · simp at h
  · exact hn hs
  · exact hn hs

theorem recorded_handler {success : Bool} (hr : vc.Recorded w.1)
    (hy : (vc.sendToUpdateDonatesHandler success).Yields Answers w h w' l) :
    w'.1.userManager.user = w.1.userManager.user := by
  rw [sendToUpdateDonatesHandler, yields_read, hr.1] at hy
  simp only [bne_self_eq_false, Bool.and_false, Bool.false_eq_true, if_false] at hy
  exact (finishes_device (yields_completionBlock.mp hy)).1

theorem recorded_press (hr : vc.Recorded w.1) (hp : vc.Presses w w' l) : vc.Recorded w'.1 := by
  have huser : w'.1.userManager.user = w.1.userManager.user := by
    rcases presses_iff.mp hp with ⟨-, hy⟩ | ⟨hn, -⟩ | ⟨hn, -⟩
    · obtain ⟨l', -, hrecording⟩ := sendToUpdateDonates_cases hy
      cases hrecording with
      | nothing _ hw => rw [hw]
      | signedOut _ _ hk => exact recorded_handler hr hk
      | answered _ _ hperm hserve hk =>
        obtain ⟨hd, -⟩ := servesAll_record (records_of_perm hperm) hserve
        rw [recorded_handler (by rwa [hd]) hk, hd]
    · exact absurd (skips_of_recorded hr) hn
    · exact absurd (skips_of_recorded hr) hn
  unfold Recorded UserManager.defaultDonateAmount UserManager.tipsAmount at hr ⊢
  rwa [huser]

theorem recorded_retries (hr : vc.Recorded w.1) (h : vc.Retries w w') : vc.Recorded w'.1 := by
  induction h with
  | none => exact hr
  | again _ hp _ _ ih => exact recorded_press ih hp

/-! ## Amounts that are not recorded can be charged again -/

theorem exists_charge (hs : ¬ vc.Skips w.1) (huser : w.1.userManager.user ≠ none) :
    ∃ w' l, vc.Presses w w' l ∧ Charges w w' := by
  obtain ⟨w', l, hy⟩ := exists_yields answers_total vc.recording (vc.charged 1 w) []
  obtain ⟨t, ht⟩ := yields_journal hy
  refine ⟨w', l, presses_iff.mpr (.inr (.inr ⟨hs, huser, 1, le_rfl, hy⟩)),
    .pay vc.payAmount vc.isOneTimeMode :: t, _, _, ?_, List.mem_cons_self⟩
  rw [← ht]
  simp [charged]

theorem value_rejected {item : OrganisationWithAmount} {b : Branch Bool Request.Response}
    (hb : write? uid item = some b) : Answered.value ⟨b, b.1.rejected⟩ = false := by
  obtain ⟨amount, organisation, donateId⟩ := item
  cases donateId <;> by_cases ha : 0 < amount <;> simp [write?, ha] at hb <;> subst hb <;> rfl

theorem servesAll_rejected (branches : List (Branch Bool Request.Response)) (w : World) :
    ServesAll Answers w (branches.map fun b => ⟨b, b.1.rejected⟩) w := by
  induction branches with
  | nil => exact .nil w
  | cons b rest ih => exact .cons (answers_rejected w b.1) ih

/-- A recording all of whose writes are rejected. -/
theorem yields_rejected {l' : List Effect} (hu : w.1.currentUser = some uid)
    (hitem : vc.donateItems.filterMap (write? uid) ≠ [])
    (hk : ∀ h, (vc.sendToUpdateDonatesHandler false).Yields Answers w h w' l') :
    vc.sendToUpdateDonates.Yields Answers w h w' (.startActivityAnimating :: l') := by
  have hne : vc.donateItems ≠ [] := by
    rintro h
    simp [h] at hitem
  have hfail : succeeded ((vc.donateItems.filterMap (write? uid)).map
      fun b => (⟨b, b.1.rejected⟩ : Answered Bool Request.Response)) = false := by
    obtain ⟨b, hb⟩ := List.exists_mem_of_ne_nil _ hitem
    obtain ⟨item, -, he⟩ := List.mem_filterMap.mp hb
    rw [succeeded, List.all_eq_false]
    exact ⟨⟨b, b.1.rejected⟩, List.mem_map_of_mem hb, by simp [value_rejected he]⟩
  refine (yields_sendToUpdateDonates hu hne).mpr ⟨_, w, l', ?_,
    servesAll_rejected (vc.donateItems.filterMap (write? uid)) w, rfl, ?_⟩
  · simp [Function.comp_def]
  · rw [hfail]
    exact hk _

/-- Every write of the recording is rejected, while the default amount is written. -/
theorem exists_alert_of_skips (hm : vc.isOneTimeMode = false) (hs : vc.Skips w.1)
    (hu : w.1.currentUser = some uid) (hdoc : (w.2.account uid).user ≠ none)
    (hd : vc.donateAmount ≠ w.1.userManager.defaultDonateAmount)
    (hitem : vc.donateItems.filterMap (write? uid) ≠ []) :
    ∃ old, vc.Presses w (w.userUpdated uid old { defaultDonateAmount := some vc.donateAmount }
        fun user => { user with defaultDonateAmount := vc.donateAmount })
      [.startActivityAnimating, .stopActivityAnimating, .networkErrorAlert] := by
  obtain ⟨old, hold⟩ := Option.ne_none_iff_exists'.mp hdoc
  refine ⟨old, presses_iff.mpr (.inl ⟨hs, yields_rejected hu hitem fun h => ?_⟩)⟩
  rw [yields_sendToUpdateDonatesHandler hu, if_neg (by simp [hm, hd])]
  exact .inr ⟨old, hold, rfl, rfl⟩

/-! ## The first attempt -/

theorem recording_oneTime_user (hm : vc.isOneTimeMode = true)
    (hy : vc.addOneTimePaymentToFirebase.Yields Answers w h w' l) :
    w'.1.userManager.user = w.1.userManager.user := by
  have hhandler : ∀ {w h l success}, (vc.sendToUpdateDonatesHandler success).Yields Answers w h w' l →
      w'.1.userManager.user = w.1.userManager.user := by
    intro w h l success hk
    rw [sendToUpdateDonatesHandler, yields_read, hm] at hk
    exact (finishes_device (yields_completionBlock.mp hk)).1
  obtain ⟨l', -, hrecording⟩ := addOneTimePaymentToFirebase_cases hy
  cases hrecording with
  | nothing _ hw => rw [hw]
  | signedOut _ _ hk => exact hhandler hk
  | answered _ _ hperm hserve hk =>
    obtain ⟨hd, -⟩ := servesAll_record (payment_records_of_perm hperm) hserve
    rw [hhandler hk, hd]

/-- A recording that ends with the alert on the screen had a signed-in user and a write. -/
theorem signedIn_of_alerts
    (hy : vc.sendToUpdateDonates.Yields Answers w h w' l) (ha : Alerts l) :
    ∃ uid, w.1.currentUser = some uid ∧ vc.donateItems.filterMap (write? uid) ≠ [] := by
  obtain ⟨l', rfl, hrecording⟩ := sendToUpdateDonates_cases hy
  cases hrecording with
  | nothing => simp [Alerts] at ha
  | @signedOut _ l₂ _ _ hk =>
    have hcount : vc.donateItems.countP (fun item => (write? "" item).isSome) = 0 := by
      by_contra hpos
      refine ha.2 (List.mem_cons_of_mem _ (List.mem_append_left _ ?_))
      exact List.mem_replicate.mpr ⟨hpos, rfl⟩
    have hall : (vc.donateItems.all fun item => !(write? "" item).isSome) = true := by
      rw [List.countP_eq_zero] at hcount
      simpa using hcount
    have halert : .networkErrorAlert ∈ l₂ := by simpa [hcount] using ha.1
    rw [hall] at hk
    exact absurd ((handler_effects hk).1.mp halert) (by simp)
  | @answered uid _ _ _ _ hu _ hperm _ hk =>
    refine ⟨uid, hu, fun hnil => ?_⟩
    rw [hnil, List.perm_nil, List.map_eq_nil_iff] at hperm
    subst hperm
    have hfalse := (handler_effects hk).1.mp (by simpa using ha.1)
    simp [succeeded] at hfalse

/-- The user record after a monthly attempt that charged and then failed: each of the two
amounts is the one on the screen, or the old one, as its write is in the journal or not. -/
structure AttemptRecord (vc : DonateConfirmation) (uid : String) (w w' : World) (t : List Request)
    (user user' : LendUser) : Prop where
  before : w.1.userManager.user = some user
  after : w'.1.userManager.user = some user'
  signedIn : w'.1.currentUser = some uid
  default : user'.defaultDonateAmount = vc.donateAmount ∧
      (∃ uid, .updateUser uid { defaultDonateAmount := some vc.donateAmount } ∈ t) ∨
    user'.defaultDonateAmount = user.defaultDonateAmount ∧
      ¬ ∃ uid, .updateUser uid { defaultDonateAmount := some vc.donateAmount } ∈ t
  tips : user'.tips = some vc.tipsAmount ∧
      (∃ uid, .updateUser uid { tipsAmount := some vc.tipsAmount } ∈ t) ∨
    user'.tips = user.tips ∧ ¬ ∃ uid, .updateUser uid { tipsAmount := some vc.tipsAmount } ∈ t
  document : user' = user ∨ (w'.2.account uid).user ≠ none

theorem updateUser_not_mem_records {data : UserDoc} (ht : ∀ r ∈ t, r.Records) (uid : String) :
    .updateUser uid data ∉ t := fun hmem => ht (.updateUser uid data) hmem

/-- The default amount after a recording, for a journal that had no update of it before. -/
theorem recording_record {user user₀ : LendUser} {t₀ : List Request}
    (hy : vc.sendToUpdateDonates.Yields Answers w₁ h w' l)
    (hm : vc.isOneTimeMode = false) (hu : w₁.1.currentUser = some uid)
    (hbefore : w.1.userManager.user = some user₀) (huser : w₁.1.userManager.user = some user)
    (hj : w₁.2.journal = w.2.journal ++ t₀)
    (hdefault : user.defaultDonateAmount = user₀.defaultDonateAmount ∧
      ∀ uid, .updateUser uid { defaultDonateAmount := some vc.donateAmount } ∉ t₀)
    (htips : user.tips = some vc.tipsAmount ∧
        (∃ uid, .updateUser uid { tipsAmount := some vc.tipsAmount } ∈ t₀) ∨
      user.tips = user₀.tips ∧ ∀ uid, .updateUser uid { tipsAmount := some vc.tipsAmount } ∉ t₀)
    (hdoc : user = user₀ ∨ (w₁.2.account uid).user ≠ none) :
    ∃ t user', w'.2.journal = w.2.journal ++ t ∧ AttemptRecord vc uid w w' t user₀ user' := by
  obtain ⟨hc, t, hrec, hcases⟩ := recording_user hm hu huser hy
  have hnone {data : UserDoc} : ∀ uid, .updateUser uid data ∉ t := updateUser_not_mem_records hrec
  rcases hcases with ⟨hafter, hj', hsame⟩ | ⟨hne, hafter, hj', hdoc'⟩
  · refine ⟨t₀ ++ t, user, by rw [hj', hj, List.append_assoc], ⟨hbefore, hafter, hc, ?_, ?_, ?_⟩⟩
    · exact .inr ⟨hdefault.1, by simp [hdefault.2, hnone]⟩
    · rcases htips with ⟨ht, uid', hmem⟩ | ⟨ht, hmem⟩
      · exact .inl ⟨ht, uid', List.mem_append_left _ hmem⟩
      · exact .inr ⟨ht, by simp [hmem, hnone]⟩
    · rwa [hsame]
  · refine ⟨t₀ ++ t ++ [.updateUser uid { defaultDonateAmount := some vc.donateAmount }], _,
      by rw [hj', hj]; simp only [List.append_assoc], ⟨hbefore, hafter, hc, ?_, ?_, .inr hdoc'⟩⟩
    · exact .inl ⟨rfl, uid, by simp⟩
    · rcases htips with ⟨ht, uid', hmem⟩ | ⟨ht, hmem⟩
      · exact .inl ⟨ht, uid', by simp [hmem]⟩
      · exact .inr ⟨ht, by simp [hmem, hnone]⟩

/-- A monthly press that charged and ended with the alert. -/
theorem attempt_record (hm : vc.isOneTimeMode = false) (hp : vc.Presses w w' l)
    (hc : Charges w w') (ha : Alerts l) :
    ∃ uid t user user', w'.2.journal = w.2.journal ++ t ∧
      vc.donateItems.filterMap (write? uid) ≠ [] ∧ AttemptRecord vc uid w w' t user user' := by
  rcases presses_iff.mp hp with ⟨hs, -⟩ | ⟨-, n, -, -, rfl⟩ | ⟨-, huser, n, hn, hy⟩
  · exact absurd hc (not_charges_of_skips hs hp)
  · simp [Alerts] at ha
  obtain ⟨user, huser⟩ := Option.ne_none_iff_exists'.mp huser
  have hpaid (data : UserDoc) (uid : String) : .updateUser uid data ∉
      List.replicate n (Request.pay vc.payAmount vc.isOneTimeMode) := by simp
  rw [recording, if_neg (by simp [hm])] at hy
  obtain ⟨w₁, l₁, l₂, htips, rfl, hk⟩ := addTips_cases hy
  cases htips with
  | signedOut => simp [Alerts] at ha
  | skipped | rejected =>
    obtain ⟨uid, hu, hitem⟩ := signedIn_of_alerts hk ha
    obtain ⟨t, user', hj, hrec⟩ := recording_record (w := w) hk hm hu huser huser rfl
      ⟨rfl, hpaid _⟩ (.inr ⟨rfl, hpaid _⟩) (.inl rfl)
    exact ⟨uid, t, user, user', hj, hitem, hrec⟩
  | @written uid old _ hu =>
    obtain ⟨uid', hu', hitem⟩ := signedIn_of_alerts hk ha
    obtain rfl : uid = uid' := Option.some.inj (hu.symm.trans hu')
    have huser' : (World.userUpdated (vc.charged n w) uid old { tipsAmount := some vc.tipsAmount }
        fun user => { user with tips := some vc.tipsAmount }).1.userManager.user =
        some { user with tips := some vc.tipsAmount } := by
      simp [World.userUpdated, Device.updateUser, charged, huser]
    obtain ⟨t, user', hj, hrec⟩ := recording_record (w := w) hk hm hu huser huser'
      (List.append_assoc _ _ _) ⟨rfl, by simp⟩ (.inl ⟨rfl, uid, by simp⟩)
      (.inr (by simp [World.userUpdated]))
    exact ⟨uid, t, user, user', hj, hitem, hrec⟩

/-- The two amounts were already recorded, or the attempt has written them. -/
def WritesRecorded (vc : DonateConfirmation) (u : UserManager) (t : List Request) : Prop :=
  vc.isOneTimeMode = false ∧
  (u.defaultDonateAmount = vc.donateAmount ∨
    ∃ uid, .updateUser uid { defaultDonateAmount := some vc.donateAmount } ∈ t) ∧
  (u.tipsAmount = vc.tipsAmount ∨ ∃ uid, .updateUser uid { tipsAmount := some vc.tipsAmount } ∈ t)

theorem recorded_iff_writesRecorded {user user' : LendUser} (hm : vc.isOneTimeMode = false)
    (hr : AttemptRecord vc uid w w' t user user') :
    vc.Recorded w'.1 ↔ vc.WritesRecorded w.1.userManager t := by
  unfold Recorded WritesRecorded UserManager.defaultDonateAmount UserManager.tipsAmount
  rw [hr.before, hr.after]
  rcases hr.default with ⟨hd, hdw⟩ | ⟨hd, hdw⟩ <;> rcases hr.tips with ⟨ht, htw⟩ | ⟨ht, htw⟩ <;>
    simp [hm, hd, ht, hdw, htw]

/-- Amounts that are not recorded lead to a charge after at most one more failure. -/
theorem exists_retry_charge {user user' : LendUser} (hm : vc.isOneTimeMode = false)
    (hp : vc.Presses w w₁ l) (hc : Charges w w₁)
    (hitem : vc.donateItems.filterMap (write? uid) ≠ [])
    (hr : AttemptRecord vc uid w w₁ t user user') (hn : ¬ vc.Recorded w₁.1) :
    ∃ w₂ w₃ l', vc.Retries w₁ w₂ ∧ vc.Presses w₂ w₃ l' ∧ Charges w₂ w₃ := by
  have hafter : w₁.1.userManager.user ≠ none := by simp [hr.after]
  by_cases hs : vc.Skips w₁.1
  · have hdefault : w₁.1.userManager.defaultDonateAmount ≠ vc.donateAmount := by
      intro hd
      refine hn ⟨hd, ?_⟩
      rw [Skips, UserManager.userDonateAndTips_eq, hd] at hs
      omega
    have hdoc : (w₁.2.account uid).user ≠ none := by
      rcases hr.document with rfl | hdoc
      · have hsame : vc.Skips w.1 := by
          unfold Skips UserManager.userDonateAndTips at hs ⊢
          rwa [hr.before, ← hr.after]
        exact absurd hc (not_charges_of_skips hsame hp)
      · exact hdoc
    obtain ⟨old, hpress⟩ := exists_alert_of_skips hm hs hr.signedIn hdoc hdefault.symm hitem
    have huser₂ : ((w₁.userUpdated uid old { defaultDonateAmount := some vc.donateAmount }
        fun user => { user with defaultDonateAmount := vc.donateAmount }).1).userManager.user =
        some { user' with defaultDonateAmount := vc.donateAmount } := by
      simp [World.userUpdated, Device.updateUser, hr.after]
    have hs₂ : ¬ vc.Skips (w₁.userUpdated uid old { defaultDonateAmount := some vc.donateAmount }
        fun user => { user with defaultDonateAmount := vc.donateAmount }).1 := by
      intro h
      unfold Skips UserManager.userDonateAndTips at h hs
      rw [huser₂] at h
      rw [hr.after] at hs
      rw [UserManager.defaultDonateAmount, hr.after] at hdefault
      simp at h hs hdefault
      omega
    obtain ⟨w₃, l', hp₃, hc₃⟩ := exists_charge hs₂ (by simp [huser₂])
    exact ⟨_, w₃, l', .again (.none _) hpress (by simp) (by simp), hp₃, hc₃⟩
  · obtain ⟨w₃, l', hp₃, hc₃⟩ := exists_charge hs hafter
    exact ⟨w₁, w₃, l', .none w₁, hp₃, hc₃⟩

/-- After an attempt that charged and ended with the alert, no press ever charges again
exactly when the checkout is monthly and both its amounts are in the user's record, because
they were there before or because the attempt wrote them. -/
theorem retry_never_charges_iff (hp : vc.Presses w w₁ l)
    (hj : w₁.2.journal = w.2.journal ++ t) (hc : ∃ amount mode, .pay amount mode ∈ t)
    (ha : Alerts l) :
    (∀ w₂ w₃ l', vc.Retries w₁ w₂ → vc.Presses w₂ w₃ l' → ¬ Charges w₂ w₃) ↔
      vc.WritesRecorded w.1.userManager t := by
  obtain ⟨amount, mode, hpay⟩ := hc
  have hc : Charges w w₁ := ⟨t, amount, mode, hj, hpay⟩
  cases hm : vc.isOneTimeMode with
  | true =>
    refine iff_of_false (fun hnever => ?_) (fun hw => by simp [WritesRecorded, hm] at hw)
    rcases presses_iff.mp hp with ⟨hs, -⟩ | ⟨-, n, -, -, rfl⟩ | ⟨hs, huser, n, hn, hy⟩
    · exact not_charges_of_skips hs hp hc
    · simp [Alerts] at ha
    · rw [recording, if_pos hm] at hy
      have huser₁ := recording_oneTime_user hm hy
      have hsame : w₁.1.userManager.user = w.1.userManager.user := huser₁
      have hs₁ : ¬ vc.Skips w₁.1 := by
        unfold Skips UserManager.userDonateAndTips at hs ⊢
        rwa [hsame]
      obtain ⟨w₃, l', hp₃, hc₃⟩ := exists_charge hs₁ (by rwa [hsame])
      exact hnever w₁ w₃ l' (.none w₁) hp₃ hc₃
  | false =>
    obtain ⟨uid, t', user, user', hj', hitem, hr⟩ := attempt_record hm hp hc ha
    obtain rfl : t = t' := List.append_cancel_left (hj.symm.trans hj')
    rw [← recorded_iff_writesRecorded hm hr]
    constructor
    · intro hnever
      by_contra hn
      obtain ⟨w₂, w₃, l', hr₂, hp₃, hc₃⟩ := exists_retry_charge hm hp hc hitem hr hn
      exact hnever w₂ w₃ l' hr₂ hp₃ hc₃
    · intro hrec w₂ w₃ l' hr₂ hp₃
      exact not_charges_of_skips (skips_of_recorded (recorded_retries hrec hr₂)) hp₃

/-! ## A checkout of ten and three -/

def tenAndThree : DonateConfirmation :=
  ⟨10, 3, [{ amount := 10, organisation := { id := "shelter" } }], false⟩

theorem not_skips_tenAndThree : ¬ tenAndThree.Skips donorWorld.1 := by
  unfold Skips
  decide

/-- The charge is taken; then the tips write and the pledge write are rejected. -/
theorem presses_tenAndThree {l' : List Effect}
    (hk : ∀ h, (tenAndThree.sendToUpdateDonatesHandler false).Yields Answers
      (tenAndThree.charged 1 donorWorld) h w' l') :
    tenAndThree.Presses donorWorld w' (.startActivityAnimating :: l') := by
  refine presses_iff.mpr (.inr (.inr ⟨not_skips_tenAndThree, by simp [donorWorld], 1, le_rfl, ?_⟩))
  rw [recording, if_neg (by decide), addTips, if_pos (by decide)]
  have hu : (tenAndThree.charged 1 donorWorld).1.currentUser = some "ann" := rfl
  exact (yields_addTips hu).mpr (.inl (yields_rejected hu (by decide) hk))

/-- The donor's tip is three already; once the default amount is written nothing is charged. -/
theorem retry_never_charges_tenAndThree :
    ∃ w₁ l, tenAndThree.Presses donorWorld w₁ l ∧ Charges donorWorld w₁ ∧ Alerts l ∧
      ∀ w₂ w₃ l', tenAndThree.Retries w₁ w₂ → tenAndThree.Presses w₂ w₃ l' → ¬ Charges w₂ w₃ := by
  have hu : (tenAndThree.charged 1 donorWorld).1.currentUser = some "ann" := rfl
  obtain ⟨w₁, hp, hj⟩ : ∃ w₁, tenAndThree.Presses donorWorld w₁
      [.startActivityAnimating, .stopActivityAnimating, .networkErrorAlert] ∧
      w₁.2.journal = donorWorld.2.journal ++
        [.pay tenAndThree.payAmount false,
          .updateUser "ann" { defaultDonateAmount := some 10 }] := by
    refine ⟨(tenAndThree.charged 1 donorWorld).userUpdated "ann"
        { email := some "ann@mail.com", displayName := some "Ann Lee"
          defaultDonateAmount := some 7, tipsAmount := some 3 }
        { defaultDonateAmount := some 10 } fun user => { user with defaultDonateAmount := 10 },
      presses_tenAndThree fun h => ?_, rfl⟩
    rw [yields_sendToUpdateDonatesHandler hu, if_neg (by decide)]
    exact .inr ⟨_, rfl, rfl, rfl⟩
  have hc : ∃ amount mode, .pay amount mode ∈ [Request.pay tenAndThree.payAmount false,
      .updateUser "ann" { defaultDonateAmount := some 10 }] := ⟨_, _, List.mem_cons_self⟩
  have ha : Alerts [.startActivityAnimating, .stopActivityAnimating, .networkErrorAlert] := by
    simp [Alerts]
  have hw : tenAndThree.WritesRecorded donorWorld.1.userManager
      [.pay tenAndThree.payAmount false, .updateUser "ann" { defaultDonateAmount := some 10 }] :=
    ⟨rfl, .inr ⟨"ann", by simp [tenAndThree]⟩, .inl rfl⟩
  obtain ⟨amount, mode, hpay⟩ := hc
  exact ⟨w₁, _, hp, ⟨_, amount, mode, hj, hpay⟩, ha,
    (retry_never_charges_iff hp hj ⟨amount, mode, hpay⟩ ha).mpr hw⟩

/-- Nothing but the charge succeeds, and the next press charges again. -/
theorem not_retry_never_charges :
    ¬ ∀ w₁ l, tenAndThree.Presses donorWorld w₁ l → Charges donorWorld w₁ → Alerts l →
      ∀ w₂ w₃ l', tenAndThree.Retries w₁ w₂ → tenAndThree.Presses w₂ w₃ l' → ¬ Charges w₂ w₃ := by
  intro hnever
  have hp : tenAndThree.Presses donorWorld (tenAndThree.charged 1 donorWorld)
      [.startActivityAnimating, .stopActivityAnimating, .networkErrorAlert] := by
    refine presses_tenAndThree fun h => ?_
    have hu : (tenAndThree.charged 1 donorWorld).1.currentUser = some "ann" := rfl
    rw [yields_sendToUpdateDonatesHandler hu, if_neg (by decide)]
    exact .inl ⟨rfl, rfl⟩
  have hs : ¬ tenAndThree.Skips (tenAndThree.charged 1 donorWorld).1 := not_skips_tenAndThree
  obtain ⟨w₃, l', hp₃, hc₃⟩ := exists_charge hs (by simp [donorWorld, charged])
  exact hnever _ _ hp ⟨_, _, _, rfl, List.mem_singleton_self _⟩ (by simp [Alerts]) _ w₃ l'
    (.none _) hp₃ hc₃

end DonateConfirmation

end Pledge
