import Pledge.Checkout

/-! When a one-time checkout stays apart from the monthly plan. -/
namespace Pledge

open EventLoop

namespace DonateConfirmation

variable {vc : DonateConfirmation} {w w' : World} {h : List Frame} {l : List Effect}
  {success : Bool} {uid : String}

/-- The handler of a one-time checkout sends nothing. -/
theorem handler_server_oneTime (hm : vc.isOneTimeMode = true)
    (hy : (vc.sendToUpdateDonatesHandler success).Yields Answers w h w' l) : w'.2 = w.2 := by
  rw [sendToUpdateDonatesHandler, yields_read, hm] at hy
  exact finishes_server (yields_completionBlock.mp hy)

/-- A pledge write is no payment. -/
theorem write?_ne_addPayment {item : OrganisationWithAmount} {b : Branch Bool Request.Response}
    (hb : write? uid item = some b) :
    (∀ uid data, b.1 ≠ .addPayment uid data) ∧ ∀ amount mode, b.1 ≠ .pay amount mode := by
  obtain ⟨amount, organisation, donateId⟩ := item
  cases donateId <;> by_cases ha : 0 < amount <;> simp [write?, ha] at hb <;> subst hb <;> simp

/-- What `addOneTimePaymentToFirebase` adds to the journal. -/
theorem journal_addOneTimePaymentToFirebase (hm : vc.isOneTimeMode = true)
    (hy : vc.addOneTimePaymentToFirebase.Yields Answers w h w' l) :
    ∃ t, w'.2.journal = w.2.journal ++ t ∧
      ∀ r ∈ t, vc.payments ≠ [] ∧ ∃ uid data, w.1.currentUser = some uid ∧ r = .addPayment uid data := by
  obtain ⟨l', -, hrecording⟩ := addOneTimePaymentToFirebase_cases hy
  cases hrecording with
  | nothing _ hw => exact ⟨[], by simp [hw]⟩
  | signedOut _ _ hk => exact ⟨[], by simp [handler_server_oneTime hm hk]⟩
  | @answered uid _ _ _ _ hu hne hperm hserve hk =>
    obtain ⟨-, -, t, ht, hreq⟩ := servesAll_record (payment_records_of_perm hperm) hserve
    refine ⟨t, by rw [handler_server_oneTime hm hk, ht], fun r hr => ⟨hne, uid, ?_⟩⟩
    obtain ⟨a, ha, rfl⟩ := hreq r hr
    obtain ⟨p, -, he⟩ := payment_of_perm hperm ha
    exact ⟨_, hu, by rw [he]; rfl⟩

/-- What `sendToUpdateDonates` adds to the journal in one-time mode. -/
theorem journal_sendToUpdateDonates_oneTime (hm : vc.isOneTimeMode = true)
    (hy : vc.sendToUpdateDonates.Yields Answers w h w' l) :
    ∃ t, w'.2.journal = w.2.journal ++ t ∧
      ∀ r ∈ t, ∃ uid item b, w.1.currentUser = some uid ∧ item ∈ vc.donateItems ∧
        write? uid item = some b := by
  obtain ⟨l', -, hrecording⟩ := sendToUpdateDonates_cases hy
  cases hrecording with
  | nothing _ hw => exact ⟨[], by simp [hw]⟩
  | signedOut _ _ hk => exact ⟨[], by simp [handler_server_oneTime hm hk]⟩
  | @answered uid _ _ _ _ hu _ hperm hserve hk =>
    obtain ⟨-, -, t, ht, hreq⟩ := servesAll_record (records_of_perm hperm) hserve
    refine ⟨t, by rw [handler_server_oneTime hm hk, ht], fun r hr => ?_⟩
    obtain ⟨a, ha, rfl⟩ := hreq r hr
    obtain ⟨item, hitem, he⟩ := answer_of_perm hperm ha
    exact ⟨uid, item, a.1, hu, hitem, he⟩

/-! ## The journal of a one-time checkout -/

/-- Only charges and payment records of the user, and no payment record before the endpoint
has taken the total. -/
def Isolated (vc : DonateConfirmation) (currentUser : Option String) (l : List Request) : Prop :=
  ∀ pre r post, l = pre ++ r :: post →
    (∃ amount mode, r = .pay amount mode) ∨
    (∃ uid data, currentUser = some uid ∧ r = .addPayment uid data) ∧
      .pay (vc.donateAmount + vc.tipsAmount) true ∈ pre

/-- The inputs on which a one-time checkout stays apart from the monthly plan. -/
def KeepsApart (vc : DonateConfirmation) (d : Device) : Prop :=
  d.currentUser = none ∨
  (¬ vc.Skips d ∧
    (d.userManager.user = none ∨ Binary32.Exact (vc.donateAmount + vc.tipsAmount) ∨
      vc.payments = [])) ∨
  (vc.Skips d ∧ ∀ item ∈ vc.donateItems, item.donateId = none ∧ item.amount ≤ 0)

theorem isolated_prefix {currentUser : Option String} {l t : List Request}
    (hi : vc.Isolated currentUser l) (hp : t <+: l) : vc.Isolated currentUser t := by
  obtain ⟨q, rfl⟩ := hp
  rintro pre r post rfl
  exact hi pre r (post ++ q) (by simp)

theorem isolated_nil {currentUser : Option String} : vc.Isolated currentUser [] := by
  intro pre r post he
  simp at he

/-- Charges of the total followed by payment records. -/
theorem isolated_append {currentUser : Option String} {n : ℕ} {t : List Request}
    (ht : ∀ r ∈ t, ∃ uid data, currentUser = some uid ∧ r = .addPayment uid data)
    (hn : t ≠ [] → 1 ≤ n ∧ vc.payAmount = vc.donateAmount + vc.tipsAmount) :
    vc.Isolated currentUser (List.replicate n (.pay vc.payAmount true) ++ t) := by
  intro pre r post he
  rcases List.append_eq_append_iff.mp he with ⟨q, rfl, hq⟩ | ⟨q, hq, hpost⟩
  · have hr : r ∈ t := by simp [hq]
    obtain ⟨h1, hpay⟩ := hn (List.ne_nil_of_mem hr)
    refine .inr ⟨ht r hr, ?_⟩
    rw [← hpay]
    simp
    omega
  · cases q with
    | nil =>
      have hr : r ∈ t := by simp at hpost; simp [← hpost]
      obtain ⟨h1, hpay⟩ := hn (List.ne_nil_of_mem hr)
      refine .inr ⟨ht r hr, ?_⟩
      rw [← hpay, ← List.append_nil pre, ← hq]
      simp
      omega
    | cons r' q =>
      obtain ⟨rfl, -⟩ := List.cons.inj hpost
      have hr : r ∈ List.replicate n (Request.pay vc.payAmount true) := by simp [hq]
      exact .inl ⟨_, _, List.eq_of_mem_replicate hr⟩

theorem journal_isolated (hm : vc.isOneTimeMode = true) (hk : vc.KeepsApart w.1)
    (hp : vc.Presses w w' l) :
    ∃ t, w'.2.journal = w.2.journal ++ t ∧ vc.Isolated w.1.currentUser t := by
  rcases presses_iff.mp hp with ⟨hs, hy⟩ | ⟨-, n, -, rfl, -⟩ | ⟨hs, huser, n, hn, hy⟩
  · obtain ⟨t, ht, hmem⟩ := journal_sendToUpdateDonates_oneTime hm hy
    refine ⟨t, ht, ?_⟩
    have hnil : t = [] := by
      rw [List.eq_nil_iff_forall_not_mem]
      intro r hr
      obtain ⟨uid, item, b, hu, hitem, hb⟩ := hmem r hr
      rcases hk with hk | ⟨hk, -⟩ | ⟨-, hk⟩
      · exact absurd (hu.symm.trans hk) (by simp)
      · exact hk hs
      · obtain ⟨hid, ha⟩ := hk item hitem
        simp [write?, hid, Int.not_lt.mpr ha] at hb
    rw [hnil]
    exact isolated_nil
  · refine ⟨List.replicate n (.pay vc.payAmount true), by rw [charged, hm]; rfl, ?_⟩
    simpa using isolated_append (t := []) (n := n) (by simp) (by simp)
  · rw [recording, if_pos hm] at hy
    obtain ⟨t, ht, hmem⟩ := journal_addOneTimePaymentToFirebase hm hy
    refine ⟨List.replicate n (.pay vc.payAmount true) ++ t, ?_, ?_⟩
    · rw [ht, charged, hm, Server.record_journal, List.append_assoc]
    · refine isolated_append (fun r hr => (hmem r hr).2) fun hne => ⟨hn, ?_⟩
      obtain ⟨r, hr⟩ := List.exists_mem_of_ne_nil t hne
      obtain ⟨hpay, uid, _, hu, -⟩ := hmem r hr
      rcases hk with hk | ⟨-, hk | hk | hk⟩ | ⟨hk, -⟩
      · exact absurd (hu.symm.trans hk) (by simp)
      · exact absurd hk huser
      · exact hk
      · exact absurd hk hpay
      · exact absurd hk hs

/-- A recording that goes through as a whole, up to the call of its handler. -/
theorem exists_yields_addOneTimePaymentToFirebase (hu : w.1.currentUser = some uid)
    (hne : vc.payments ≠ []) :
    ∃ w' l t, vc.addOneTimePaymentToFirebase.Yields Answers w [] w' l ∧
      w'.2.journal = w.2.journal ++ (vc.payments.map fun p => (paymentWrite uid w.1.now p).1) ++ t := by
  obtain ⟨answers, w₂, hperm, hserve, hj⟩ :=
    exists_servesAll_record (vc.payments.map (paymentWrite uid w.1.now))
      (fun b hb => by
        obtain ⟨p, -, rfl⟩ := List.mem_map.mp hb
        trivial) w
  obtain ⟨w', l, hk⟩ := exists_yields answers_total
    (vc.sendToUpdateDonatesHandler (succeeded answers)) w₂ _
  obtain ⟨t, ht⟩ := yields_journal hk
  refine ⟨w', _, t, (yields_addOneTimePaymentToFirebase hu hne).mpr
    ⟨answers, w₂, l, hperm ▸ .rfl, hserve, rfl, hk⟩, ?_⟩
  rw [← ht, hj, List.map_map]
  rfl

theorem exists_yields_sendToUpdateDonates (hu : w.1.currentUser = some uid)
    (hne : vc.donateItems ≠ []) :
    ∃ w' l t, vc.sendToUpdateDonates.Yields Answers w [] w' l ∧
      w'.2.journal =
        w.2.journal ++ ((vc.donateItems.filterMap (write? uid)).map Sigma.fst) ++ t := by
  obtain ⟨answers, w₂, hperm, hserve, hj⟩ :=
    exists_servesAll_record (vc.donateItems.filterMap (write? uid)) (fun b hb => by
      obtain ⟨item, -, he⟩ := List.mem_filterMap.mp hb
      exact write?_records he) w
  obtain ⟨w', l, hk⟩ := exists_yields answers_total
    (vc.sendToUpdateDonatesHandler (succeeded answers)) w₂ _
  obtain ⟨t, ht⟩ := yields_journal hk
  refine ⟨w', _, t, (yields_sendToUpdateDonates hu hne).mpr
    ⟨answers, w₂, l, hperm ▸ .rfl, hserve, rfl, hk⟩, ?_⟩
  rw [← ht, hj]

theorem exists_not_isolated_of_skip (hu : w.1.currentUser = some uid)
    (htotal : vc.Skips w.1)
    {item : OrganisationWithAmount} (hitem : item ∈ vc.donateItems)
    {b : Branch Bool Request.Response} (hb : write? uid item = some b) :
    ∃ w' l t, vc.Presses w w' l ∧
      w'.2.journal = w.2.journal ++ t ∧ ¬ vc.Isolated w.1.currentUser t := by
  obtain ⟨w', l, t, hy, hj⟩ := exists_yields_sendToUpdateDonates hu (List.ne_nil_of_mem hitem)
  have hpress : vc.Presses w w' l := presses_iff.mpr (.inl ⟨htotal, hy⟩)
  refine ⟨w', l, _, hpress, by rw [hj, List.append_assoc], fun hi => ?_⟩
  have hmem : b.1 ∈ (vc.donateItems.filterMap (write? uid)).map Sigma.fst ++ t :=
    List.mem_append_left _ (List.mem_map_of_mem (List.mem_filterMap.mpr ⟨item, hitem, hb⟩))
  obtain ⟨pre, post, hsplit⟩ := List.append_of_mem hmem
  obtain ⟨hpayment, hpay⟩ := write?_ne_addPayment hb
  rcases hi pre b.1 post hsplit with ⟨amount, mode, he⟩ | ⟨⟨_, data, -, he⟩, -⟩
  · exact hpay amount mode he
  · exact hpayment _ data he

theorem exists_not_isolated_of_charge (hm : vc.isOneTimeMode = true) (hu : w.1.currentUser = some uid)
    (htotal : ¬ vc.Skips w.1)
    (huser : w.1.userManager.user ≠ none) (hne : vc.payments ≠ [])
    (hpay : vc.payAmount ≠ vc.donateAmount + vc.tipsAmount) :
    ∃ w' l t, vc.Presses w w' l ∧
      w'.2.journal = w.2.journal ++ t ∧ ¬ vc.Isolated w.1.currentUser t := by
  obtain ⟨w', l, t, hy, hj⟩ :=
    exists_yields_addOneTimePaymentToFirebase (w := vc.charged 1 w) hu hne
  have hpress : vc.Presses w w' l := by
    refine presses_iff.mpr (.inr (.inr ⟨htotal, huser, 1, le_rfl, ?_⟩))
    rwa [recording, if_pos hm]
  obtain ⟨p, ps, hps⟩ := List.exists_cons_of_ne_nil hne
  refine ⟨w', l, [.pay vc.payAmount true] ++
    (vc.payments.map (fun p => (paymentWrite uid w.1.now p).1) ++ t), hpress, ?_, ?_⟩
  · rw [hj, charged, hm, Server.record_journal]
    simp only [List.append_assoc, List.replicate_one]
  intro hi
  rw [hps] at hi
  rcases hi [.pay vc.payAmount true] _ _ rfl with ⟨_, _, he⟩ | ⟨-, hmem⟩
  · simp [paymentWrite] at he
  · simp at hmem
    exact hpay hmem.symm

/-- Off these inputs some execution breaks the isolation. -/
theorem exists_not_isolated (hm : vc.isOneTimeMode = true) (hk : ¬ vc.KeepsApart w.1) :
    ∃ w' l t, vc.Presses w w' l ∧
      w'.2.journal = w.2.journal ++ t ∧ ¬ vc.Isolated w.1.currentUser t := by
  rw [KeepsApart, not_or, not_or] at hk
  obtain ⟨hu, hcharge, hskip⟩ := hk
  obtain ⟨uid, hu⟩ := Option.ne_none_iff_exists'.mp hu
  by_cases htotal : vc.Skips w.1
  · have hitem : ∃ item ∈ vc.donateItems, ∃ b, write? uid item = some b := by
      by_contra hnone
      refine hskip ⟨htotal, fun item hitem => ?_⟩
      by_contra hidle
      refine hnone ⟨item, hitem, ?_⟩
      cases hid : item.donateId with
      | some donateId => by_cases ha : 0 < item.amount <;> simp [write?, hid, ha]
      | none =>
        have ha : 0 < item.amount := by
          by_contra ha
          exact hidle ⟨hid, by omega⟩
        simp [write?, hid, ha]
    obtain ⟨item, hitem, b, hb⟩ := hitem
    exact exists_not_isolated_of_skip hu htotal hitem hb
  · simp only [not_and, not_or] at hcharge
    obtain ⟨huser, hexact, hne⟩ := hcharge htotal
    exact exists_not_isolated_of_charge hm hu htotal huser hne hexact

/-- A journal determines what the press added to it, so not every run is isolated. -/
theorem not_runs_isolated (hm : vc.isOneTimeMode = true) (hk : ¬ vc.KeepsApart w.1) :
    ¬ ∀ d : Loop, Runs Answers (vc.completeCheckoutButtonPressed.exec (.fresh _ w)) d →
      ∃ t, d.state.2.journal = w.2.journal ++ t ∧ vc.Isolated w.1.currentUser t := by
  intro hruns
  obtain ⟨w', l, t, ⟨h', hs⟩, hj, hi⟩ := exists_not_isolated hm hk
  obtain ⟨t', hj', hi'⟩ := hruns _ hs.1
  obtain rfl : t = t' := List.append_cancel_left (hj.symm.trans hj')
  exact hi hi'

end DonateConfirmation

/-- A one-time checkout is isolated from the monthly plan exactly when its total differs
from the recorded monthly total (or nothing would be written for its items) and, where it
writes payments, the total is a binary32 number. -/
theorem oneTimeCheckout_isolated_iff (donateAmount tipsAmount : Int)
    (donateItems : List OrganisationWithAmount) (w : World) :
    let vc : DonateConfirmation := ⟨donateAmount, tipsAmount, donateItems, true⟩
    (∀ d : Loop, Runs Answers (vc.completeCheckoutButtonPressed.exec (.fresh _ w)) d →
      ∃ t, d.state.2.journal = w.2.journal ++ t ∧ vc.Isolated w.1.currentUser t) ↔
    vc.KeepsApart w.1 := by
  intro vc
  constructor
  · intro hruns
    by_contra hk
    exact DonateConfirmation.not_runs_isolated (show vc.isOneTimeMode = true from rfl) hk hruns
  · intro hk d hd
    obtain ⟨e, he, hq⟩ := exists_settles answers_total d
    obtain ⟨l, -, hy⟩ := yields_of_settles (c := Config.fresh _ w) rfl ⟨hd.trans he, hq⟩
    obtain ⟨t, ht, hi⟩ := DonateConfirmation.journal_isolated (show vc.isOneTimeMode = true from rfl) hk hy
    obtain ⟨q, hq⟩ := runs_journal he
    obtain ⟨t', ht'⟩ := runs_journal hd
    rw [exec_env] at ht'
    refine ⟨t', ht'.symm, DonateConfirmation.isolated_prefix hi ⟨q, ?_⟩⟩
    rw [← List.append_right_inj w.2.journal, ← List.append_assoc]
    exact (congrArg (· ++ q) ht').trans (hq.trans ht)

/-- Ten at once from a donor whose monthly record is seven and three: nothing is charged
and a monthly pledge is added. -/
theorem not_oneTimeCheckout_isolated :
    let vc : DonateConfirmation := ⟨10, 0, [{ amount := 10, organisation := { id := "shelter" } }], true⟩
    ¬ ∀ d : Loop, Runs Answers (vc.completeCheckoutButtonPressed.exec (.fresh _ donorWorld)) d →
      ∃ t, d.state.2.journal = donorWorld.2.journal ++ t ∧ vc.Isolated donorWorld.1.currentUser t := by
  intro vc hruns
  have hk : ¬ vc.KeepsApart donorWorld.1 := by
    rintro (h | ⟨h, -⟩ | ⟨-, h⟩)
    · simp [donorWorld] at h
    · exact h rfl
    · exact absurd (h _ (List.mem_singleton_self _)).2 (by decide)
  exact DonateConfirmation.not_runs_isolated (show vc.isOneTimeMode = true from rfl) hk hruns

end Pledge
