import Pledge.Fetching
import Pledge.OneTimeCheckout
import Pledge.Settlement

/-! When the payment history is the receipt of a one-time charge. -/
namespace Pledge

open EventLoop

variable {w w' w₁ : World} {h : List Frame} {l : List Effect} {uid : String}

namespace MyImpacts

/-- The second half of `loadData`. -/
def loadPrevSupported : Prog :=
  FirestoreManager.fetchPaymentHistory fun data => .emit (.showPrevSupported (data.getD [])) .stop

end MyImpacts

/-- Some payment of the history names the organisation. -/
def Account.Paid (a : Account) (organisationId : String) : Prop :=
  ∃ e ∈ a.paymentHistory.entries, e.2.organisation = some organisationId

/-- Only organisations named by the history are shown as supported before. -/
theorem showPrevSupported_paid (hu : w.1.currentUser = some uid)
    (hy : MyImpacts.loadPrevSupported.Yields Answers w h w' l) {organisations : List OrganisationItem}
    (hm : .showPrevSupported organisations ∈ l) :
    ∀ o ∈ organisations, (w.2.account uid).Paid o.id := by
  have hend : ∀ {data w₁ h}, (Program.emit (Effect.showPrevSupported (Option.getD data [])) .stop :
      Prog).Yields Answers w₁ h w' l → organisations = data.getD [] := by
    intro data w₁ h hk
    obtain ⟨l', rfl, hstop⟩ := yields_emit.mp hk
    obtain ⟨-, rfl⟩ := yields_stop.mp hstop
    simpa using hm
  rw [MyImpacts.loadPrevSupported, FirestoreManager.fetchPaymentHistory, yields_withUid_signedIn hu] at hy
  obtain ⟨snapshot, w₁, ⟨rfl, hs⟩, hk⟩ := yields_ask.mp hy
  cases snapshot with
  | none =>
    rw [hend hk]
    simp
  | some documents =>
    obtain ⟨h₁, os, hos, hk⟩ := yields_fetchOrganisationsIn hk
    rw [hend hk]
    intro o ho
    obtain ⟨-, hid⟩ := hos o ho
    obtain ⟨d, hd, hdata⟩ := List.mem_filterMap.mp hid
    obtain ⟨data, hsome, horg⟩ := Option.bind_eq_some_iff.mp hdata
    have hmem := (hs _ rfl).mem_iff.mp hd
    rw [hsome] at hmem
    exact ⟨⟨d.documentID, data⟩, AList.mem_lookup_iff.mp hmem.2, horg⟩

namespace DonateConfirmation

variable {vc : DonateConfirmation} {now : ℕ}

def paymentDoc (now : ℕ) (p : String × Int) : PaymentDoc :=
  { amount := some p.2, organisation := some p.1, date := some now }

/-- The documents a receipt lists: the tip, and every row that received something. -/
def receipt (vc : DonateConfirmation) (now : ℕ) : List PaymentDoc :=
  ((if 0 < vc.tipsAmount then [("tips", vc.tipsAmount)] else []) ++
    (vc.donateItems.filter fun item => 0 < item.amount).map fun item =>
      (item.organisation.id, item.amount)).map (paymentDoc now)

/-- The history has gained the receipt, its amounts add up to what was charged, and only
organisations on it appear newly as supported. -/
structure Receipted (vc : DonateConfirmation) (uid : String) (w w' : World) : Prop where
  documents : ∃ added, (w'.2.account uid).paymentHistory.entries.Perm
      (added ++ (w.2.account uid).paymentHistory.entries) ∧
    (added.map Sigma.snd).Perm (vc.receipt w.1.now) ∧
    (added.map fun e => e.2.amount.getD 0).sum = vc.payAmount
  supported : ∀ w₁ l organisations, MyImpacts.loadPrevSupported.Yields Answers w' [] w₁ l →
    .showPrevSupported organisations ∈ l → ∀ o ∈ organisations,
      (w.2.account uid).Paid o.id ∨ ∃ d ∈ vc.receipt w.1.now, d.organisation = some o.id

/-! ## The writes of the history -/

/-- What a write adds to the history. -/
def paymentOf : Request → PaymentDoc
  | .addPayment _ data => data
  | _ => {}

/-- Payments that were all accepted are in the history, next to what was there. -/
theorem servesAll_payments {answers : List (Answered Bool Request.Response)}
    (hp : ∀ a ∈ answers, ∃ p, a.1 = paymentWrite uid now p) (hs : ServesAll Answers w answers w')
    (hok : succeeded answers = true) :
    ∃ added, (w'.2.account uid).paymentHistory.entries.Perm
        (added ++ (w.2.account uid).paymentHistory.entries) ∧
      (added.map Sigma.snd).Perm (answers.map fun a => paymentOf a.1.1) := by
  induction hs with
  | nil w => exact ⟨[], .refl _, .refl _⟩
  | @cons w w₁ w₂ a answers ha _ ih =>
    rw [succeeded, List.all_cons, Bool.and_eq_true] at hok
    obtain ⟨added, hadded, hdocs⟩ := ih (fun b hb => hp b (List.mem_cons_of_mem _ hb)) hok.2
    obtain ⟨⟨r, report⟩, error⟩ := a
    obtain ⟨p, he⟩ := hp _ List.mem_cons_self
    cases he
    obtain rfl : error = none := Option.isNone_iff_eq_none.mp hok.1
    obtain ⟨b, ⟨id, hid, rfl⟩, rfl⟩ := ha
    refine ⟨⟨id, paymentDoc now p⟩ :: added, ?_, hdocs.cons _⟩
    refine hadded.trans ?_
    rw [Server.record_account, Server.setAccount_account, AList.entries_insert_of_notMem hid]
    exact List.perm_middle

/-- The history after a recorded one-time checkout. -/
theorem history_recording (hm : vc.isOneTimeMode = true) (hu : w.1.currentUser = some uid)
    (hy : vc.addOneTimePaymentToFirebase.Yields Answers w h w' l)
    (hs : .showDonateResult vc.donateAmount vc.tipsAmount vc.isOneTimeMode ∈ l) :
    w'.1.currentUser = some uid ∧
      ∃ added, (w'.2.account uid).paymentHistory.entries.Perm
          (added ++ (w.2.account uid).paymentHistory.entries) ∧
        (added.map Sigma.snd).Perm (vc.payments.map (paymentDoc w.1.now)) := by
  by_cases hne : vc.payments = []
  · rw [addOneTimePaymentToFirebase_eq, hne] at hy
    obtain ⟨l', rfl, hloop⟩ := yields_emit.mp hy
    obtain ⟨-, rfl⟩ := yields_record_nil.mp (yields_read.mp hloop)
    simp at hs
  · obtain ⟨answers, w₂, l', hperm, hserve, rfl, hk⟩ := (yields_addOneTimePaymentToFirebase hu hne).mp hy
    have hok : succeeded answers = true := (handler_effects hk).2.mp (by simpa using hs)
    have hp : ∀ a ∈ answers, ∃ p, a.1 = paymentWrite uid w.1.now p := by
      intro a ha
      obtain ⟨p, -, he⟩ := List.mem_map.mp (hperm.subset (List.mem_map_of_mem ha))
      exact ⟨p, he.symm⟩
    obtain ⟨added, hadded, hdocs⟩ := servesAll_payments hp hserve hok
    obtain ⟨hd, -⟩ := servesAll_record (fun a ha => by
      obtain ⟨p, he⟩ := hp a ha
      rw [he]
      trivial) hserve
    refine ⟨?_, added, by rwa [handler_server_oneTime hm hk], hdocs.trans ?_⟩
    · rw [sendToUpdateDonatesHandler, yields_read, hm] at hk
      obtain ⟨-, hc⟩ := finishes_device (yields_completionBlock.mp hk)
      rw [hc, hd, hu]
    · have hmap := hperm.map fun b => paymentOf b.1
      rw [List.map_map, List.map_map] at hmap
      exact hmap

/-! ## The receipt -/

theorem length_receipt_eq_iff :
    (vc.receipt now).length = vc.payments.length ↔ ∀ item ∈ vc.donateItems, 0 < item.amount := by
  have hlen : (vc.donateItems.filter fun item => 0 < item.amount).length = vc.donateItems.length ↔
      ∀ item ∈ vc.donateItems, 0 < item.amount := by
    rw [List.length_filter_eq_length_iff]
    simp
  rw [← hlen, receipt, payments]
  simp

theorem receipt_of_pos (hpos : ∀ item ∈ vc.donateItems, 0 < item.amount) :
    vc.receipt now = vc.payments.map (paymentDoc now) := by
  rw [receipt, payments, List.filter_eq_self.mpr (by simpa using hpos)]

theorem sum_payments (ht : 0 ≤ vc.tipsAmount) (now : ℕ) :
    ((vc.payments.map (paymentDoc now)).map fun d => d.amount.getD 0).sum =
      totalSum vc.donateItems + vc.tipsAmount := by
  have hrows : (vc.donateItems.map ((fun d => d.amount.getD 0) ∘ paymentDoc now ∘ fun item =>
      (item.organisation.id, item.amount))).sum = totalSum vc.donateItems := rfl
  rw [payments]
  by_cases hpos : 0 < vc.tipsAmount
  · simp only [hpos, if_true, List.map_append, List.map_map, List.map_cons, List.map_nil,
      List.sum_append, List.sum_cons, List.sum_nil]
    simp only [Function.comp_def, paymentDoc, Option.getD_some, totalSum]
    omega
  · have hzero : vc.tipsAmount = 0 := by omega
    simp [hzero, Function.comp_def, paymentDoc, totalSum]

/-- A one-time checkout may be charged and recorded as a whole. -/
theorem exists_oneTime_press (hm : vc.isOneTimeMode = true) (hu : w.1.currentUser = some uid)
    (huser : w.1.userManager.user ≠ none) (hskip : ¬ vc.Skips w.1) (hne : vc.payments ≠ []) :
    ∃ w' l, vc.Presses w w' l ∧
      .showDonateResult vc.donateAmount vc.tipsAmount vc.isOneTimeMode ∈ l := by
  obtain ⟨answers, w₂, hfst, hserve⟩ := exists_servesAll exists_succeeds
    (vc.payments.map (paymentWrite uid w.1.now)) (fun b hb => by
      obtain ⟨p, -, rfl⟩ := List.mem_map.mp hb
      trivial) (vc.charged 1 w)
  have hp : ∀ a ∈ answers, ∃ p, a.1 = paymentWrite uid w.1.now p := by
    intro a ha
    have hmem := List.mem_map_of_mem (f := Sigma.fst) ha
    rw [hfst] at hmem
    obtain ⟨p, -, he⟩ := List.mem_map.mp hmem
    exact ⟨p, he.symm⟩
  have hok : succeeded answers = true := by
    refine succeeded_of_succeeds (fun a ha w w' hs => ?_) hserve
    obtain ⟨⟨r, report⟩, error⟩ := a
    obtain ⟨p, he⟩ := hp _ ha
    cases he
    exact Option.isNone_iff_eq_none.mpr hs.2
  obtain ⟨hd, -⟩ := servesAll_record (fun a ha => by
    obtain ⟨p, he⟩ := hp a ha
    rw [he]
    trivial) (hserve.mono succeeds_answers)
  have hu₂ : w₂.1.currentUser = some uid := by
    rw [hd]
    exact hu
  have hend : ∀ h, (vc.sendToUpdateDonatesHandler (succeeded answers)).Yields Answers w₂ h
      (w₂.1.finished, w₂.2) [.stopActivityAnimating,
        .showDonateResult vc.donateAmount vc.tipsAmount vc.isOneTimeMode] := by
    intro h
    rw [yields_sendToUpdateDonatesHandler hu₂, if_pos (.inl hm), hok]
    exact ⟨rfl, rfl⟩
  have hy : vc.addOneTimePaymentToFirebase.Yields Answers (vc.charged 1 w) [] (w₂.1.finished, w₂.2)
      [.startActivityAnimating, .stopActivityAnimating,
        .showDonateResult vc.donateAmount vc.tipsAmount vc.isOneTimeMode] :=
    (yields_addOneTimePaymentToFirebase (w := vc.charged 1 w) hu hne).mpr
      ⟨answers, w₂, _, .of_eq hfst, hserve.mono succeeds_answers, rfl, hend _⟩
  have hpress : vc.Presses w (w₂.1.finished, w₂.2) _ :=
    presses_iff.mpr (.inr (.inr ⟨hskip, huser, 1, le_rfl, by rwa [recording, if_pos hm]⟩))
  exact ⟨_, _, hpress, by simp⟩

/-- The history after a charge that led to the success screen. -/
theorem history_press (hm : vc.isOneTimeMode = true) (hu : w.1.currentUser = some uid)
    (hskip : ¬ vc.Skips w.1) (hp : vc.Presses w w' l)
    (hs : .showDonateResult vc.donateAmount vc.tipsAmount vc.isOneTimeMode ∈ l) :
    w'.1.currentUser = some uid ∧
      ∃ added, (w'.2.account uid).paymentHistory.entries.Perm
          (added ++ (w.2.account uid).paymentHistory.entries) ∧
        (added.map Sigma.snd).Perm (vc.payments.map (paymentDoc w.1.now)) := by
  rcases presses_iff.mp hp with ⟨hskips, -⟩ | ⟨-, n, -, -, rfl⟩ | ⟨-, -, n, -, hy⟩
  · exact absurd hskips hskip
  · simp at hs
  · rw [recording, if_pos hm] at hy
    exact history_recording hm (w := vc.charged n w) hu hy hs

/-- What a one-time charge leaves in the history is its receipt exactly when every row
received something and the total is a binary32 number. -/
theorem oneTimeCheckout_receipted_iff (hm : vc.isOneTimeMode = true)
    (hsum : totalSum vc.donateItems = vc.donateAmount) (ht : 0 ≤ vc.tipsAmount)
    (hu : w.1.currentUser = some uid) (hskip : ¬ vc.Skips w.1) (hp : vc.Presses w w' l)
    (hs : .showDonateResult vc.donateAmount vc.tipsAmount vc.isOneTimeMode ∈ l) :
    vc.Receipted uid w w' ↔ (∀ item ∈ vc.donateItems, 0 < item.amount) ∧
      Binary32.Exact (vc.donateAmount + vc.tipsAmount) := by
  obtain ⟨hu', added, hadded, hdocs⟩ := history_press hm hu hskip hp hs
  have htotal : (added.map fun e => e.2.amount.getD 0).sum = vc.donateAmount + vc.tipsAmount := by
    rw [← hsum, ← sum_payments ht w.1.now]
    have hmap := (hdocs.map fun d => d.amount.getD 0).sum_eq
    rw [List.map_map] at hmap
    exact hmap
  constructor
  · rintro ⟨⟨added', hadded', hdocs', htotal'⟩, -⟩
    have hperm : added'.Perm added :=
      (List.perm_append_right_iff _).mp (hadded'.symm.trans hadded)
    refine ⟨?_, ?_⟩
    · have hlen : (vc.receipt w.1.now).length = vc.payments.length := by
        have h₁ := hdocs'.length_eq
        have h₂ := hdocs.length_eq
        have h₃ := hperm.length_eq
        simp only [List.length_map] at h₁ h₂
        omega
      exact length_receipt_eq_iff.mp hlen
    · have hpay : vc.payAmount = vc.donateAmount + vc.tipsAmount := by
        rw [← htotal', ← htotal]
        exact (hperm.map fun e => e.2.amount.getD 0).sum_eq
      exact hpay
  · rintro ⟨hpos, hexact⟩
    have hreceipt : vc.receipt w.1.now = vc.payments.map (paymentDoc w.1.now) := receipt_of_pos hpos
    refine ⟨⟨added, hadded, by rwa [hreceipt], by rw [htotal]; exact hexact.symm⟩, ?_⟩
    intro w₁ l₁ organisations hload hshow o ho
    obtain ⟨e, he, horg⟩ := showPrevSupported_paid hu' hload hshow o ho
    rcases List.mem_append.mp (hadded.mem_iff.mp he) with hnew | hold
    · refine .inr ⟨e.2, ?_, horg⟩
      rw [hreceipt]
      exact hdocs.mem_iff.mp (List.mem_map_of_mem hnew)
    · exact .inl ⟨e, hold, horg⟩

/-- Twenty to the shelter and a tip of three. -/
theorem oneTimeCheckout_receipted_shelter :
    let vc : DonateConfirmation := ⟨20, 3, [{ amount := 20, organisation := { id := "shelter" } }], true⟩
    ∃ w' l, vc.Presses donorWorld w' l ∧ vc.Receipted "ann" donorWorld w' := by
  intro vc
  have hskip : ¬ vc.Skips donorWorld.1 := by decide
  have hne : vc.payments ≠ [] := by decide
  obtain ⟨w', l, hp, hs⟩ := exists_oneTime_press rfl rfl (by simp [donorWorld]) hskip hne
  exact ⟨w', l, hp, (oneTimeCheckout_receipted_iff rfl rfl (by decide) rfl hskip hp hs).mpr (by decide)⟩

/-- A cause of two whose money all goes to one: the other is in the history too. -/
theorem not_oneTimeCheckout_receipted :
    let vc : DonateConfirmation := ⟨20, 3, [{ amount := 20, organisation := { id := "shelter" } },
      { amount := 0, organisation := { id := "school" } }], true⟩
    ¬ ∀ w' l, vc.Presses donorWorld w' l →
      .showDonateResult vc.donateAmount vc.tipsAmount vc.isOneTimeMode ∈ l →
      vc.Receipted "ann" donorWorld w' := by
  intro vc hall
  have hskip : ¬ vc.Skips donorWorld.1 := by decide
  have hne : vc.payments ≠ [] := by decide
  obtain ⟨w', l, hp, hs⟩ := exists_oneTime_press rfl rfl (by simp [donorWorld]) hskip hne
  obtain ⟨⟨added, hadded, hdocs, -⟩, -⟩ := hall w' l hp hs
  obtain ⟨-, added', hadded', hdocs'⟩ := history_press rfl rfl hskip hp hs
  have hperm := (List.perm_append_right_iff _).mp (hadded.symm.trans hadded')
  have hreceipt := hdocs.length_eq
  have hpayments := hdocs'.length_eq
  rw [List.length_map] at hreceipt hpayments
  exact absurd (hreceipt.symm.trans (hperm.length_eq.trans hpayments)) (by decide)

end DonateConfirmation

end Pledge
