import Pledge.EventLoop.Converging
import Pledge.PledgeLedger

/-!
# Repeating the writes of a checkout

A checkout that fails is left in front, and pressing Complete Checkout repeats all of its writes. Edits
and deletions may be repeated; what is there in the end does not depend on the attempts.
-/

namespace Pledge

open EventLoop

/-- What the write of a row makes of its document. -/
def OrganisationWithAmount.written (row : OrganisationWithAmount) (old : Option DonateDoc) : Option DonateDoc :=
  if 0 < row.amount then some ((old.getD {}).merge { amount := some row.amount }) else none

theorem OrganisationWithAmount.written_written (row : OrganisationWithAmount) (old : Option DonateDoc) :
    row.written (row.written old) = row.written old := by
  unfold written
  split <;> simp [DonateDoc.merge]

/-- What a checkout makes of pledge `id`. -/
def DonateConfirmation.written (vc : DonateConfirmation) (id : String) (old : Option DonateDoc) :
    Option DonateDoc :=
  match vc.donateItems.find? fun row => row.donateId == some id with
  | some row => row.written old
  | none => old

/-- Pressing Complete Checkout, and anything in between that leaves the pledges alone. -/
inductive CheckoutAttempt (vc : DonateConfirmation) : World → Option (List Effect) → World → Prop
  | press {w w' : World} {l : List Effect} (h : vc.Presses w w' l) : CheckoutAttempt vc w (some l) w'
  | meanwhile {w w' : World} (h : SamePledges w w') : CheckoutAttempt vc w none w'

/-- The press has brought `uid` to the success screen. -/
def CheckoutAttempt.complete (vc : DonateConfirmation) (uid : String) (w : World) : Option (List Effect) → Bool
  | some l => w.1.currentUser == some uid &&
      l.contains (.showDonateResult vc.donateAmount vc.tipsAmount vc.isOneTimeMode)
  | none => false

def Server.pledges (s : Server) (uid id : String) : Option DonateDoc := (s.account uid).donates.lookup id

namespace DonateConfirmation

variable {vc : DonateConfirmation} {w w' : World} {l : List Effect} {uid v id : String}

theorem written_written (vc : DonateConfirmation) (id : String) (old : Option DonateDoc) :
    vc.written id (vc.written id old) = vc.written id old := by
  unfold written
  split
  · exact OrganisationWithAmount.written_written _ old
  · rfl

/-- Each pledge is on one row at most. -/
theorem written_of_mem (hn : (donateIds vc.donateItems).Nodup) {row : OrganisationWithAmount}
    (hrow : row ∈ vc.donateItems) (hid : row.donateId = some id) (old : Option DonateDoc) :
    vc.written id old = row.written old := by
  have hfind : vc.donateItems.find? (fun row => row.donateId == some id) = some row := by
    unfold donateIds at hn
    generalize vc.donateItems = rows at hn hrow
    induction rows with
    | nil => cases hrow
    | cons row' rows ih =>
      cases hid' : row'.donateId with
      | none =>
        rw [List.filterMap_cons_none hid'] at hn
        rcases List.mem_cons.mp hrow with rfl | hrow
        · exact absurd (hid'.symm.trans hid) (by simp)
        · rw [List.find?_cons_of_neg (by simp [hid'])]
          exact ih hn hrow
      | some id' =>
        rw [List.filterMap_cons_some hid', List.nodup_cons] at hn
        rcases List.mem_cons.mp hrow with rfl | hrow
        · rw [List.find?_cons_of_pos (by simp [hid])]
        · have hne : id' ≠ id := by
            rintro rfl
            exact hn.1 (List.mem_filterMap.mpr ⟨row, hrow, hid⟩)
          rw [List.find?_cons_of_neg (by simp [hid', hne])]
          exact ih hn.2 hrow
  rw [written, hfind]

theorem written_of_notMem (hid : id ∉ donateIds vc.donateItems) (old : Option DonateDoc) :
    vc.written id old = old := by
  have hfind : vc.donateItems.find? (fun row => row.donateId == some id) = none := by
    rw [List.find?_eq_none]
    intro row hrow he
    exact hid (List.mem_filterMap.mpr ⟨row, hrow, by simpa using he⟩)
  rw [written, hfind]

/-! ## Single writes -/

/-- The answer to the write of a row with a document changes at most that document, and as the row says. -/
theorem pledges_write {row : OrganisationWithAmount} {b : Branch Bool Request.Response} {a : b.1.Response}
    (hb : write? v row = some b) (hrow : 0 < row.amount → row.donateId ≠ none) (h : Answers w b.1 a w') :
    ∃ target, row.donateId = some target ∧ b.1.target? = some target ∧
      (∀ uid id, w'.2.pledges uid id = w.2.pledges uid id ∨
        (uid = v ∧ id = target ∧ w'.2.pledges uid id = row.written (w.2.pledges uid id))) ∧
      (b.2 a = true → w'.2.pledges v target = row.written (w.2.pledges v target)) := by
  obtain ⟨amount, organisation, donateId⟩ := row
  cases donateId with
  | none =>
    have hpos : ¬ 0 < amount := fun hpos => hrow hpos rfl
    simp [write?, hpos] at hb
  | some target =>
    refine ⟨target, rfl, ?_⟩
    by_cases hpos : 0 < amount
    · simp only [write?, if_pos hpos, Option.some.injEq] at hb
      subst hb
      refine ⟨rfl, fun uid id => ?_, fun hok => ?_⟩
      · unfold Server.pledges
        cases answers_pledges h uid with
        | kept hd => exact .inl (by rw [hd])
        | added hr | deleted hr => cases hr
        | edited hr hd =>
          cases hr
          by_cases hid : id = target
          · subst hid
            refine .inr ⟨rfl, rfl, ?_⟩
            rw [hd, AList.lookup_insert]
            exact (if_pos hpos).symm
          · exact .inl (by rw [hd, AList.lookup_insert_ne hid])
      · obtain rfl : a = none := by simpa using hok
        unfold Server.pledges
        rw [(edited_of_answers h).1, AList.lookup_insert]
        exact (if_pos hpos).symm
    · simp only [write?, if_neg hpos, Option.some.injEq] at hb
      subst hb
      refine ⟨rfl, fun uid id => ?_, fun hok => ?_⟩
      · unfold Server.pledges
        cases answers_pledges h uid with
        | kept hd => exact .inl (by rw [hd])
        | added hr | edited hr => cases hr
        | deleted hr hd =>
          cases hr
          by_cases hid : id = target
          · subst hid
            refine .inr ⟨rfl, rfl, ?_⟩
            rw [hd, AList.lookup_erase]
            exact (if_neg hpos).symm
          · exact .inl (by rw [hd, AList.lookup_erase_ne hid])
      · obtain rfl : a = none := by simpa using hok
        unfold Server.pledges
        rw [(deleted_of_answers h).1, AList.lookup_erase]
        exact (if_neg hpos).symm

/-! ## A press -/

variable (hrows : ∀ row ∈ vc.donateItems, 0 < row.amount → row.donateId ≠ none)
  (hn : (donateIds vc.donateItems).Nodup)

include hrows hn

/-- Answers that may be failures carry out some of the writes. -/
theorem between_servesAll {answers : List (Answered Bool Request.Response)} (uid : String)
    (hb : ∀ a ∈ answers, ∃ row ∈ vc.donateItems, write? v row = some a.1) (hs : ServesAll Answers w answers w') :
    Between vc.written (w.2.pledges uid) (w'.2.pledges uid) := by
  induction hs with
  | nil w => exact .refl _
  | @cons w w₁ w₂ a answers ha _ ih =>
    obtain ⟨row, hrow, hwrite⟩ := hb a List.mem_cons_self
    obtain ⟨target, hid, -, hchange, -⟩ := pledges_write hwrite (hrows row hrow) ha
    have hone : Between vc.written (w.2.pledges uid) (w₁.2.pledges uid) := by
      intro id
      rcases hchange uid id with hkept | ⟨-, rfl, hwritten⟩
      · exact .inl hkept
      · exact .inr (hwritten.trans (written_of_mem hn hrow hid _).symm)
    exact hone.trans vc.written_written (ih fun b hmem => hb b (List.mem_cons_of_mem a hmem))

/-- Answers that are all successes carry out the writes they answer. -/
theorem pledges_servesAll {answers : List (Answered Bool Request.Response)}
    (hb : ∀ a ∈ answers, ∃ row ∈ vc.donateItems, write? v row = some a.1)
    (hok : ∀ a ∈ answers, a.value = true) (hnodup : (answers.filterMap fun a => a.1.1.target?).Nodup)
    (hs : ServesAll Answers w answers w') :
    ∀ id, w'.2.pledges v id = if id ∈ answers.filterMap (fun a => a.1.1.target?) then
      vc.written id (w.2.pledges v id) else w.2.pledges v id := by
  induction hs with
  | nil w => exact fun _ => rfl
  | @cons w w₁ w₂ a answers ha _ ih =>
    obtain ⟨row, hrow, hwrite⟩ := hb a List.mem_cons_self
    obtain ⟨target, hid, htarget, hchange, hdone⟩ := pledges_write hwrite (hrows row hrow) ha
    have hcons : ((a :: answers).filterMap fun a => a.1.1.target?) =
        target :: answers.filterMap fun a => a.1.1.target? := List.filterMap_cons_some htarget
    rw [hcons] at hnodup ⊢
    obtain ⟨hfree, hrest⟩ := List.nodup_cons.mp hnodup
    intro id
    rw [ih (fun b hmem => hb b (List.mem_cons_of_mem a hmem)) (fun b hmem => hok b (List.mem_cons_of_mem a hmem))
      hrest id]
    by_cases he : id = target
    · subst he
      rw [if_neg hfree, if_pos List.mem_cons_self, hdone (hok a List.mem_cons_self)]
      exact (written_of_mem hn hrow hid _).symm
    · have hsame : w₁.2.pledges v id = w.2.pledges v id :=
        (hchange v id).resolve_right fun h => he h.2.1
      rw [hsame]
      exact if_congr (by simp [he]) rfl rfl

theorem between_press (hm : vc.isOneTimeMode = false) (hp : vc.Presses w w' l) :
    Between vc.written (w.2.pledges uid) (w'.2.pledges uid) ∧
      (CheckoutAttempt.complete vc uid w (some l) = true → Applied vc.written (w.2.pledges uid) (w'.2.pledges uid)) := by
  have hpledges : ∀ {w w'}, SamePledges w w' → w'.2.pledges uid = w.2.pledges uid := by
    intro w w' hsame
    funext id
    unfold Server.pledges
    rw [(hsame uid).1]
  cases stores_press hp with
  | kept hsame hdone =>
    rw [hpledges hsame]
    refine ⟨.refl _, fun hcomplete => ?_⟩
    simp only [CheckoutAttempt.complete, Bool.and_eq_true, beq_iff_eq, List.contains_iff_mem] at hcomplete
    exact absurd (hcomplete.1.symm.trans (hdone hm hcomplete.2).1) (by simp)
  | @written v success hu hreaches hw hdone =>
    obtain ⟨w₁, w₂, answers, hbefore, hperm, hserve, hafter, hsuccess⟩ := hw.answered
    have hb : ∀ a ∈ answers, ∃ row ∈ vc.donateItems, write? v row = some a.1 := fun a ha =>
      answer_of_perm hperm ha
    have hbetween := between_servesAll hrows hn uid hb hserve
    rw [hpledges hbefore, ← hpledges hafter] at hbetween
    refine ⟨hbetween, fun hcomplete => ?_⟩
    simp only [CheckoutAttempt.complete, Bool.and_eq_true, beq_iff_eq, List.contains_iff_mem] at hcomplete
    obtain rfl : v = uid := Option.some.inj (hu.symm.trans hcomplete.1)
    have hall : ∀ a ∈ answers, a.value = true :=
      List.all_eq_true.mp (hsuccess.trans (hdone.mp hcomplete.2))
    have htargets : (answers.filterMap fun a => a.1.1.target?).Perm (donateIds vc.donateItems) := by
      have hmap := hperm.filterMap fun b => b.1.target?
      rwa [filterMap_target?, List.filterMap_map] at hmap
    intro id
    have hlookup := pledges_servesAll hrows hn hb hall (htargets.nodup_iff.mpr hn) hserve id
    rw [hpledges hbefore, ← hpledges hafter] at hlookup
    rw [hlookup]
    split
    · rfl
    · rename_i hnot
      exact (written_of_notMem (fun hmem => hnot (htargets.mem_iff.mpr hmem)) _).symm

/-- A monthly checkout whose rows all have documents may be repeated: however many presses fail in
whatever part, a pledge is what it was or what its row makes of it; and once a press has come to the
success screen it is what its row makes of it, whichever presses came before or come after. -/
theorem written_of_attempts (hm : vc.isOneTimeMode = false) {done : Bool}
    (h : History (recorded (CheckoutAttempt vc) fun done w e _ => done || CheckoutAttempt.complete vc uid w e) (fun _ _ => True)
      (w, false) (w', done)) (id : String) :
    (w'.2.pledges uid id = w.2.pledges uid id ∨
        w'.2.pledges uid id = vc.written id (w.2.pledges uid id)) ∧
      (done = true → w'.2.pledges uid id = vc.written id (w.2.pledges uid id)) := by
  have hconverges := applied_of_history vc.written_written (fun w : World => w.2.pledges uid)
    (fun a e a' hs => ?_) h
  · exact ⟨hconverges.1 id, fun hd => hconverges.2 hd id⟩
  · cases hs with
    | press hp => exact between_press hrows hn hm hp
    | meanwhile hsame =>
      refine ⟨fun id => .inl ?_, fun hc => by cases hc⟩
      unfold Server.pledges
      rw [(hsame uid).1]

omit hrows hn

/-- Ann raises the one pledge that she has from three to five. -/
def raisingCheckout : DonateConfirmation :=
  ⟨5, 0, [{ amount := 5, organisation := { id := "kitchen" }, donateId := some "pledge" }], false⟩

def annPledging : World :=
  ({ userManager := { user := some { email := "ann@mail.com", displayName := none, defaultDonateAmount := 5 } }
     currentUser := some "ann" },
   { account := fun _ =>
      { donates := AList.singleton "pledge" { amount := some 3, organisation := some "kitchen" } } })

/-- The press comes to the answer of its one edit. -/
theorem presses_raisingCheckout {answer : Option String} {w w₁ : World}
    (ha : Answers w (.setDonate "ann" "pledge" { amount := some 5 }) answer w₁) (hw : w.1 = annPledging.1)
    (hw₁ : w₁.1 = annPledging.1) (hf : raisingCheckout.Finishes answer.isNone w₁ w' l) :
    raisingCheckout.Presses w w' (.startActivityAnimating :: l) := by
  have hserve : ServesAll Answers w
      [⟨⟨.setDonate "ann" "pledge" { amount := some 5 }, Option.isNone⟩, answer⟩] w₁ := .cons ha (.nil _)
  have hskip : raisingCheckout.Skips w.1 := by rw [hw]; rfl
  have hu : w.1.currentUser = some "ann" := by rw [hw]; rfl
  have hu₁ : w₁.1.currentUser = some "ann" := by rw [hw₁]; rfl
  have hdefault : raisingCheckout.isOneTimeMode = true ∨
      raisingCheckout.donateAmount = w₁.1.userManager.defaultDonateAmount := .inr (by rw [hw₁]; rfl)
  refine presses_iff.mpr (.inl ⟨hskip, (yields_sendToUpdateDonates hu (List.cons_ne_nil _ _)).mpr
    ⟨_, w₁, l, .refl _, hserve, rfl, ?_⟩⟩)
  rw [yields_sendToUpdateDonatesHandler hu₁, if_pos hdefault]
  simpa [succeeded, Answered.value] using hf

/-- Ann presses twice, the first time in vain. -/
theorem written_of_attempts_ann : ∃ w₁ w₂ l₁ l₂, raisingCheckout.Presses annPledging w₁ l₁ ∧
    raisingCheckout.Presses w₁ w₂ l₂ ∧
    w₂.2.pledges "ann" "pledge" = some { amount := some 5, organisation := some "kitchen" } := by
  have hfirst := presses_raisingCheckout
    (answers_rejected annPledging (.setDonate "ann" "pledge" { amount := some 5 })) rfl rfl ⟨rfl, rfl⟩
  obtain ⟨w, hedited, hdevice⟩ : ∃ w, Answers annPledging
      (.setDonate "ann" "pledge" { amount := some 5 }) none w ∧ w.1 = annPledging.1 := ⟨_, ⟨_, rfl, rfl⟩, rfl⟩
  have hfinish : raisingCheckout.Finishes true w (w.1.finished, w.2) _ := ⟨rfl, rfl⟩
  have hsecond := presses_raisingCheckout hedited rfl hdevice hfinish
  refine ⟨_, _, _, _, hfirst, hsecond, ?_⟩
  have hattempts : History (recorded (CheckoutAttempt raisingCheckout)
      fun done w e _ => done || CheckoutAttempt.complete raisingCheckout "ann" w e) (fun _ _ => True)
      (annPledging, false) (_, true) :=
    (History.refl.note trivial (CheckoutAttempt.press hfirst)).tail trivial ⟨.press hsecond, rfl⟩
  exact (written_of_attempts (by decide) (by decide) rfl hattempts "pledge").2 rfl

end DonateConfirmation

end Pledge
