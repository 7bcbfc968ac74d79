import Pledge.Checkout

/-! What a checkout leaves behind when all of its requests succeed. -/
namespace Pledge

open EventLoop

/-- Every request succeeds; the payment sheet may still be closed without a charge. -/
def Succeeds (w : World) (r : Request) (a : r.Response) (w' : World) : Prop :=
  Answers w r a w' ∧
    match r, a with
    | .createUser .., result => result.error = none ∧ result.user ≠ none
    | .signIn .., error | .commitChanges .., error | .sendPasswordReset .., error => error = none
    | .setUser .., error | .updateUser .., error | .addPayment .., error => error = none
    | .addDonate .., error | .setDonate .., error | .deleteDonate .., error => error = none
    | .getUser .., snapshot => snapshot ≠ none
    | .getFilters, snapshot => snapshot ≠ none
    | .getOrganisationsByCause .., snapshot => snapshot ≠ none
    | .getOrganisations, snapshot => snapshot ≠ none
    | .getOrganisationsIn .., snapshot => snapshot ≠ none
    | .getCauses, snapshot => snapshot ≠ none
    | .getPaymentHistory .., snapshot => snapshot ≠ none
    | .getDonates .., snapshot => snapshot ≠ none
    | .getDonatesForOrganisation .., snapshot => snapshot ≠ none
    | .pay .., result => result = .failure → w' = w

theorem succeeds_answers (w : World) (r : Request) (a : r.Response) (w' : World)
    (h : Succeeds w r a w') : Answers w r a w' := h.1

variable {w w' w₂ : World} {h : List Frame} {l : List Effect} {uid : String}

/-- A write of a recording that succeeds reports no error. -/
theorem exists_succeeds (w : World) (r : Request) (hr : r.Records) : ∃ a w', Succeeds w r a w' := by
  obtain ⟨a, w', ha, hj⟩ := exists_carriedOut w r hr
  have hnot : w' ≠ w := by
    rintro rfl
    simp at hj
  refine ⟨a, w', ha, ?_⟩
  cases r with
  | addPayment | addDonate | setDonate | deleteDonate =>
    cases a with
    | none => rfl
    | some e => exact absurd ha hnot
  | _ => exact hr.elim

theorem succeeds_updateUser {data : UserDoc} {f : LendUser → LendUser} {k : Bool → Prog} :
    (Program.ask (.updateUser uid data) fun error : Option String =>
        if error.isNone then .modify (·.updateUser f) (k error.isNone) else k error.isNone).Yields
        Succeeds w h w' l ↔
      ∃ old, (w.2.account uid).user = some old ∧
        (k true).Yields Succeeds (w.userUpdated uid old data f) h w' l := by
  rw [yields_ask]
  constructor
  · rintro ⟨error, w₁, ⟨ha, he⟩, hk⟩
    obtain rfl : error = none := he
    obtain ⟨a, ⟨old, hold, rfl⟩, rfl⟩ := ha
    exact ⟨old, hold, hk⟩
  · rintro ⟨old, hold, hk⟩
    exact ⟨none, _, ⟨⟨_, ⟨old, hold, rfl⟩, rfl⟩, rfl⟩, hk⟩

theorem succeeds_addTips {amount : Int} {k : Bool → Prog} (hu : w.1.currentUser = some uid) :
    (FirestoreManager.addTips amount k).Yields Succeeds w h w' l ↔
      ∃ old, (w.2.account uid).user = some old ∧
        (k true).Yields Succeeds (w.userUpdated uid old { tipsAmount := some amount }
          fun user => { user with tips := some amount }) h w' l := by
  rw [← succeeds_updateUser, FirestoreManager.addTips, yields_withUid_signedIn hu]

theorem succeeds_updateDefaultDonateAmount {amount : Int} {k : Bool → Prog}
    (hu : w.1.currentUser = some uid)
    (hne : w.1.userManager.user.map LendUser.defaultDonateAmount ≠ some amount) :
    (FirestoreManager.updateDefaultDonateAmount amount k).Yields Succeeds w h w' l ↔
      ∃ old, (w.2.account uid).user = some old ∧
        (k true).Yields Succeeds (w.userUpdated uid old { defaultDonateAmount := some amount }
          fun user => { user with defaultDonateAmount := amount }) h w' l := by
  rw [← succeeds_updateUser, yields_updateDefaultDonateAmount_of_ne hu hne]

/-! ## The two amounts -/

/-- The local record and the user's document hold the same two amounts. -/
structure Amounts (uid : String) (w : World) (defaultDonateAmount : Int) (tips : Option Int) : Prop where
  signedIn : w.1.currentUser = some uid
  user : ∃ user, w.1.userManager.user = some user ∧
    user.defaultDonateAmount = defaultDonateAmount ∧ user.tips = tips
  document : ∃ doc, (w.2.account uid).user = some doc ∧
    doc.defaultDonateAmount.getD 0 = defaultDonateAmount ∧ doc.tipsAmount = tips

/-- The same for a user who may have been signed out. -/
structure Matches (uid : String) (w : World) (defaultDonateAmount : Int) (tips : Option Int) : Prop where
  user : ∃ user, w.1.userManager.user = some user ∧
    user.defaultDonateAmount = defaultDonateAmount ∧ user.tips = tips
  document : ∃ doc, (w.2.account uid).user = some doc ∧
    doc.defaultDonateAmount.getD 0 = defaultDonateAmount ∧ doc.tipsAmount = tips

section Amounts

variable {defaultDonateAmount amount : Int} {tips : Option Int}

theorem Matches.amounts (hm : Matches uid w defaultDonateAmount tips)
    (hu : w.1.currentUser = some uid) : Amounts uid w defaultDonateAmount tips :=
  ⟨hu, hm.user, hm.document⟩

theorem Amounts.matches (ha : Amounts uid w defaultDonateAmount tips) :
    Matches uid w defaultDonateAmount tips := ⟨ha.user, ha.document⟩

theorem Matches.congr (hm : Matches uid w defaultDonateAmount tips)
    (hu : w'.1.userManager.user = w.1.userManager.user)
    (hd : (w'.2.account uid).user = (w.2.account uid).user) :
    Matches uid w' defaultDonateAmount tips :=
  ⟨by rw [hu]; exact hm.user, by rw [hd]; exact hm.document⟩

theorem Matches.default (hm : Matches uid w defaultDonateAmount tips) :
    w.1.userManager.defaultDonateAmount = defaultDonateAmount := by
  obtain ⟨user, hu, rfl, -⟩ := hm.user
  simp [UserManager.defaultDonateAmount, hu]

theorem Matches.tipsAmount (hm : Matches uid w defaultDonateAmount tips) :
    w.1.userManager.tipsAmount = tips.getD 0 := by
  obtain ⟨user, hu, -, rfl⟩ := hm.user
  simp [UserManager.tipsAmount, hu]

theorem Matches.total (hm : Matches uid w defaultDonateAmount tips) :
    w.1.userManager.userDonateAndTips = defaultDonateAmount + tips.getD 0 := by
  rw [UserManager.userDonateAndTips_eq, hm.default, hm.tipsAmount]

theorem Amounts.congr (ha : Amounts uid w defaultDonateAmount tips)
    (hc : w'.1.currentUser = w.1.currentUser) (hu : w'.1.userManager.user = w.1.userManager.user)
    (hd : (w'.2.account uid).user = (w.2.account uid).user) :
    Amounts uid w' defaultDonateAmount tips :=
  (ha.matches.congr hu hd).amounts (hc.trans ha.signedIn)

theorem Amounts.setDefault (ha : Amounts uid w defaultDonateAmount tips) {old : UserDoc}
    (ho : (w.2.account uid).user = some old) :
    Amounts uid (w.userUpdated uid old { defaultDonateAmount := some amount }
      fun user => { user with defaultDonateAmount := amount }) amount tips := by
  obtain ⟨user, hu, -, ht⟩ := ha.user
  obtain ⟨doc, hd, -, hdt⟩ := ha.document
  obtain rfl : doc = old := Option.some.inj (hd.symm.trans ho)
  refine ⟨ha.signedIn, ⟨{ user with defaultDonateAmount := amount }, ?_, rfl, ht⟩, ?_⟩
  · simp [World.userUpdated, Device.updateUser, hu]
  · refine ⟨doc.update { defaultDonateAmount := some amount }, ?_, rfl, ?_⟩
    · simp [World.userUpdated]
    · simpa [UserDoc.update] using hdt

theorem Amounts.setTips (ha : Amounts uid w defaultDonateAmount tips) {old : UserDoc}
    (ho : (w.2.account uid).user = some old) :
    Amounts uid (w.userUpdated uid old { tipsAmount := some amount }
      fun user => { user with tips := some amount }) defaultDonateAmount (some amount) := by
  obtain ⟨user, hu, hdef, -⟩ := ha.user
  obtain ⟨doc, hd, hddef, -⟩ := ha.document
  obtain rfl : doc = old := Option.some.inj (hd.symm.trans ho)
  refine ⟨ha.signedIn, ⟨{ user with tips := some amount }, ?_, hdef, rfl⟩, ?_⟩
  · simp [World.userUpdated, Device.updateUser, hu]
  · refine ⟨doc.update { tipsAmount := some amount }, ?_, ?_, rfl⟩
    · simp [World.userUpdated]
    · simpa [UserDoc.update] using hddef

theorem Amounts.total (ha : Amounts uid w defaultDonateAmount tips) :
    w.1.userManager.userDonateAndTips = defaultDonateAmount + tips.getD 0 := ha.matches.total

theorem Amounts.default (ha : Amounts uid w defaultDonateAmount tips) :
    w.1.userManager.defaultDonateAmount = defaultDonateAmount := ha.matches.default

end Amounts

namespace DonateConfirmation

variable {vc : DonateConfirmation} {defaultDonateAmount : Int} {tips : Option Int}

theorem amounts_finishes {success : Bool} (ha : Amounts uid w defaultDonateAmount tips)
    (hf : vc.Finishes success w w' l) : Amounts uid w' defaultDonateAmount tips := by
  obtain ⟨hu, hc⟩ := finishes_device hf
  exact ha.congr hc hu (by rw [finishes_server hf])

/-- The handler leaves the amount of a monthly checkout as the default amount. -/
theorem amounts_handler {success : Bool} (hm : vc.isOneTimeMode = false)
    (ha : Amounts uid w defaultDonateAmount tips)
    (hy : (vc.sendToUpdateDonatesHandler success).Yields Succeeds w h w' l) :
    Amounts uid w' vc.donateAmount tips := by
  have hdone : ∀ {w d}, Amounts uid w d tips → (vc.completionBlock success).Yields Succeeds w h w' l →
      Amounts uid w' d tips :=
    fun ha hk => amounts_finishes ha (yields_completionBlock.mp (hk.mono succeeds_answers))
  rw [sendToUpdateDonatesHandler, yields_read, ha.default, hm] at hy
  by_cases hd : vc.donateAmount = defaultDonateAmount
  · rw [hd] at hy ⊢
    exact hdone ha (by simpa using hy)
  · obtain ⟨user, hu, hud, -⟩ := ha.user
    rw [if_pos (by simpa using hd)] at hy
    have hne : w.1.userManager.user.map LendUser.defaultDonateAmount ≠ some vc.donateAmount := by
      intro he
      apply hd
      rw [← hud]
      simpa [hu] using he.symm
    obtain ⟨old, ho, hk⟩ := (succeeds_updateDefaultDonateAmount ha.signedIn hne).mp hy
    exact hdone (ha.setDefault ho) hk

/-- Only a recording of something reaches the handler, and with it the success screen. -/
theorem amounts_recording (hm : vc.isOneTimeMode = false) (ha : Amounts uid w defaultDonateAmount tips)
    (hy : vc.sendToUpdateDonates.Yields Succeeds w h w' l) :
    Amounts uid w' (if vc.donateItems = [] then defaultDonateAmount else vc.donateAmount) tips ∧
      (.showDonateResult vc.donateAmount vc.tipsAmount vc.isOneTimeMode ∈ l → vc.donateItems ≠ []) := by
  by_cases hne : vc.donateItems = []
  · obtain ⟨l', rfl, hloop⟩ := yields_emit.mp hy
    rw [hne] at hloop
    obtain ⟨rfl, rfl⟩ := yields_record_nil.mp hloop
    rw [if_pos hne]
    exact ⟨ha, by simp⟩
  · obtain ⟨answers, w₂, l', hperm, hserve, -, hk⟩ := (yields_sendToUpdateDonates ha.signedIn hne).mp hy
    obtain ⟨hd, hdoc, -⟩ := servesAll_record (records_of_perm hperm) (hserve.mono succeeds_answers)
    rw [if_neg hne]
    exact ⟨amounts_handler hm (ha.congr (by rw [hd]) (by rw [hd]) (hdoc uid)) hk, fun _ => hne⟩

/-- A monthly press skips the payment, or its sheet is closed, or it charges and records. -/
theorem succeeds_press (hm : vc.isOneTimeMode = false)
    (hy : vc.completeCheckoutButtonPressed.Yields Succeeds w [] w' l) :
    (vc.Skips w.1 ∧ vc.sendToUpdateDonates.Yields Succeeds w [] w' l) ∨
      (¬ vc.Skips w.1 ∧ w' = w ∧ l = []) ∨
      (¬ vc.Skips w.1 ∧ ∃ n, 1 ≤ n ∧
        (vc.addTips vc.sendToUpdateDonates).Yields Succeeds (vc.charged n w) [] w' l) := by
  rw [completeCheckoutButtonPressed, yields_read] at hy
  by_cases hskip : vc.Skips w.1
  · have htotal : ¬ vc.donateAmount + vc.tipsAmount ≠ w.1.userManager.userDonateAndTips :=
      not_not.mpr hskip
    rw [if_neg htotal] at hy
    exact .inl ⟨hskip, hy⟩
  · have htotal : vc.donateAmount + vc.tipsAmount ≠ w.1.userManager.userDonateAndTips := hskip
    rw [if_pos htotal] at hy
    obtain ⟨result, w₁, ⟨⟨n, hsuccess, -, rfl⟩, hclosed⟩, hk⟩ := yields_ask.mp hy
    cases result with
    | failure =>
      obtain ⟨rfl, rfl⟩ := yields_stop.mp hk
      exact .inr (.inl ⟨hskip, hclosed rfl, rfl⟩)
    | success token =>
      dsimp only at hk
      rw [if_neg (by rw [hm]; decide)] at hk
      exact .inr (.inr ⟨hskip, n, hsuccess token rfl, hk⟩)

/-- A press whose sheet is not closed records the amounts, and the tip where it has charged one. -/
theorem settles_press (hm : vc.isOneTimeMode = false) (ha : Amounts uid w defaultDonateAmount tips)
    (hy : vc.completeCheckoutButtonPressed.Yields Succeeds w [] w' l) :
    (¬ vc.Skips w.1 ∧ w' = w ∧ l = []) ∨
      (Amounts uid w' (if vc.donateItems = [] then defaultDonateAmount else vc.donateAmount)
          (if 0 < vc.tipsAmount ∧ ¬ vc.Skips w.1 then some vc.tipsAmount else tips) ∧
        (.showDonateResult vc.donateAmount vc.tipsAmount vc.isOneTimeMode ∈ l → vc.donateItems ≠ [])) := by
  rcases succeeds_press hm hy with ⟨hskip, hk⟩ | hclosed | ⟨hskip, n, hn, hk⟩
  · have htips : ¬ (0 < vc.tipsAmount ∧ ¬ vc.Skips w.1) := fun h => h.2 hskip
    rw [if_neg htips]
    exact .inr (amounts_recording hm ha hk)
  · exact .inl hclosed
  · have hcharged : Amounts uid (vc.charged n w) defaultDonateAmount tips := ha.congr rfl rfl rfl
    rw [addTips] at hk
    by_cases ht : 0 < vc.tipsAmount
    · rw [if_pos ht] at hk
      have htips : 0 < vc.tipsAmount ∧ ¬ vc.Skips w.1 := ⟨ht, hskip⟩
      rw [if_pos htips]
      obtain ⟨old, ho, hk⟩ := (succeeds_addTips hcharged.signedIn).mp hk
      exact .inr (amounts_recording hm (hcharged.setTips ho) hk)
    · rw [if_neg ht] at hk
      have htips : ¬ (0 < vc.tipsAmount ∧ ¬ vc.Skips w.1) := fun h => ht h.1
      rw [if_neg htips]
      exact .inr (amounts_recording hm hcharged hk)

/-- A press that leads to the success screen leaves its amount and, where it has charged a
tip, that tip. -/
theorem amounts_press (hm : vc.isOneTimeMode = false) (ha : Amounts uid w defaultDonateAmount tips)
    (hy : vc.completeCheckoutButtonPressed.Yields Succeeds w [] w' l)
    (hs : .showDonateResult vc.donateAmount vc.tipsAmount vc.isOneTimeMode ∈ l) :
    Amounts uid w' vc.donateAmount
      (if 0 < vc.tipsAmount ∧ ¬ vc.Skips w.1 then some vc.tipsAmount else tips) := by
  rcases settles_press hm ha hy with ⟨-, -, rfl⟩ | ⟨hamounts, hne⟩
  · cases hs
  · rwa [if_neg (hne hs)] at hamounts

/-! ## Checkouts that succeed exist -/

theorem value_succeeds {item : OrganisationWithAmount} {b : Branch Bool Request.Response}
    (hb : write? uid item = some b) {a : b.1.Response} (ha : Succeeds w b.1 a w') : b.2 a = true := by
  obtain ⟨amount, organisation, donateId⟩ := item
  cases donateId <;> by_cases hpos : 0 < amount <;> simp [write?, hpos] at hb <;> subst hb <;>
    exact Option.isNone_iff_eq_none.mpr ha.2

theorem succeeded_of_succeeds {answers : List (Answered Bool Request.Response)}
    (hv : ∀ a ∈ answers, ∀ w w', Succeeds w a.1.1 a.2 w' → a.value = true)
    (hserve : ServesAll Succeeds w answers w') : succeeded answers = true := by
  rw [succeeded, List.all_eq_true]
  induction hserve with
  | nil => simp
  | cons h _ ih =>
    intro a ha
    rcases List.mem_cons.mp ha with rfl | ha
    · exact hv _ List.mem_cons_self _ _ h
    · exact ih (fun b hb => hv b (List.mem_cons_of_mem _ hb)) a ha

/-- A recording of something can succeed as a whole. -/
theorem exists_recording (ha : Amounts uid w defaultDonateAmount tips)
    (hne : vc.donateItems ≠ []) :
    ∃ w' l, vc.sendToUpdateDonates.Yields Succeeds w h w' l ∧
      .showDonateResult vc.donateAmount vc.tipsAmount vc.isOneTimeMode ∈ l := by
  obtain ⟨answers, w₂, hfst, hserve⟩ := exists_servesAll exists_succeeds
    (vc.donateItems.filterMap (write? uid)) (fun b hb => by
      obtain ⟨item, -, he⟩ := List.mem_filterMap.mp hb
      exact write?_records he) w
  have hperm : (answers.map Sigma.fst).Perm (vc.donateItems.filterMap (write? uid)) := .of_eq hfst
  have hsuccess : succeeded answers = true := by
    refine succeeded_of_succeeds (fun a hmem w w' ha => ?_) hserve
    obtain ⟨item, -, he⟩ := answer_of_perm hperm hmem
    exact value_succeeds he ha
  obtain ⟨hd, hdoc, -⟩ := servesAll_record (records_of_perm hperm)
    (hserve.mono succeeds_answers)
  have ha₂ : Amounts uid w₂ defaultDonateAmount tips := ha.congr (by rw [hd]) (by rw [hd]) (hdoc uid)
  have hfinish : ∀ w₂ : World, ∀ h, (vc.completionBlock true).Yields Succeeds w₂ h
      (w₂.1.finished, w₂.2) [.stopActivityAnimating,
        .showDonateResult vc.donateAmount vc.tipsAmount vc.isOneTimeMode] := by
    intro w₂ h
    refine yields_emit.mpr ⟨_, rfl, ?_⟩
    exact yields_modify.mpr (yields_emit.mpr ⟨_, rfl, yields_stop.mpr ⟨rfl, rfl⟩⟩)
  have hk : ∃ w' l, (vc.sendToUpdateDonatesHandler true).Yields Succeeds w₂
      (h ++ [lastFrame w.1.currentUser write? vc.donateItems answers]) w' l ∧
      .showDonateResult vc.donateAmount vc.tipsAmount vc.isOneTimeMode ∈ l := by
    rw [sendToUpdateDonatesHandler]
    simp only [yields_read]
    split
    · rename_i hcond
      obtain ⟨user, hu, -⟩ := ha₂.user
      obtain ⟨old, ho, -⟩ := ha₂.document
      have hne' : w₂.1.userManager.user.map LendUser.defaultDonateAmount ≠ some vc.donateAmount := by
        intro he
        simp [UserManager.defaultDonateAmount, he] at hcond
      exact ⟨_, _, (succeeds_updateDefaultDonateAmount ha₂.signedIn hne').mpr ⟨old, ho, hfinish _ _⟩,
        by simp⟩
    · exact ⟨_, _, hfinish _ _, by simp⟩
  obtain ⟨w', l', hy, hmem⟩ := hk
  refine ⟨w', .startActivityAnimating :: l', (yields_sendToUpdateDonates ha.signedIn hne).mpr
    ⟨answers, w₂, l', hperm, hserve, rfl, ?_⟩, List.mem_cons_of_mem _ hmem⟩
  rwa [hsuccess]

/-- A monthly checkout of something can succeed. -/
theorem exists_press (hm : vc.isOneTimeMode = false) (ha : Amounts uid w defaultDonateAmount tips)
    (hne : vc.donateItems ≠ []) :
    ∃ w' l, vc.completeCheckoutButtonPressed.Yields Succeeds w [] w' l ∧
      .showDonateResult vc.donateAmount vc.tipsAmount vc.isOneTimeMode ∈ l := by
  simp only [completeCheckoutButtonPressed, yields_read]
  by_cases hskip : vc.Skips w.1
  · simp only [if_neg (show ¬ (vc.donateAmount + vc.tipsAmount ≠ w.1.userManager.userDonateAndTips) by
      simpa [Skips] using hskip)]
    exact exists_recording ha hne
  · simp only [if_pos (show vc.donateAmount + vc.tipsAmount ≠ w.1.userManager.userDonateAndTips from hskip)]
    have hcharged : Amounts uid (vc.charged 1 w) defaultDonateAmount tips := ha.congr rfl rfl rfl
    have hpay : Succeeds w (.pay vc.payAmount vc.isOneTimeMode) (.success "token") (vc.charged 1 w) := by
      obtain ⟨user, hu, -⟩ := ha.user
      exact ⟨⟨1, fun _ _ => le_rfl, by simp [hu], rfl⟩, by simp⟩
    have hrest : ∃ w' l, (vc.addTips vc.sendToUpdateDonates).Yields Succeeds (vc.charged 1 w) [] w' l ∧
        .showDonateResult vc.donateAmount vc.tipsAmount vc.isOneTimeMode ∈ l := by
      rw [addTips]
      split
      · obtain ⟨old, ho, -⟩ := hcharged.document
        obtain ⟨w', l, hk, hmem⟩ := exists_recording (hcharged.setTips ho) hne
        exact ⟨w', l, (succeeds_addTips hcharged.signedIn).mpr ⟨old, ho, hk⟩, hmem⟩
      · exact exists_recording hcharged hne
    obtain ⟨w', l, hk, hmem⟩ := hrest
    refine ⟨w', l, yields_ask.mpr ⟨.success "token", _, hpay, ?_⟩, hmem⟩
    simpa only [hm, Bool.false_eq_true, if_false] using hk

/-! ## The pair that is settled -/

/-- The record names amount and tip of the screen, on the device and on the server. -/
def RecordsPair (vc : DonateConfirmation) (uid : String) (w : World) : Prop :=
  ∃ tips, Amounts uid w vc.donateAmount tips ∧ tips.getD 0 = vc.tipsAmount

/-- A monthly checkout whose requests all succeed leaves its pair in the record exactly when
its tip was recorded before, or is positive and was charged. -/
theorem checkout_recordsPair_iff (hm : vc.isOneTimeMode = false)
    (ha : Amounts uid w defaultDonateAmount tips)
    (hy : vc.completeCheckoutButtonPressed.Yields Succeeds w [] w' l)
    (hs : .showDonateResult vc.donateAmount vc.tipsAmount vc.isOneTimeMode ∈ l) :
    vc.RecordsPair uid w' ↔
      tips.getD 0 = vc.tipsAmount ∨
      (0 < vc.tipsAmount ∧ vc.donateAmount + vc.tipsAmount ≠ defaultDonateAmount + tips.getD 0) := by
  have hpress := amounts_press hm ha hy hs
  have hskip : vc.Skips w.1 ↔ vc.donateAmount + vc.tipsAmount = defaultDonateAmount + tips.getD 0 := by
    rw [Skips, ha.total]
  have hunique : vc.RecordsPair uid w' ↔
      (if 0 < vc.tipsAmount ∧ ¬ vc.Skips w.1 then some vc.tipsAmount else tips).getD 0 =
        vc.tipsAmount := by
    constructor
    · rintro ⟨tips', ha', ht⟩
      obtain ⟨user, hu, -, hut⟩ := ha'.user
      obtain ⟨user', hu', -, hut'⟩ := hpress.user
      obtain rfl : user = user' := Option.some.inj (hu.symm.trans hu')
      rw [← hut', hut, ht]
    · intro ht
      exact ⟨_, hpress, ht⟩
  rw [hunique]
  simp only [hskip]
  by_cases hcond : 0 < vc.tipsAmount ∧
      ¬ vc.donateAmount + vc.tipsAmount = defaultDonateAmount + tips.getD 0
  · rw [if_pos hcond]
    exact iff_of_true rfl (.inr hcond)
  · rw [if_neg hcond]
    exact ⟨.inl, fun hor => hor.resolve_right hcond⟩

theorem amounts_donorWorld : Amounts "ann" donorWorld 7 (some 3) :=
  ⟨rfl, ⟨_, rfl, rfl, rfl⟩, ⟨_, rfl, rfl, rfl⟩⟩

/-- Ten and five from a donor whose record is seven and three: five is a new tip. -/
theorem checkout_recordsPair_tenAndFive :
    let vc : DonateConfirmation := ⟨10, 5, [{ amount := 10, organisation := { id := "shelter" } }], false⟩
    ∃ w' l, vc.completeCheckoutButtonPressed.Yields Succeeds donorWorld [] w' l ∧
      vc.RecordsPair "ann" w' := by
  intro vc
  have hne : vc.donateItems ≠ [] := List.cons_ne_nil _ _
  obtain ⟨w', l, hy, hs⟩ := exists_press rfl amounts_donorWorld hne
  exact ⟨w', l, hy, (checkout_recordsPair_iff rfl amounts_donorWorld hy hs).mpr (.inr (by decide))⟩

/-- Five and five from the same donor adds up to the recorded ten: no tip is written. -/
theorem not_checkout_recordsPair :
    ¬ ∀ (vc : DonateConfirmation) (uid : String) (w w' : World) (l : List Effect)
      (defaultDonateAmount : Int) (tips : Option Int),
      vc.isOneTimeMode = false → 0 ≤ vc.tipsAmount → Amounts uid w defaultDonateAmount tips →
      vc.completeCheckoutButtonPressed.Yields Succeeds w [] w' l →
      .showDonateResult vc.donateAmount vc.tipsAmount vc.isOneTimeMode ∈ l →
      vc.RecordsPair uid w' := by
  intro hall
  let vc : DonateConfirmation := ⟨5, 5, [{ amount := 5, organisation := { id := "shelter" } }], false⟩
  have hne : vc.donateItems ≠ [] := List.cons_ne_nil _ _
  obtain ⟨w', l, hy, hs⟩ := exists_press rfl amounts_donorWorld hne
  obtain ⟨tips, hpair, ht⟩ := hall vc _ _ w' l _ _ rfl (by decide) amounts_donorWorld hy hs
  have hpress := amounts_press rfl amounts_donorWorld hy hs
  rw [if_neg (by
    intro hcond
    exact hcond.2 rfl)] at hpress
  obtain ⟨user, hu, -, hut⟩ := hpair.user
  obtain ⟨user', hu', -, hut'⟩ := hpress.user
  obtain rfl : user = user' := Option.some.inj (hu.symm.trans hu')
  rw [← hut, hut'] at ht
  exact absurd ht (by decide)

end DonateConfirmation

end Pledge
