import Pledge.DonateConfirmation

/-!
# What a checkout changes

The answers of the services seen from the checkout: what its requests leave on the device,
in the user's record and in the journal.
-/

namespace Pledge

open EventLoop

variable {w w' w₂ : World} {h : List Frame} {l : List Effect} {uid : String}

/-! ## Single requests -/

/-- Answering a request adds to the journal at most copies of that request. -/
theorem answers_journal {r : Request} {a : r.Response} (h : Answers w r a w') :
    ∃ n, w'.2.journal = w.2.journal ++ List.replicate n r := by
  obtain ⟨-, n, hs⟩ := answers_frame h
  exact ⟨n, congrArg Server.journal hs⟩

/-- The journal only grows. -/
theorem runs_journal {c d : Loop} (h : Runs Answers c d) :
    c.state.2.journal <+: d.state.2.journal := by
  refine runs_env (R := fun s t : Server => s.journal <+: t.journal) (fun _ => List.prefix_rfl)
    (fun _ _ _ => List.IsPrefix.trans) (fun s r a s' ha => ?_) h
  obtain ⟨n, hn⟩ := answers_journal ha
  exact ⟨_, hn.symm⟩

theorem yields_journal {p : Prog} (h : p.Yields Answers w h w' l) :
    w.2.journal <+: w'.2.journal := by
  obtain ⟨h', hs⟩ := h
  have hj := runs_journal hs.1
  rwa [exec_env] at hj

/-- The requests of a recording. -/
def Request.Records : Request → Prop
  | .addPayment .. | .addDonate .. | .setDonate .. | .deleteDonate .. => True
  | _ => False

theorem written_record {r : Request} {ok : Account → Account → Prop} {error : Option String}
    (hok : ∀ a b, ok a b → b.user = a.user) (h : Written w r uid ok error w') :
    w'.1 = w.1 ∧ ∀ u, (w'.2.account u).user = (w.2.account u).user := by
  cases error with
  | none =>
    obtain ⟨a, ha, rfl⟩ := h
    refine ⟨rfl, fun u => ?_⟩
    by_cases hu : u = uid
    · subst hu
      simpa using hok _ _ ha
    · simp [Server.setAccount, hu]
  | some e =>
    obtain rfl : w' = w := h
    exact ⟨rfl, fun _ => rfl⟩

/-- A recording touches neither the device nor a user record. -/
theorem answers_record {r : Request} {a : r.Response} (hr : r.Records) (h : Answers w r a w') :
    w'.1 = w.1 ∧ ∀ u, (w'.2.account u).user = (w.2.account u).user := by
  cases r with
  | addPayment =>
    simp only [Answers] at h
    refine written_record ?_ h
    rintro a _ ⟨_, -, rfl⟩
    rfl
  | addDonate =>
    simp only [Answers] at h
    refine written_record ?_ h
    rintro a _ ⟨_, -, -, rfl⟩
    rfl
  | setDonate | deleteDonate =>
    simp only [Answers] at h
    refine written_record ?_ h
    rintro a _ rfl
    rfl
  | _ => exact hr.elim

theorem servesAll_record {answers : List (Answered Bool Request.Response)}
    (hr : ∀ a ∈ answers, a.1.1.Records) (h : ServesAll Answers w answers w') :
    w'.1 = w.1 ∧ (∀ u, (w'.2.account u).user = (w.2.account u).user) ∧
      ∃ l, w'.2.journal = w.2.journal ++ l ∧ ∀ r ∈ l, ∃ a ∈ answers, a.1.1 = r := by
  induction h with
  | nil w => exact ⟨rfl, fun _ => rfl, [], by simp⟩
  | @cons w w₁ w₂ a answers ha _ ih =>
    obtain ⟨hd, huser, l, hl, hmem⟩ := ih fun b hb => hr b (by simp [hb])
    obtain ⟨hd₁, huser₁⟩ := answers_record (hr a (by simp)) ha
    obtain ⟨n, hn⟩ := answers_journal ha
    refine ⟨hd.trans hd₁, fun u => (huser u).trans (huser₁ u), List.replicate n a.1.1 ++ l, ?_, ?_⟩
    · rw [hl, hn, List.append_assoc]
    · intro r hrl
      rcases List.mem_append.mp hrl with hrl | hrl
      · exact ⟨a, by simp, (List.eq_of_mem_replicate hrl).symm⟩
      · obtain ⟨b, hb, rfl⟩ := hmem r hrl
        exact ⟨b, by simp [hb], rfl⟩

/-- The request is answered and has been carried out once. -/
def CarriedOut (w : World) (r : Request) (a : r.Response) (w' : World) : Prop :=
  Answers w r a w' ∧ w'.2.journal = w.2.journal ++ [r]

/-- Every request of a recording may be carried out: a new document always has an id. -/
theorem exists_carriedOut (w : World) (r : Request) (hr : r.Records) :
    ∃ a w', CarriedOut w r a w' := by
  have hfresh : ∀ s : Finset String, ∃ id, id ∉ s := Infinite.exists_notMem_finset
  cases r with
  | addPayment uid data =>
    obtain ⟨id, hid⟩ := hfresh (w.2.account uid).paymentHistory.keys.toFinset
    exact ⟨none, _, ⟨_, ⟨id, fun h => hid (List.mem_toFinset.mpr h), rfl⟩, rfl⟩, rfl⟩
  | addDonate uid data =>
    obtain ⟨id, hid⟩ := hfresh ((w.2.account uid).donates.keys.toFinset ∪
      (w.2.account uid).deletedDonates.toFinset)
    simp only [Finset.mem_union, List.mem_toFinset, not_or] at hid
    exact ⟨none, _, ⟨_, ⟨id, hid.1, hid.2, rfl⟩, rfl⟩, rfl⟩
  | setDonate uid id data => exact ⟨none, _, ⟨_, rfl, rfl⟩, rfl⟩
  | deleteDonate uid id => exact ⟨none, _, ⟨_, rfl, rfl⟩, rfl⟩
  | _ => exact hr.elim

/-- A recording may go through as a whole. -/
theorem exists_servesAll_record (branches : List (Branch Bool Request.Response))
    (hb : ∀ b ∈ branches, b.1.Records) (w : World) :
    ∃ (answers : List (Answered Bool Request.Response)) (w' : World),
      answers.map Sigma.fst = branches ∧ ServesAll Answers w answers w' ∧
      w'.2.journal = w.2.journal ++ branches.map Sigma.fst := by
  obtain ⟨answers, w', rfl, hs⟩ := exists_servesAll exists_carriedOut branches hb w
  refine ⟨answers, w', rfl, hs.mono fun _ _ _ _ h => h.1, ?_⟩
  induction hs with
  | nil w => simp
  | cons h _ ih =>
    rw [ih (fun b hb' => hb b (by simp at hb' ⊢; tauto)), h.2]
    simp

/-! ## The user record -/

namespace World

/-- `updateData(data)` on the user's document has succeeded, and the local copy follows. -/
def userUpdated (w : World) (uid : String) (old data : UserDoc) (f : LendUser → LendUser) : World :=
  (w.1.updateUser f,
    (w.2.setAccount uid { w.2.account uid with user := some (old.update data) }).record
      [.updateUser uid data])

end World

theorem yields_updateUser {data : UserDoc} {f : LendUser → LendUser} {k : Bool → Prog} :
    (Program.ask (.updateUser uid data) fun error : Option String =>
        if error.isNone then .modify (·.updateUser f) (k error.isNone) else k error.isNone).Yields
        Answers w h w' l ↔
      (k false).Yields Answers w h w' l ∨ ∃ old, (w.2.account uid).user = some old ∧
        (k true).Yields Answers (w.userUpdated uid old data f) h w' l := by
  rw [yields_ask]
  constructor
  · rintro ⟨error, w₁, ha, hk⟩
    cases error with
    | none =>
      obtain ⟨a, ⟨old, hold, rfl⟩, rfl⟩ := ha
      exact .inr ⟨old, hold, hk⟩
    | some e =>
      obtain rfl : w₁ = w := ha
      exact .inl hk
  · rintro (hk | ⟨old, hold, hk⟩)
    · exact ⟨some "error", w, rfl, hk⟩
    · exact ⟨none, _, ⟨_, ⟨old, hold, rfl⟩, rfl⟩, hk⟩

theorem yields_addTips {amount : Int} {k : Bool → Prog} (hu : w.1.currentUser = some uid) :
    (FirestoreManager.addTips amount k).Yields Answers w h w' l ↔
      (k false).Yields Answers w h w' l ∨ ∃ old, (w.2.account uid).user = some old ∧
        (k true).Yields Answers (w.userUpdated uid old { tipsAmount := some amount }
          fun user => { user with tips := some amount }) h w' l := by
  rw [← yields_updateUser, FirestoreManager.addTips, yields_withUid_signedIn hu]

namespace DonateConfirmation

/-- The tip is skipped, or it meets no signed-in user, or it is rejected, or it is written. -/
inductive TipsAdded (vc : DonateConfirmation) (w : World) : World → List Effect → Prop
  | skipped (ht : ¬ 0 < vc.tipsAmount) : TipsAdded vc w w []
  | signedOut (ht : 0 < vc.tipsAmount) (hu : w.1.currentUser = none) :
      TipsAdded vc w w [.redirectToAuth]
  | rejected {uid : String} (ht : 0 < vc.tipsAmount) (hu : w.1.currentUser = some uid) :
      TipsAdded vc w w []
  | written {uid : String} {old : UserDoc} (ht : 0 < vc.tipsAmount)
      (hu : w.1.currentUser = some uid) (hold : (w.2.account uid).user = some old) :
      TipsAdded vc w (w.userUpdated uid old { tipsAmount := some vc.tipsAmount }
        fun user => { user with tips := some vc.tipsAmount }) []

theorem addTips_cases {vc : DonateConfirmation} {k : Prog}
    (hy : (vc.addTips k).Yields Answers w h w' l) :
    ∃ w₁ l₁ l₂, vc.TipsAdded w w₁ l₁ ∧ l = l₁ ++ l₂ ∧ k.Yields Answers w₁ h w' l₂ := by
  rw [addTips] at hy
  split at hy
  · rename_i ht
    cases hu : w.1.currentUser with
    | none =>
      obtain ⟨l', rfl, hk⟩ := yields_withUid_signedOut hu hy
      exact ⟨w, _, l', .signedOut ht hu, rfl, hk⟩
    | some uid =>
      rcases (yields_addTips hu).mp hy with hk | ⟨old, hold, hk⟩
      · exact ⟨w, [], l, .rejected ht hu, rfl, hk⟩
      · exact ⟨_, [], l, .written ht hu hold, rfl, hk⟩
  · rename_i ht
    exact ⟨w, [], l, .skipped ht, rfl, hy⟩

end DonateConfirmation

theorem yields_updateDefaultDonateAmount {amount : Int} {k : Bool → Prog}
    (hu : w.1.currentUser = some uid)
    (hne : w.1.userManager.user.map LendUser.defaultDonateAmount ≠ some amount) :
    (FirestoreManager.updateDefaultDonateAmount amount k).Yields Answers w h w' l ↔
      (k false).Yields Answers w h w' l ∨ ∃ old, (w.2.account uid).user = some old ∧
        (k true).Yields Answers (w.userUpdated uid old { defaultDonateAmount := some amount }
          fun user => { user with defaultDonateAmount := amount }) h w' l := by
  rw [← yields_updateUser, yields_updateDefaultDonateAmount_of_ne hu hne]

/-! ## The end of a checkout -/

namespace Device

/-- The session record after a recorded checkout. -/
def finished (d : Device) : Device :=
  d.setUserManager { d.userManager with completeDonation := none, tmpDonateAmount := none }

end Device

namespace DonateConfirmation

variable {vc : DonateConfirmation} {success : Bool}

/-- How `completionBlock` ends a checkout. -/
def Finishes (vc : DonateConfirmation) (success : Bool) (w w' : World) (l : List Effect) : Prop :=
  if success then
    w' = (w.1.finished, w.2) ∧ l = [.stopActivityAnimating,
      .showDonateResult vc.donateAmount vc.tipsAmount vc.isOneTimeMode]
  else w' = w ∧ l = [.stopActivityAnimating, .networkErrorAlert]

theorem yields_completionBlock :
    (vc.completionBlock success).Yields Answers w h w' l ↔ vc.Finishes success w w' l := by
  cases success <;> simp [completionBlock, Finishes, Device.finished]
  · aesop
  · aesop

/-- The handler writes the default amount of a monthly checkout when it differs. -/
theorem yields_sendToUpdateDonatesHandler (hu : w.1.currentUser = some uid) :
    (vc.sendToUpdateDonatesHandler success).Yields Answers w h w' l ↔
      if vc.isOneTimeMode = true ∨ vc.donateAmount = w.1.userManager.defaultDonateAmount then
        vc.Finishes success w w' l
      else vc.Finishes success w w' l ∨ ∃ old, (w.2.account uid).user = some old ∧
        vc.Finishes success (w.userUpdated uid old { defaultDonateAmount := some vc.donateAmount }
          fun user => { user with defaultDonateAmount := vc.donateAmount }) w' l := by
  rw [sendToUpdateDonatesHandler, yields_read]
  by_cases hc : vc.isOneTimeMode = true ∨ vc.donateAmount = w.1.userManager.defaultDonateAmount
  · have hcond : (!vc.isOneTimeMode &&
        vc.donateAmount != w.1.userManager.defaultDonateAmount) = false := by
      rcases hc with hc | hc <;> simp [hc]
    rw [hcond, if_pos hc]
    exact yields_completionBlock
  · have hcond : (!vc.isOneTimeMode &&
        vc.donateAmount != w.1.userManager.defaultDonateAmount) = true := by
      simpa [not_or] using hc
    have hne : w.1.userManager.user.map LendUser.defaultDonateAmount ≠ some vc.donateAmount := by
      intro he
      exact hc (.inr (by simp [UserManager.defaultDonateAmount, he]))
    rw [hcond, if_neg hc, if_pos rfl, yields_updateDefaultDonateAmount hu hne]
    simp only [yields_completionBlock]

theorem finishes_server (hf : vc.Finishes success w w' l) : w'.2 = w.2 := by
  unfold Finishes at hf
  split at hf
  · rw [hf.1]
  · rw [hf.1]

theorem finishes_device (hf : vc.Finishes success w w' l) :
    w'.1.userManager.user = w.1.userManager.user ∧ w'.1.currentUser = w.1.currentUser := by
  unfold Finishes at hf
  split at hf <;> obtain ⟨rfl, -⟩ := hf <;> exact ⟨rfl, rfl⟩

theorem finishes_effects (hf : vc.Finishes success w w' l) :
    (.networkErrorAlert ∈ l ↔ success = false) ∧
      (.showDonateResult vc.donateAmount vc.tipsAmount vc.isOneTimeMode ∈ l ↔ success = true) ∧
      .redirectToAuth ∉ l := by
  unfold Finishes at hf
  split at hf <;> obtain ⟨-, rfl⟩ := hf <;> simp_all

/-! ## A press of Complete Checkout -/

/-- One settled press of the button. -/
def Presses (vc : DonateConfirmation) (w w' : World) (l : List Effect) : Prop :=
  vc.completeCheckoutButtonPressed.Yields Answers w [] w' l

/-- The total on the screen is the recorded one, and no payment is asked for. -/
def Skips (vc : DonateConfirmation) (d : Device) : Prop :=
  vc.donateAmount + vc.tipsAmount = d.userManager.userDonateAndTips

instance (vc : DonateConfirmation) (d : Device) : Decidable (vc.Skips d) :=
  inferInstanceAs (Decidable (_ = _))

/-- The world after `n` charges by the payment sheet of this screen. -/
def charged (vc : DonateConfirmation) (n : ℕ) (w : World) : World :=
  (w.1, w.2.record (.replicate n (.pay vc.payAmount vc.isOneTimeMode)))

/-- The recording that follows an accepted charge. -/
def recording (vc : DonateConfirmation) : Prog :=
  if vc.isOneTimeMode then vc.addOneTimePaymentToFirebase else vc.addTips vc.sendToUpdateDonates

/-- A press skips the payment, or its sheet fails, or it charges and records. -/
theorem presses_iff :
    vc.Presses w w' l ↔
      (vc.Skips w.1 ∧ vc.sendToUpdateDonates.Yields Answers w [] w' l) ∨
      (¬ vc.Skips w.1 ∧ ∃ n, (w.1.userManager.user = none → n = 0) ∧ w' = vc.charged n w ∧ l = []) ∨
      (¬ vc.Skips w.1 ∧ w.1.userManager.user ≠ none ∧
        ∃ n, 1 ≤ n ∧ vc.recording.Yields Answers (vc.charged n w) [] w' l) := by
  rw [Presses, completeCheckoutButtonPressed, yields_read]
  by_cases hs : vc.Skips w.1
  · have htotal : vc.donateAmount + vc.tipsAmount = w.1.userManager.userDonateAndTips := hs
    simp [htotal, hs]
  · have htotal : vc.donateAmount + vc.tipsAmount ≠ w.1.userManager.userDonateAndTips := hs
    rw [if_pos htotal, yields_ask]
    constructor
    · rintro ⟨result, _, ⟨n, hsuccess, huser, rfl⟩, hy⟩
      cases result with
      | failure =>
        obtain ⟨rfl, rfl⟩ := yields_stop.mp hy
        exact .inr (.inl ⟨hs, n, huser, rfl, rfl⟩)
      | success token =>
        have hn := hsuccess token rfl
        exact .inr (.inr ⟨hs, fun h => by have := huser h; omega, n, hn, hy⟩)
    · rintro (⟨h, -⟩ | ⟨-, n, huser, rfl, rfl⟩ | ⟨-, huser, n, hn, hy⟩)
      · exact absurd h hs
      · exact ⟨.failure, _, ⟨n, by simp, huser, rfl⟩, yields_stop.mpr ⟨rfl, rfl⟩⟩
      · exact ⟨.success "token", _, ⟨n, fun _ _ => hn, fun h => absurd h huser, rfl⟩, hy⟩

theorem write?_records {item : OrganisationWithAmount} {b : Branch Bool Request.Response}
    (hb : write? uid item = some b) : b.1.Records := by
  obtain ⟨amount, organisation, donateId⟩ := item
  cases donateId <;> by_cases ha : 0 < amount <;> simp [write?, ha] at hb <;> subst hb <;> trivial

/-- The answers to writes that record are answers to requests that record. -/
theorem records_of_filterMap {α : Type} {xs : List α}
    {write? : String → α → Option (Branch Bool Request.Response)}
    {answers : List (Answered Bool Request.Response)}
    (hrecords : ∀ uid x b, write? uid x = some b → b.1.Records)
    (hperm : (answers.map Sigma.fst).Perm (xs.filterMap (write? uid))) :
    ∀ a ∈ answers, a.1.1.Records := by
  intro a ha
  obtain ⟨x, -, hx⟩ := List.mem_filterMap.mp (hperm.subset (List.mem_map_of_mem ha))
  exact hrecords uid x a.1 hx

/-! ## Monthly recordings -/

/-- The answers of a recording belong to the writes of its rows. -/
theorem answer_of_perm {answers : List (Answered Bool Request.Response)}
    (hperm : (answers.map Sigma.fst).Perm (vc.donateItems.filterMap (write? uid)))
    {a : Answered Bool Request.Response} (ha : a ∈ answers) :
    ∃ item ∈ vc.donateItems, write? uid item = some a.1 :=
  List.mem_filterMap.mp (hperm.subset (List.mem_map_of_mem ha))

theorem records_of_perm {answers : List (Answered Bool Request.Response)}
    (hperm : (answers.map Sigma.fst).Perm (vc.donateItems.filterMap (write? uid)))
    (a : Answered Bool Request.Response) (ha : a ∈ answers) : a.1.1.Records := by
  obtain ⟨item, -, he⟩ := answer_of_perm hperm ha
  exact write?_records he

theorem payment_of_perm {answers : List (Answered Bool Request.Response)} {now : ℕ}
    (hperm : (answers.map Sigma.fst).Perm (vc.payments.filterMap fun p => some (paymentWrite uid now p)))
    {a : Answered Bool Request.Response} (ha : a ∈ answers) :
    ∃ p ∈ vc.payments, a.1 = paymentWrite uid now p := by
  obtain ⟨p, hp, he⟩ := List.mem_filterMap.mp (hperm.subset (List.mem_map_of_mem ha))
  exact ⟨p, hp, (Option.some.inj he).symm⟩

theorem payment_records_of_perm {answers : List (Answered Bool Request.Response)} {now : ℕ}
    (hperm : (answers.map Sigma.fst).Perm (vc.payments.filterMap fun p => some (paymentWrite uid now p)))
    (a : Answered Bool Request.Response) (ha : a ∈ answers) : a.1.1.Records := by
  obtain ⟨p, -, he⟩ := payment_of_perm hperm ha
  rw [he]
  trivial

/-- What the handler of a monthly checkout leaves of the user record `user`. -/
theorem handler_user {user : LendUser} (hm : vc.isOneTimeMode = false)
    (hu : w.1.currentUser = some uid) (huser : w.1.userManager.user = some user)
    (hy : (vc.sendToUpdateDonatesHandler success).Yields Answers w h w' l) :
    w'.1.currentUser = some uid ∧
      ((w'.1.userManager.user = some user ∧ w'.2 = w.2) ∨
      (vc.donateAmount ≠ user.defaultDonateAmount ∧
        w'.1.userManager.user = some { user with defaultDonateAmount := vc.donateAmount } ∧
        ∃ old, (w.2.account uid).user = some old ∧
          w'.2 = (w.userUpdated uid old { defaultDonateAmount := some vc.donateAmount }
            fun user => { user with defaultDonateAmount := vc.donateAmount }).2)) := by
  have hdefault : w.1.userManager.defaultDonateAmount = user.defaultDonateAmount := by
    simp [UserManager.defaultDonateAmount, huser]
  rw [yields_sendToUpdateDonatesHandler hu, hdefault, hm] at hy
  split at hy
  · obtain ⟨hdu, hdc⟩ := finishes_device hy
    exact ⟨hdc.trans hu, .inl ⟨hdu.trans huser, finishes_server hy⟩⟩
  · rename_i hne
    rcases hy with hy | ⟨old, hold, hy⟩
    · obtain ⟨hdu, hdc⟩ := finishes_device hy
      exact ⟨hdc.trans hu, .inl ⟨hdu.trans huser, finishes_server hy⟩⟩
    · obtain ⟨hdu, hdc⟩ := finishes_device hy
      refine ⟨hdc.trans hu, .inr ⟨by simpa using hne, ?_, old, hold, finishes_server hy⟩⟩
      rw [hdu]
      simp [World.userUpdated, Device.updateUser, huser]

/-- A monthly recording of a signed-in user: its pledge writes, and then possibly the
default amount. -/
theorem recording_user {user : LendUser} (hm : vc.isOneTimeMode = false)
    (hu : w.1.currentUser = some uid) (huser : w.1.userManager.user = some user)
    (hy : vc.sendToUpdateDonates.Yields Answers w h w' l) :
    w'.1.currentUser = some uid ∧ ∃ t, (∀ r ∈ t, r.Records) ∧
      ((w'.1.userManager.user = some user ∧ w'.2.journal = w.2.journal ++ t ∧
        ∀ u, (w'.2.account u).user = (w.2.account u).user) ∨
      (vc.donateAmount ≠ user.defaultDonateAmount ∧
        w'.1.userManager.user = some { user with defaultDonateAmount := vc.donateAmount } ∧
        w'.2.journal = w.2.journal ++ t ++
          [.updateUser uid { defaultDonateAmount := some vc.donateAmount }] ∧
        (w'.2.account uid).user ≠ none)) := by
  by_cases hne : vc.donateItems = []
  · obtain ⟨l', -, hloop⟩ := yields_emit.mp hy
    rw [hne] at hloop
    obtain ⟨rfl, -⟩ := yields_record_nil.mp hloop
    exact ⟨hu, [], by simp, .inl ⟨huser, by simp, fun _ => rfl⟩⟩
  · obtain ⟨answers, w₂, l', hperm, hserve, -, hk⟩ := (yields_sendToUpdateDonates hu hne).mp hy
    obtain ⟨hd, hdoc, t, ht, hreq⟩ := servesAll_record (records_of_perm hperm) hserve
    have hrec : ∀ r ∈ t, r.Records := by
      intro r hr
      obtain ⟨a, ha, rfl⟩ := hreq r hr
      exact records_of_perm hperm a ha
    obtain ⟨hc, hcases⟩ := handler_user hm (by rw [hd]; exact hu) (by rw [hd]; exact huser) hk
    refine ⟨hc, t, hrec, ?_⟩
    rcases hcases with ⟨hsame, hserver⟩ | ⟨hdiff, hnew, old, -, hserver⟩
    · exact .inl ⟨hsame, by rw [hserver, ht], fun u => by rw [hserver, hdoc]⟩
    · exact .inr ⟨hdiff, hnew, by rw [hserver, ← ht]; rfl, by rw [hserver]; simp [World.userUpdated]⟩

theorem handler_effects (hy : (vc.sendToUpdateDonatesHandler success).Yields Answers w h w' l) :
    (.networkErrorAlert ∈ l ↔ success = false) ∧
      (.showDonateResult vc.donateAmount vc.tipsAmount vc.isOneTimeMode ∈ l ↔ success = true) := by
  have hdone : ∀ {w l}, vc.Finishes success w w' l → (.networkErrorAlert ∈ l ↔ success = false) ∧
      (.showDonateResult vc.donateAmount vc.tipsAmount vc.isOneTimeMode ∈ l ↔ success = true) :=
    fun hf => ⟨(finishes_effects hf).1, (finishes_effects hf).2.1⟩
  cases hu : w.1.currentUser with
  | some uid =>
    rw [yields_sendToUpdateDonatesHandler hu] at hy
    split at hy
    · exact hdone hy
    · rcases hy with hy | ⟨old, -, hy⟩
      · exact hdone hy
      · exact hdone hy
  | none =>
    rw [sendToUpdateDonatesHandler, yields_read] at hy
    split at hy
    · obtain ⟨l', rfl, hk⟩ := yields_withUid_signedOut hu hy
      simpa using hdone (yields_completionBlock.mp hk)
    · exact hdone (yields_completionBlock.mp hy)

/-- The handler sends at most an update of the user's document. -/
theorem journal_handler
    (hy : (vc.sendToUpdateDonatesHandler success).Yields Answers w h w' l) :
    ∃ t, w'.2.journal = w.2.journal ++ t ∧ ∀ r ∈ t, ∃ uid data, r = .updateUser uid data := by
  have hsame : w'.2 = w.2 →
      ∃ t, w'.2.journal = w.2.journal ++ t ∧ ∀ r ∈ t, ∃ uid data, r = .updateUser uid data :=
    fun he => ⟨[], by simp [he]⟩
  cases hu : w.1.currentUser with
  | some uid =>
    rw [yields_sendToUpdateDonatesHandler hu] at hy
    split at hy
    · exact hsame (finishes_server hy)
    · rcases hy with hy | ⟨old, -, hy⟩
      · exact hsame (finishes_server hy)
      · refine ⟨[.updateUser uid { defaultDonateAmount := some vc.donateAmount }], ?_, by simp⟩
        rw [finishes_server hy]
        rfl
  | none =>
    rw [sendToUpdateDonatesHandler, yields_read] at hy
    split at hy
    · obtain ⟨l', -, hy⟩ := yields_withUid_signedOut hu hy
      exact hsame (finishes_server (yields_completionBlock.mp hy))
    · exact hsame (finishes_server (yields_completionBlock.mp hy))

/-- Recording pledges never charges. -/
theorem journal_sendToUpdateDonates (hy : vc.sendToUpdateDonates.Yields Answers w h w' l) :
    ∃ t, w'.2.journal = w.2.journal ++ t ∧
      ∀ r ∈ t, r.Records ∨ ∃ uid data, r = .updateUser uid data := by
  obtain ⟨l', -, hrecording⟩ := sendToUpdateDonates_cases hy
  cases hrecording with
  | nothing _ hw => exact ⟨[], by simp [hw]⟩
  | signedOut _ _ hk =>
    obtain ⟨t, ht, hmem⟩ := journal_handler hk
    exact ⟨t, ht, fun r hr => .inr (hmem r hr)⟩
  | answered _ _ hperm hserve hk =>
    obtain ⟨-, -, t₁, ht₁, hreq⟩ := servesAll_record (records_of_perm hperm) hserve
    obtain ⟨t₂, ht₂, hmem⟩ := journal_handler hk
    refine ⟨t₁ ++ t₂, by rw [ht₂, ht₁, List.append_assoc], fun r hr => ?_⟩
    rcases List.mem_append.mp hr with hr | hr
    · obtain ⟨a, ha, rfl⟩ := hreq r hr
      exact .inl (records_of_perm hperm a ha)
    · exact .inr (hmem r hr)

end DonateConfirmation

/-! ## A donor -/

/-- A signed-in user with a monthly record of seven and a tip of three. -/
def donorWorld : World :=
  ({ userManager :=
      { user := some { email := "ann@mail.com", displayName := some "Ann Lee"
                       defaultDonateAmount := 7, tips := some 3 } }
     currentUser := some "ann" },
   { account := fun _ =>
      { user := some { email := some "ann@mail.com", displayName := some "Ann Lee"
                       defaultDonateAmount := some 7, tipsAmount := some 3 } } })

end Pledge
