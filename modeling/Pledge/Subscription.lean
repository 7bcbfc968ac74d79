import Pledge.Browsing

/-!
# The subscription

What the user's record adds up to, what the subscription endpoint has charged last, and how
far one follows the other.
-/

namespace Pledge

open EventLoop

/-- The amount taken by a charge of the subscription endpoint. -/
def Request.subscription? : Request → Option Int
  | .pay amount false => some amount
  | _ => none

/-- What was charged last, nothing if there was no charge. -/
def lastPaid (l : List Request) : Int := (l.filterMap Request.subscription?).getLast?.getD 0

/-- Every request of `uid` succeeds, and nobody else signs in. -/
def SucceedsFor (uid : String) (w : World) (r : Request) (a : r.Response) (w' : World) : Prop :=
  Succeeds w r a w' ∧ (w'.1.currentUser = w.1.currentUser ∨ w'.1.currentUser = some uid)

/-- What the record adds up to after a monthly checkout that was not left before. -/
def DonateConfirmation.recorded (vc : DonateConfirmation) (d : Device) : Int :=
  (if vc.donateItems = [] then d.userManager.defaultDonateAmount else vc.donateAmount) +
    if 0 < vc.tipsAmount ∧ ¬ vc.Skips d then vc.tipsAmount else d.userManager.tipsAmount

variable {uid : String} {w w' : World} {h : List Frame} {l : List Effect}

theorem lastPaid_append {l t : List Request} (ht : ∀ r ∈ t, r.subscription? = none) :
    lastPaid (l ++ t) = lastPaid l := by
  have hnone : t.filterMap Request.subscription? = [] := List.filterMap_eq_nil_iff.mpr ht
  rw [lastPaid, lastPaid, List.filterMap_append, hnone, List.append_nil]

/-- The account has its e-mail, and a record that decodes. -/
def Registered (uid : String) (s : Server) : Prop :=
  (s.account uid).email ≠ none ∧ ∃ doc, (s.account uid).user = some doc ∧ doc.email ≠ none

/-- The total in the user's document was charged last, among what the journal lists from `n` on. -/
def Charged (uid : String) (n : ℕ) (s : Server) : Prop :=
  ∃ doc, (s.account uid).user = some doc ∧
    doc.defaultDonateAmount.getD 0 + doc.tipsAmount.getD 0 = lastPaid (s.journal.drop n)

/-- Nobody but `uid` is signed in. -/
def Only (uid : String) (d : Device) : Prop := d.currentUser = none ∨ d.currentUser = some uid

def Page.Authenticates : Page → Prop
  | .auth | .authenticating _ => True
  | _ => False

/-- What holds between two touches of a run that starts at a sign-up: away from the
authentication screens the local record agrees with the document, and while the record is
settled its total was charged last. -/
structure Paid (uid : String) (n : ℕ) (settled : Bool) (a : App) : Prop where
  registered : Registered uid a.world.2
  journal : n ≤ a.world.2.journal.length
  only : Only uid a.world.1
  amounts : a.page.Authenticates ∨ ∃ d t, Matches uid a.world d t
  charged : settled = true → Charged uid n a.world.2

/-- Neither the record of `uid` nor what was charged for it is touched. -/
structure Untouched (uid : String) (w w' : World) : Prop where
  user : w'.1.userManager.user = w.1.userManager.user
  document : (w'.2.account uid).user = (w.2.account uid).user
  journal : ∃ t, w'.2.journal = w.2.journal ++ t ∧ ∀ r ∈ t, r.subscription? = none

theorem Untouched.refl (w : World) : Untouched uid w w := ⟨rfl, rfl, [], by simp⟩

theorem Untouched.trans {w₁ w₂ w₃ : World} (h : Untouched uid w₁ w₂) (h' : Untouched uid w₂ w₃) :
    Untouched uid w₁ w₃ := by
  obtain ⟨t, ht, hnone⟩ := h.journal
  obtain ⟨t', ht', hnone'⟩ := h'.journal
  refine ⟨h'.user.trans h.user, h'.document.trans h.document, t ++ t',
    by rw [ht', ht, List.append_assoc], fun r hr => ?_⟩
  rcases List.mem_append.mp hr with hr | hr
  · exact hnone r hr
  · exact hnone' r hr

theorem Untouched.charged {n : ℕ} (h : Untouched uid w w') (hn : n ≤ w.2.journal.length)
    (hc : Charged uid n w.2) : Charged uid n w'.2 := by
  obtain ⟨doc, hdoc, htotal⟩ := hc
  obtain ⟨t, ht, hnone⟩ := h.journal
  refine ⟨doc, h.document.trans hdoc, ?_⟩
  rw [ht, List.drop_append_of_le_length hn, lastPaid_append hnone]
  exact htotal

theorem Untouched.matches {d : Int} {t : Option Int} (h : Untouched uid w w') (hm : Matches uid w d t) :
    Matches uid w' d t := hm.congr h.user h.document

structure Keeping (uid : String) (w w' : World) : Prop where
  registered : Registered uid w.2 → Registered uid w'.2
  journal : w.2.journal.length ≤ w'.2.journal.length
  only : Only uid w.1 → Only uid w'.1

theorem Keeping.refl (w : World) : Keeping uid w w := ⟨id, le_rfl, id⟩

section Calls

variable {k : Bool → Prog} {amount : Int}

end Calls

/-! ## One touch -/

section Touch

variable {a b a' : App} {i : Interaction} {p : Prog} {n : ℕ} {settled settled' : Bool} {page : Page}

/-- What is left to show about a touch, once its requests have been answered. -/
theorem Paid.touched (hp : Paid uid n settled a) (hb : b.world.2 = a.world.2)
    (hu : b.world.1.currentUser = a.world.1.currentUser ∨ b.world.1.currentUser = none)
    (hk : Keeping uid b.world w')
    (hm : (l.foldl App.shown { b with world := w' }).page.Authenticates ∨ ∃ d t, Matches uid w' d t)
    (hc : settled' = true → Charged uid n w'.2) :
    Paid uid n settled' (l.foldl App.shown { b with world := w' }) := by
  have honly : Only uid b.world.1 := by
    rcases hu with hu | hu
    · rw [Only, hu]
      exact hp.only
    · exact .inl hu
  have hj := hk.journal
  rw [hb] at hj
  refine ⟨?_, ?_, ?_, ?_, ?_⟩
  · rw [App.foldl_shown_world]
    exact hk.registered (hb ▸ hp.registered)
  · rw [App.foldl_shown_world]
    exact hp.journal.trans hj
  · rw [App.foldl_shown_world]
    exact hk.only honly
  · rw [App.foldl_shown_world]
    exact hm
  · rw [App.foldl_shown_world]
    exact hc

theorem Paid.matches (hp : Paid uid n settled a) (ha : ¬ a.page.Authenticates) :
    ∃ d t, Matches uid a.world d t := hp.amounts.resolve_left ha

end Touch

/-! ## Checkouts -/

namespace DonateConfirmation

variable {vc : DonateConfirmation}

end DonateConfirmation

section Checkout

variable {a : App} {n : ℕ} {settled : Bool} {vc : DonateConfirmation} {below : Page} {bucket : MyBucket}

/-- The record that was settled is what the local record adds up to. -/
theorem Matches.lastPaid {d : Int} {t : Option Int} {n : ℕ} (hm : Matches uid w d t)
    (hc : Charged uid n w.2) : lastPaid (w.2.journal.drop n) = w.1.userManager.userDonateAndTips := by
  obtain ⟨doc, hdoc, htotal⟩ := hc
  obtain ⟨doc', hdoc', hd, ht⟩ := hm.document
  obtain rfl : doc = doc' := Option.some.inj (hdoc.symm.trans hdoc')
  rw [hm.total, ← htotal, hd, ht]

end Checkout

/-! ## Every touch -/

section Step

variable {a b a' : App} {i : Interaction} {p : Prog} {n : ℕ} {settled : Bool} {page : Page}

end Step

/-! ## Every run -/

section Runs

variable {a₀ a a' : App} {i : Interaction} {settled : Bool}

end Runs

/-! ## Ann -/

/-- Whoever is signed in, a checkout does not change it. -/
theorem succeedsFor_press {vc : DonateConfirmation}
    (hy : vc.completeCheckoutButtonPressed.Yields Succeeds w h w' l) :
    vc.completeCheckoutButtonPressed.Yields (SucceedsFor uid) w h w' l := by
  refine Program.Within.yields_mono (F := closing vc) (fun w r a w' hr hs => ⟨hs, .inl ?_⟩)
    closing_completeCheckoutButtonPressed hy
  rcases hr with hr | rfl | ⟨-, u, data, rfl⟩
  · rw [(answers_record hr hs.1).1]
  · obtain ⟨n, -, -, rfl⟩ := hs.1
    rfl
  · have hw := hs.1
    simp only [Answers] at hw
    cases a with
    | none =>
      obtain ⟨_, -, rfl⟩ := hw
      rfl
    | some e =>
      obtain rfl : w' = w := hw
      rfl

end Pledge
