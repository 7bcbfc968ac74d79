import Pledge.Checkout

/-! When the write loops of a checkout call their handler. -/
namespace Pledge

open EventLoop

namespace DonateConfirmation

variable {vc : DonateConfirmation} {w w' : World} {uid : String}

/-- The two loops over writes. -/
inductive FanOut
  | sendToUpdateDonates
  | addOneTimePaymentToFirebase
deriving DecidableEq, Repr

namespace FanOut

/-- A loop with its handler as a parameter. -/
def run (vc : DonateConfirmation) (handler : Bool → Prog) : FanOut → Prog
  | .sendToUpdateDonates =>
    .emit .startActivityAnimating <| .alloc {} fun x =>
      .forEach vc.donateItems fun item => updateDonate item
        (.join x count (fun frame => frame.queryCount == vc.donateItems.length)
          fun frame => handler (!frame.isError))
  | .addOneTimePaymentToFirebase =>
    .emit .startActivityAnimating <| .read fun d => .alloc {} fun x =>
      .forEach vc.payments fun p => FirestoreManager.addOneTimeDonate p.1 p.2 d.now
        (.join x count (fun frame => frame.queryCount == vc.payments.length)
          fun frame => handler (!frame.isError))

theorem run_sendToUpdateDonates (vc : DonateConfirmation) :
    FanOut.sendToUpdateDonates.run vc vc.sendToUpdateDonatesHandler = vc.sendToUpdateDonates := rfl

theorem run_addOneTimePaymentToFirebase (vc : DonateConfirmation) :
    FanOut.addOneTimePaymentToFirebase.run vc vc.sendToUpdateDonatesHandler =
      vc.addOneTimePaymentToFirebase :=
  vc.addOneTimePaymentToFirebase_eq.symm

/-- The writes of the loop. Without a signed-in user none of them is sent. -/
def writes (vc : DonateConfirmation) (d : Device) : FanOut → List Request
  | .sendToUpdateDonates =>
    (vc.donateItems.filterMap (write? (d.currentUser.getD ""))).map Sigma.fst
  | .addOneTimePaymentToFirebase =>
    (vc.payments.filterMap fun p => some (paymentWrite (d.currentUser.getD "") d.now p)).map Sigma.fst

/-- The loop has nothing to count. -/
def Empty (vc : DonateConfirmation) : FanOut → Prop
  | .sendToUpdateDonates => vc.donateItems = []
  | .addOneTimePaymentToFirebase => vc.payments = []

end FanOut

def report (success : Bool) : Prog := .emit (.reported success) .stop

/-- The calls of the handler, as it is told about them. -/
def reports (l : List Effect) : List Bool :=
  l.filterMap fun
    | .reported success => some success
    | _ => none

/-- The handler has not been called while something is pending, and has been called exactly
once when nothing is, told whether all the writes were carried out. -/
structure Joined (writes : List Request) (w : World) (d : Loop) : Prop where
  waiting : ¬ d.Quiet → reports d.out = []
  joined : d.Quiet → ∃ success, reports d.out = [success] ∧
    (success = true ↔ ∃ t, d.state.2.journal = w.2.journal ++ t ∧ t.Perm writes)

/-- The answer tells whether the write was carried out. -/
def Faithful (b : Branch Bool Request.Response) : Prop :=
  ∀ w a w', Answers w b.1 a w' → w'.2.journal = w.2.journal ++ if b.2 a then [b.1] else []

theorem faithful_written {r : Request} {ok : Account → Account → Prop} {error : Option String}
    (h : Written w r uid ok error w') :
    w'.2.journal = w.2.journal ++ if error.isNone then [r] else [] := by
  cases error with
  | none =>
    obtain ⟨a, -, rfl⟩ := h
    rfl
  | some e =>
    obtain rfl : w' = w := h
    simp

theorem faithful_write? {item : OrganisationWithAmount} {b : Branch Bool Request.Response}
    (hb : write? uid item = some b) : Faithful b := by
  obtain ⟨amount, organisation, donateId⟩ := item
  intro w a w' ha
  cases donateId <;> by_cases hpos : 0 < amount <;> simp [write?, hpos] at hb <;> subst hb <;>
    simp only [Answers] at ha <;> exact faithful_written ha

theorem faithful_paymentWrite (uid : String) (now : ℕ) (p : String × Int) :
    Faithful (paymentWrite uid now p) := by
  intro w a w' ha
  simp only [paymentWrite, Answers] at ha
  exact faithful_written ha

/-- The journal after a join holds the writes that were reported as carried out. -/
theorem journal_servesAll {answers : List (Answered Bool Request.Response)}
    (hf : ∀ a ∈ answers, Faithful a.1) (hs : ServesAll Answers w answers w') :
    w'.2.journal = w.2.journal ++ (answers.filter Answered.value).map fun a => a.1.1 := by
  induction hs with
  | nil => simp
  | @cons w w₁ w₂ a answers ha _ ih =>
    rw [ih fun b hb => hf b (List.mem_cons_of_mem _ hb), hf a List.mem_cons_self _ _ _ ha]
    have hvalue : a.value = a.1.2 a.2 := rfl
    cases h : a.1.2 a.2 <;> simp [hvalue, h]

/-- All writes are in the journal exactly when every answer reported success. -/
theorem succeeded_iff {answers : List (Answered Bool Request.Response)} {writes : List Request}
    (hw : writes.Perm (answers.map fun a => a.1.1))
    (hj : w'.2.journal = w.2.journal ++ (answers.filter Answered.value).map fun a => a.1.1) :
    succeeded answers = true ↔ ∃ t, w'.2.journal = w.2.journal ++ t ∧ t.Perm writes := by
  constructor
  · intro hok
    rw [succeeded, List.all_eq_true] at hok
    refine ⟨_, hj, ?_⟩
    rw [List.filter_eq_self.mpr hok]
    exact hw.symm
  · rintro ⟨t, ht, hperm⟩
    obtain rfl := List.append_cancel_left (hj.symm.trans ht)
    have hlen := (hperm.trans hw).length_eq
    rw [List.length_map, List.length_map, List.length_filter_eq_length_iff] at hlen
    rw [succeeded, List.all_eq_true]
    exact hlen

section Record

variable {α : Type} {xs : List α} {write? : String → α → Option (Branch Bool Request.Response)}
  {body : ℕ → α → Prog}

theorem reports_append (l l' : List Effect) : reports (l ++ l') = reports l ++ reports l' :=
  List.filterMap_append

theorem reports_emitted (xs : List α) : reports (xs.flatMap fun a =>
    (turnOf w.1.currentUser fun uid => write? uid a).emitted) = [] := by
  rw [reports, List.filterMap_eq_nil_iff]
  intro o ho
  obtain ⟨a, -, ha⟩ := List.mem_flatMap.mp ho
  have hredirect : o = .redirectToAuth := by
    cases hu : w.1.currentUser with
    | none =>
      cases h : write? "" a <;> simp [turnOf, hu, h, Turn.emitted] at ha
      exact ha
    | some uid => cases h : write? uid a <;> simp [turnOf, hu, h, Turn.emitted] at ha
  rw [hredirect]

theorem yields_report {success : Bool} {s : World} {h : List Frame} {l : List Effect} :
    (report success).Yields Answers s h w' l ↔ w' = s ∧ l = [.reported success] := by
  simp [report]
  aesop

/-- A loop over something calls its handler once, and a loop over nothing never does. -/
theorem joined_iff
    (hbody : Contributes Server body (fun a => turnOf w.1.currentUser fun uid => write? uid a)
      count (fun frame => frame.queryCount == xs.length) (fun frame => report (!frame.isError)) w.1)
    (hf : ∀ uid a b, write? uid a = some b → Faithful b) :
    (∀ d : Loop, Runs Answers ((Program.alloc {} fun x => .forEach xs (body x)).exec
        ⟨w, [], [], [.startActivityAnimating]⟩) d →
      Joined ((xs.filterMap (write? (w.1.currentUser.getD ""))).map Sigma.fst) w d) ↔ xs ≠ [] := by
  constructor
  · rintro hall rfl
    obtain ⟨success, hs, -⟩ := (hall _ .refl).joined rfl
    simp [reports] at hs
  · intro hne d hd
    refine ⟨fun hwait => ?_, fun hq => ?_⟩
    · rcases runs_gather Frame.queryCount (fun _ _ => rfl) (fun _ => rfl) hbody
        (Nat.zero_add _) hne hd with ⟨hout, -⟩ | ⟨v, c, hc, hk⟩
      · rw [hout, reports_append, reports_emitted]
        rfl
      · have hquiet : ((report (!v.isError)).exec c).Quiet := hc
        obtain rfl := runs_of_quiet hquiet hk
        exact absurd hquiet hwait
    · obtain ⟨l, hout, hy⟩ := yields_of_settles (c := ⟨w, [], [], [.startActivityAnimating]⟩) rfl ⟨hd, hq⟩
      cases hu : w.1.currentUser with
      | some uid =>
        obtain ⟨answers, w₂, hperm, hserve, hk⟩ := (yields_record hu hne hbody).mp hy
        obtain ⟨he, rfl⟩ := yields_report.mp hk
        refine ⟨succeeded answers, by rw [hout]; rfl, ?_⟩
        rw [he]
        refine succeeded_iff ?_ (journal_servesAll (fun a ha => ?_) hserve)
        · have hmap := (hperm.map Sigma.fst).symm
          rwa [List.map_map] at hmap
        · obtain ⟨x, -, hx⟩ := List.mem_filterMap.mp (hperm.subset (List.mem_map_of_mem ha))
          exact hf uid x a.1 hx
      | none =>
        obtain ⟨frame, l', rfl, hk⟩ := yields_record_signedOut hu hne hbody hy
        obtain ⟨he, rfl⟩ := yields_report.mp hk
        refine ⟨xs.all fun a => !(write? "" a).isSome, ?_, ?_⟩
        · have hredirects : reports (List.replicate
              (xs.countP fun a => (write? "" a).isSome) Effect.redirectToAuth) = [] := by
            simp [reports]
          rw [hout, reports_append, reports_append, hredirects]
          rfl
        · rw [he]
          have hnil : (xs.all fun a => !(write? "" a).isSome) = true ↔ xs.filterMap (write? "") = [] := by
            simp
          rw [hnil]
          constructor
          · intro hempty
            exact ⟨[], by simp, by simp [hempty]⟩
          · rintro ⟨t, ht, hperm⟩
            obtain rfl : t = [] := by simpa using ht
            simpa using hperm

end Record

/-- A loop calls its handler exactly once, after all its writes and told whether all of them
succeeded, whatever they are answered and in whatever order, exactly when it has something
to count. -/
theorem fanOut_joined_iff (f : FanOut) (vc : DonateConfirmation) (w : World) :
    (∀ d : Loop, Runs Answers ((f.run vc report).exec (.fresh _ w)) d → Joined (f.writes vc w.1) w d) ↔
      ¬ f.Empty vc := by
  cases f with
  | sendToUpdateDonates =>
    exact joined_iff (contributes_updateDonate w.1) fun uid item b hb => faithful_write? hb
  | addOneTimePaymentToFirebase =>
    exact joined_iff (contributes_addOneTimeDonate w.1 w.1.now) fun uid p b hb => by
      cases hb
      exact faithful_paymentWrite uid w.1.now p

/-- With no items the handler is never called: the user waits behind the spinner. -/
theorem not_fanOut_joined :
    ¬ ∀ (f : FanOut) (vc : DonateConfirmation) (w : World), 0 ≤ vc.tipsAmount →
      ∀ d : Loop, Runs Answers ((f.run vc report).exec (.fresh _ w)) d → Joined (f.writes vc w.1) w d := by
  intro hall
  obtain ⟨success, hs, -⟩ := (hall .sendToUpdateDonates ⟨10, 0, [], false⟩ donorWorld (by decide)
    _ .refl).joined rfl
  simp [FanOut.run, reports, Config.fresh] at hs

end DonateConfirmation

end Pledge
