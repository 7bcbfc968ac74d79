import Pledge.FirestoreManager

/-!
# DonateConfirmationViewController

The checkout: charging, recording the pledges or the one-time payments, and reporting.
-/

namespace Pledge

open EventLoop

namespace DonateConfirmation

/-- The private `addTips`. -/
def addTips (vc : DonateConfirmation) (completion : Prog) : Prog :=
  if 0 < vc.tipsAmount then FirestoreManager.addTips vc.tipsAmount fun _ => completion
  else completion

/-- The closure at the head of `sendToUpdateDonatesHandler`. -/
def completionBlock (vc : DonateConfirmation) (success : Bool) : Prog :=
  .emit .stopActivityAnimating <|
    if !success then .emit .networkErrorAlert .stop
    else
      .modify (fun d => d.setUserManager
        { d.userManager with completeDonation := none, tmpDonateAmount := none }) <|
        .emit (.showDonateResult vc.donateAmount vc.tipsAmount vc.isOneTimeMode) .stop

def sendToUpdateDonatesHandler (vc : DonateConfirmation) (success : Bool) : Prog :=
  .read fun d =>
    if !vc.isOneTimeMode && vc.donateAmount != d.userManager.defaultDonateAmount then
      FirestoreManager.updateDefaultDonateAmount vc.donateAmount fun _ => vc.completionBlock success
    else vc.completionBlock success

/-- `queryCount += 1; if !success { isError = true }`. -/
def count (frame : Frame) (success : Bool) : Frame :=
  { frame with queryCount := frame.queryCount + 1, isError := frame.isError || !success }

/-- The completion shared by all requests of a recording, over captured frame `x`. -/
def counted (vc : DonateConfirmation) (maxQueryCount x : ℕ) : Bool → Prog :=
  .join x count (fun frame => frame.queryCount == maxQueryCount)
    fun frame => vc.sendToUpdateDonatesHandler (!frame.isError)

/-- The body of the loop in `sendToUpdateDonates`. -/
def updateDonate (item : OrganisationWithAmount) (completion : Bool → Prog) : Prog :=
  match item.donateId with
  | some donateId =>
    if 0 < item.amount then
      FirestoreManager.editDonate donateId { amount := some item.amount } completion
    else FirestoreManager.deleteDonate donateId completion
  | none =>
    if 0 < item.amount then
      FirestoreManager.addDonate item.organisation.id item.amount completion
    else completion true

def sendToUpdateDonates (vc : DonateConfirmation) : Prog :=
  .emit .startActivityAnimating <|
    .alloc {} fun x => .forEach vc.donateItems fun item =>
      updateDonate item (vc.counted vc.donateItems.length x)

def addOneTimePaymentToFirebase (vc : DonateConfirmation) : Prog :=
  .emit .startActivityAnimating <| .read fun d =>
    .alloc {} fun x =>
      let maxQueryCount := vc.donateItems.length + if 0 < vc.tipsAmount then 1 else 0
      let completion := vc.counted maxQueryCount x
      Program.andThen
        (if 0 < vc.tipsAmount then
          FirestoreManager.addOneTimeDonate "tips" vc.tipsAmount d.now completion
        else .stop)
        (.forEach vc.donateItems fun item =>
          FirestoreManager.addOneTimeDonate item.organisation.id item.amount d.now completion)

def completeCheckoutButtonPressed (vc : DonateConfirmation) : Prog :=
  .read fun d =>
    if vc.donateAmount + vc.tipsAmount ≠ d.userManager.userDonateAndTips then
      .ask (.pay vc.payAmount vc.isOneTimeMode) fun result =>
        match result with
        | .success _ =>
          if vc.isOneTimeMode then vc.addOneTimePaymentToFirebase
          else vc.addTips vc.sendToUpdateDonates
        | .failure => .stop
    else vc.sendToUpdateDonates

/-! ## The writes of a recording -/

/-- The write for one row of a monthly bucket, and how its outcome is reported. -/
def write? (uid : String) (item : OrganisationWithAmount) : Option (Branch Bool Request.Response) :=
  match item.donateId with
  | some donateId =>
    if 0 < item.amount then
      some ⟨.setDonate uid donateId { amount := some item.amount }, Option.isNone⟩
    else some ⟨.deleteDonate uid donateId, Option.isNone⟩
  | none =>
    if 0 < item.amount then
      some ⟨.addDonate uid { amount := some item.amount, organisation := some item.organisation.id },
        Option.isNone⟩
    else none

/-- The payments of a one-time checkout: the tip first. -/
def payments (vc : DonateConfirmation) : List (String × Int) :=
  (if 0 < vc.tipsAmount then [("tips", vc.tipsAmount)] else []) ++
    vc.donateItems.map fun item => (item.organisation.id, item.amount)

def paymentWrite (uid : String) (now : ℕ) (p : String × Int) : Branch Bool Request.Response :=
  ⟨.addPayment uid { amount := some p.2, organisation := some p.1, date := some now }, Option.isNone⟩

/-- Without a signed-in user every request is replaced by a redirect and a failure. -/
def turnOf (currentUser : Option String) (write? : String → Option (Branch Bool Request.Response)) :
    Turn Bool Effect Request.Response :=
  match currentUser with
  | some uid => ((write? uid).map Turn.later).getD (.now [] true)
  | none => if (write? "").isSome then .now [.redirectToAuth] false else .now [] true

/-! ## What a recording does -/

section Yields

variable {serve : World → (r : Request) → r.Response → World → Prop} {vc : DonateConfirmation}
  {w w' : World} {h : List Frame} {l : List Effect} {max : ℕ} {k : Frame → Prog}

theorem contributes_updateDonate (d : Device) :
    Contributes Server (fun x item => updateDonate item
        (Program.join x count (fun frame => frame.queryCount == max) k))
      (fun item => turnOf d.currentUser fun uid => write? uid item)
      count (fun frame => frame.queryCount == max) k d := by
  rintro x item c rfl
  obtain ⟨amount, organisation, donateId⟩ := item
  cases hu : c.state.1.currentUser <;> cases donateId <;> by_cases ha : 0 < amount <;>
    simp [updateDonate, write?, turnOf, ha, hu, FirestoreManager.editDonate,
      FirestoreManager.deleteDonate, FirestoreManager.addDonate, FirestoreManager.withUid,
      Branch.call]

theorem contributes_addOneTimeDonate (d : Device) (now : ℕ) :
    Contributes Server (fun x (p : String × Int) => FirestoreManager.addOneTimeDonate p.1 p.2 now
        (Program.join x count (fun frame => frame.queryCount == max) k))
      (fun p => turnOf d.currentUser fun uid => some (paymentWrite uid now p))
      count (fun frame => frame.queryCount == max) k d := by
  rintro x p c rfl
  cases hu : c.state.1.currentUser <;>
    simp [turnOf, hu, FirestoreManager.addOneTimeDonate, FirestoreManager.withUid, paymentWrite,
      Branch.call]

/-- The two loops of `addOneTimePaymentToFirebase` are one loop over all payments. -/
theorem addOneTimePaymentToFirebase_eq (vc : DonateConfirmation) :
    vc.addOneTimePaymentToFirebase =
      .emit .startActivityAnimating (.read fun d => .alloc {} fun x =>
        .forEach vc.payments fun p => FirestoreManager.addOneTimeDonate p.1 p.2 d.now
          (vc.counted vc.payments.length x)) := by
  unfold addOneTimePaymentToFirebase payments
  by_cases ht : 0 < vc.tipsAmount
  · simp [ht, Program.forEach, List.foldr_map]
  · simp [ht, Program.forEach, List.foldr_map, Program.andThen]

/-- Whether every answer of a join reported success. -/
def succeeded (answers : List (Answered Bool Request.Response)) : Bool :=
  answers.all Answered.value

theorem isError_foldl_count (l : List Bool) (frame : Frame) :
    (l.foldl count frame).isError = (frame.isError || !l.all id) := by
  induction l generalizing frame with
  | nil => simp
  | cons b l ih => simp [ih, count, Bool.or_assoc]

theorem isError_collectAll (answers : List (Answered Bool Request.Response)) (frame : Frame) :
    (collectAll count frame answers).isError = (frame.isError || !succeeded answers) := by
  rw [collectAll, isError_foldl_count, succeeded, List.all_map]
  rfl

section Signed

variable {uid : String} {α : Type} {write? : String → α → Option (Branch Bool Request.Response)}

theorem branch?_turnOf (a : α) :
    (turnOf (some uid) fun uid => write? uid a).branch? = write? uid a := by
  cases h : write? uid a <;> simp [turnOf, h, Turn.branch?]

theorem emitted_turnOf (a : α) : (turnOf (some uid) fun uid => write? uid a).emitted = [] := by
  cases h : write? uid a <;> simp [turnOf, h, Turn.emitted]

theorem value?_turnOf {a : α} {b : Bool}
    (hb : (turnOf (some uid) fun uid => write? uid a).value? = some b) : b = true := by
  cases h : write? uid a <;> simp_all [turnOf, Turn.value?]

end Signed

/-- The frame a recording ends with. -/
def lastFrame {α : Type} (currentUser : Option String)
    (write? : String → α → Option (Branch Bool Request.Response)) (xs : List α)
    (answers : List (Answered Bool Request.Response)) : Frame :=
  collectAll count
    ((xs.filterMap fun a => (turnOf currentUser fun uid => write? uid a).value?).foldl count {}) answers

/-- A recording with a signed-in user: its writes are answered in some order, once each,
and the handler runs once, told whether all of them succeeded. -/
theorem yields_record {α : Type} {uid : String} {xs : List α}
    {write? : String → α → Option (Branch Bool Request.Response)} {body : ℕ → α → Prog}
    {k : Bool → Prog} (hu : w.1.currentUser = some uid) (hne : xs ≠ [])
    (hbody : Contributes Server body (fun a => turnOf w.1.currentUser fun uid => write? uid a)
      count (fun frame => frame.queryCount == xs.length) (fun frame => k (!frame.isError)) w.1) :
    (Program.alloc {} fun x => .forEach xs (body x)).Yields serve w h w' l ↔
      ∃ (answers : List (Answered Bool Request.Response)) (w₂ : World),
        (answers.map Sigma.fst).Perm (xs.filterMap (write? uid)) ∧ ServesAll serve w answers w₂ ∧
        (k (succeeded answers)).Yields serve w₂
          (h ++ [lastFrame w.1.currentUser write? xs answers]) w' l := by
  rw [yields_gather Frame.queryCount (fun _ _ => rfl) (fun _ => rfl) hbody (by simp) hne]
  have herror : ((xs.filterMap fun a =>
      (turnOf w.1.currentUser fun uid => write? uid a).value?).foldl count {}).isError = false := by
    rw [isError_foldl_count, Bool.false_or, Bool.not_eq_false', List.all_eq_true]
    intro b hb
    obtain ⟨a, -, ha⟩ := List.mem_filterMap.mp hb
    rw [hu] at ha
    exact value?_turnOf ha
  have hempty : (xs.flatMap fun a => (turnOf w.1.currentUser fun uid => write? uid a).emitted) = [] := by
    simp [hu, emitted_turnOf]
  have hbranch : (xs.filterMap fun a => (turnOf w.1.currentUser fun uid => write? uid a).branch?) =
      xs.filterMap (write? uid) := by
    simp [hu, branch?_turnOf]
  rw [hempty, hbranch]
  constructor
  · rintro ⟨answers, w₂, v', l', hperm, hserve, rfl, rfl, hk⟩
    rw [isError_collectAll, herror, Bool.false_or, Bool.not_not] at hk
    exact ⟨answers, w₂, hperm, hserve, hk⟩
  · rintro ⟨answers, w₂, hperm, hserve, hk⟩
    refine ⟨answers, w₂, _, l, hperm, hserve, rfl, rfl, ?_⟩
    rwa [isError_collectAll, herror, Bool.false_or, Bool.not_not]

section SignedOut

variable {α : Type} {write? : String → α → Option (Branch Bool Request.Response)}

theorem branch?_turnOf_none (a : α) : (turnOf none fun uid => write? uid a).branch? = none := by
  by_cases h : (write? "" a).isSome <;> simp [turnOf, h, Turn.branch?]

theorem value?_turnOf_none (a : α) :
    (turnOf none fun uid => write? uid a).value? = some (!(write? "" a).isSome) := by
  by_cases h : (write? "" a).isSome <;> simp [turnOf, h, Turn.value?]

theorem flatMap_emitted_turnOf_none (xs : List α) :
    (xs.flatMap fun a => (turnOf none fun uid => write? uid a).emitted) =
      List.replicate (xs.countP fun a => (write? "" a).isSome) Effect.redirectToAuth := by
  induction xs with
  | nil => rfl
  | cons a xs ih =>
    by_cases h : (write? "" a).isSome <;>
      simp [turnOf, h, Turn.emitted, List.replicate_succ] at ih ⊢ <;> exact ih

end SignedOut

/-- Without a signed-in user a recording sends nothing: each write is a redirect and a
failure. -/
theorem yields_record_signedOut {α : Type} {xs : List α}
    {write? : String → α → Option (Branch Bool Request.Response)} {body : ℕ → α → Prog}
    {k : Bool → Prog} (hu : w.1.currentUser = none) (hne : xs ≠ [])
    (hbody : Contributes Server body (fun a => turnOf w.1.currentUser fun uid => write? uid a)
      count (fun frame => frame.queryCount == xs.length) (fun frame => k (!frame.isError)) w.1)
    (hy : (Program.alloc {} fun x => .forEach xs (body x)).Yields serve w h w' l) :
    ∃ frame l', l = List.replicate (xs.countP fun a => (write? "" a).isSome)
        Effect.redirectToAuth ++ l' ∧
      (k (xs.all fun a => !(write? "" a).isSome)).Yields serve w (h ++ [frame]) w' l' := by
  rw [yields_gather Frame.queryCount (fun _ _ => rfl) (fun _ => rfl) hbody (by simp) hne] at hy
  obtain ⟨answers, w₂, v', l', hperm, hserve, rfl, rfl, hk⟩ := hy
  simp only [hu, branch?_turnOf_none, List.filterMap_none, List.perm_nil, List.map_eq_nil_iff]
    at hperm
  subst hperm
  cases hserve
  have hsuccess : (!(lastFrame w.1.currentUser write? xs []).isError) =
      xs.all fun a => !(write? "" a).isSome := by
    rw [lastFrame, isError_collectAll, isError_foldl_count, hu]
    simp [value?_turnOf_none, succeeded, List.all_map]
  rw [← hsuccess]
  exact ⟨_, l', by rw [hu, flatMap_emitted_turnOf_none], hk⟩

theorem yields_sendToUpdateDonates {uid : String} (hu : w.1.currentUser = some uid)
    (hne : vc.donateItems ≠ []) :
    vc.sendToUpdateDonates.Yields serve w h w' l ↔
      ∃ (answers : List (Answered Bool Request.Response)) (w₂ : World) (l' : List Effect),
        (answers.map Sigma.fst).Perm (vc.donateItems.filterMap (write? uid)) ∧
        ServesAll serve w answers w₂ ∧ l = .startActivityAnimating :: l' ∧
        (vc.sendToUpdateDonatesHandler (succeeded answers)).Yields serve w₂
          (h ++ [lastFrame w.1.currentUser write? vc.donateItems answers]) w' l' := by
  constructor
  · intro hy
    obtain ⟨l', rfl, hloop⟩ := yields_emit.mp hy
    obtain ⟨answers, w₂, hperm, hserve, hk⟩ :=
      (yields_record hu hne (contributes_updateDonate w.1)).mp hloop
    exact ⟨answers, w₂, l', hperm, hserve, rfl, hk⟩
  · rintro ⟨answers, w₂, l', hperm, hserve, rfl, hk⟩
    exact yields_emit.mpr ⟨l', rfl, (yields_record hu hne (contributes_updateDonate w.1)).mpr
      ⟨answers, w₂, hperm, hserve, hk⟩⟩

theorem yields_addOneTimePaymentToFirebase {uid : String} (hu : w.1.currentUser = some uid)
    (hne : vc.payments ≠ []) :
    vc.addOneTimePaymentToFirebase.Yields serve w h w' l ↔
      ∃ (answers : List (Answered Bool Request.Response)) (w₂ : World) (l' : List Effect),
        (answers.map Sigma.fst).Perm (vc.payments.map (paymentWrite uid w.1.now)) ∧
        ServesAll serve w answers w₂ ∧ l = .startActivityAnimating :: l' ∧
        (vc.sendToUpdateDonatesHandler (succeeded answers)).Yields serve w₂
          (h ++ [lastFrame w.1.currentUser (fun uid p => some (paymentWrite uid w.1.now p))
            vc.payments answers]) w' l' := by
  have hwrites : vc.payments.filterMap (fun p => some (paymentWrite uid w.1.now p)) =
      vc.payments.map (paymentWrite uid w.1.now) := by
    simp
  rw [addOneTimePaymentToFirebase_eq, ← hwrites]
  constructor
  · intro hy
    obtain ⟨l', rfl, hloop⟩ := yields_emit.mp hy
    obtain ⟨answers, w₂, hperm, hserve, hk⟩ :=
      (yields_record hu hne (contributes_addOneTimeDonate w.1 w.1.now)).mp (yields_read.mp hloop)
    exact ⟨answers, w₂, l', hperm, hserve, rfl, hk⟩
  · rintro ⟨answers, w₂, l', hperm, hserve, rfl, hk⟩
    exact yields_emit.mpr ⟨l', rfl, yields_read.mpr
      ((yields_record hu hne (contributes_addOneTimeDonate w.1 w.1.now)).mpr
        ⟨answers, w₂, hperm, hserve, hk⟩)⟩

/-- A loop over nothing never reaches its handler. -/
theorem yields_record_nil {α : Type} {body : ℕ → α → Prog} :
    (Program.alloc {} fun x => .forEach [] (body x)).Yields serve w h w' l ↔ w' = w ∧ l = [] := by
  constructor
  · rintro ⟨h', hs⟩
    cases (settles_of_quiet (c := ⟨w, h ++ [({} : Frame)], [], []⟩) rfl).mp hs
    exact ⟨rfl, rfl⟩
  · rintro ⟨rfl, rfl⟩
    exact ⟨h ++ [({} : Frame)], .refl, rfl⟩

/-- How a recording ends: with nothing to record, without a user, or with its writes answered in some
order, once each. -/
inductive Recording {α : Type} (serve : World → (r : Request) → r.Response → World → Prop) (xs : List α)
    (write? : String → α → Option (Branch Bool Request.Response)) (k : Bool → Prog) (w : World)
    (h : List Frame) (w' : World) : List Effect → Prop
  | nothing (hnil : xs = []) (hw : w' = w) : Recording serve xs write? k w h w' []
  | signedOut {frame : Frame} {l : List Effect} (hu : w.1.currentUser = none) (hne : xs ≠ [])
      (hk : (k (xs.all fun a => !(write? "" a).isSome)).Yields serve w (h ++ [frame]) w' l) :
      Recording serve xs write? k w h w'
        (List.replicate (xs.countP fun a => (write? "" a).isSome) Effect.redirectToAuth ++ l)
  | answered {uid : String} {answers : List (Answered Bool Request.Response)} {w₂ : World} {frame : Frame}
      {l : List Effect} (hu : w.1.currentUser = some uid) (hne : xs ≠ [])
      (hperm : (answers.map Sigma.fst).Perm (xs.filterMap (write? uid)))
      (hserve : ServesAll serve w answers w₂)
      (hk : (k (succeeded answers)).Yields serve w₂ (h ++ [frame]) w' l) :
      Recording serve xs write? k w h w' l

theorem record_cases {α : Type} {xs : List α} {write? : String → α → Option (Branch Bool Request.Response)}
    {body : ℕ → α → Prog} {k : Bool → Prog}
    (hbody : Contributes Server body (fun a => turnOf w.1.currentUser fun uid => write? uid a)
      count (fun frame => frame.queryCount == xs.length) (fun frame => k (!frame.isError)) w.1)
    (hy : (Program.alloc {} fun x => .forEach xs (body x)).Yields serve w h w' l) :
    Recording serve xs write? k w h w' l := by
  by_cases hne : xs = []
  · subst hne
    obtain ⟨rfl, rfl⟩ := yields_record_nil.mp hy
    exact .nothing rfl rfl
  · cases hu : w.1.currentUser with
    | none =>
      obtain ⟨frame, l', rfl, hk⟩ := yields_record_signedOut hu hne hbody hy
      exact .signedOut hu hne hk
    | some uid =>
      obtain ⟨answers, w₂, hperm, hserve, hk⟩ := (yields_record hu hne hbody).mp hy
      exact .answered hu hne hperm hserve hk

theorem sendToUpdateDonates_cases (hy : vc.sendToUpdateDonates.Yields serve w h w' l) :
    ∃ l', l = .startActivityAnimating :: l' ∧
      Recording serve vc.donateItems write? vc.sendToUpdateDonatesHandler w h w' l' := by
  obtain ⟨l', rfl, hloop⟩ := yields_emit.mp hy
  exact ⟨l', rfl, record_cases (contributes_updateDonate w.1) hloop⟩

theorem addOneTimePaymentToFirebase_cases (hy : vc.addOneTimePaymentToFirebase.Yields serve w h w' l) :
    ∃ l', l = .startActivityAnimating :: l' ∧
      Recording serve vc.payments (fun uid p => some (paymentWrite uid w.1.now p))
        vc.sendToUpdateDonatesHandler w h w' l' := by
  rw [addOneTimePaymentToFirebase_eq] at hy
  obtain ⟨l', rfl, hloop⟩ := yields_emit.mp hy
  exact ⟨l', rfl, record_cases (contributes_addOneTimeDonate w.1 w.1.now) (yields_read.mp hloop)⟩

end Yields

end DonateConfirmation

end Pledge
