import Pledge.PledgeWrites
import Pledge.RowOrigins

/-!
# Checkouts in flight

A checkout asks for its charge and for the write of its tips before it records its rows, and no
activity view covers it while it waits for either. When a recording begins, and what of it is in
flight from then on.
-/

namespace Pledge

open EventLoop

namespace DonateConfirmation

/-- The completion of the charge. -/
def paid (vc : DonateConfirmation) (result : PaymentResult) : Prog :=
  match result with
  | .success _ =>
    if vc.isOneTimeMode then vc.addOneTimePaymentToFirebase else vc.addTips vc.sendToUpdateDonates
  | .failure => .stop

/-- The completion of the write of the tips. -/
def tipped (vc : DonateConfirmation) (error : Option String) : Prog :=
  if error.isNone then
    .modify (·.updateUser fun user => { user with tips := some vc.tipsAmount }) vc.sendToUpdateDonates
  else vc.sendToUpdateDonates

/-- The organisations that a recording adds pledges of `uid` for. -/
def adds (vc : DonateConfirmation) (uid : String) (currentUser : Option String) : List String :=
  (vc.donateItems.filterMap fun item => (turnOf currentUser fun v => write? v item).branch?).filterMap
    fun b => b.1.addedFor uid

variable {vc : DonateConfirmation} {uid v : String}

theorem addedFor_eq_none {r : Request} (hr : ¬ r.Pledges) : r.addedFor uid = none := by
  cases r <;> first | rfl | exact absurd trivial hr

theorem branch?_turnOf_precedes {currentUser : Option String} {item : OrganisationWithAmount}
    {b : Branch Bool Request.Response} (hb : (turnOf currentUser fun v => write? v item).branch? = some b) :
    ¬ b.1.Precedes := by
  cases currentUser with
  | none => rw [branch?_turnOf_none] at hb; cases hb
  | some v =>
    rw [branch?_turnOf] at hb
    obtain ⟨amount, organisation, donateId⟩ := item
    cases donateId <;> by_cases ha : 0 < amount <;> simp [write?, ha] at hb <;> subst hb <;> exact id

theorem adds_signedIn : vc.adds uid (some v) =
    (vc.donateItems.filterMap (write? v)).filterMap fun b => b.1.addedFor uid := by
  simp [adds, branch?_turnOf]

theorem adds_signedOut : vc.adds uid none = [] := by
  simp [adds, branch?_turnOf_none]

/-! ## Turns -/

theorem exec_press (c : Loop) : vc.completeCheckoutButtonPressed.exec c =
    if vc.Skips c.state.1 then vc.sendToUpdateDonates.exec c
    else { c with pending := c.pending ++ [⟨.pay vc.payAmount vc.isOneTimeMode, vc.paid⟩] } := by
  rw [completeCheckoutButtonPressed, Program.exec_read]
  by_cases h : vc.Skips c.state.1
  · have htotal : vc.donateAmount + vc.tipsAmount = c.state.1.userManager.userDonateAndTips := h
    rw [if_pos h, if_neg (not_not_intro htotal)]
  · have htotal : vc.donateAmount + vc.tipsAmount ≠ c.state.1.userManager.userDonateAndTips := h
    have hpaid : ∀ callback : PaymentResult → Prog, callback = vc.paid →
        (Program.ask (.pay vc.payAmount vc.isOneTimeMode) callback : Prog).exec c =
          { c with pending := c.pending ++ [⟨.pay vc.payAmount vc.isOneTimeMode, vc.paid⟩] } := by
      rintro _ rfl
      rfl
    rw [if_neg h, if_pos htotal]
    refine hpaid _ (funext fun result => ?_)
    cases result <;> rfl

/-- A monthly charge that went through is followed by the tips, or by the recording. -/
theorem exec_paid (hm : vc.isOneTimeMode = false) (token : String) (c : Loop) :
    (vc.paid (.success token)).exec c =
      if 0 < vc.tipsAmount then
        match c.state.1.currentUser with
        | some uid => { c with
            pending := c.pending ++ [⟨.updateUser uid { tipsAmount := some vc.tipsAmount }, vc.tipped⟩] }
        | none => vc.sendToUpdateDonates.exec { c with out := c.out ++ [.redirectToAuth] }
      else vc.sendToUpdateDonates.exec c := by
  simp only [paid, hm, Bool.false_eq_true, if_false, addTips]
  split
  · rw [FirestoreManager.addTips, FirestoreManager.withUid, Program.exec_read]
    cases c.state.1.currentUser with
    | none => rfl
    | some uid => rfl
  · rfl

theorem exec_tipped (error : Option String) (c : Loop) : ∃ d : Device,
    d.currentUser = c.state.1.currentUser ∧
      (vc.tipped error).exec c = vc.sendToUpdateDonates.exec { c with state := (d, c.state.2) } := by
  unfold tipped
  split
  · exact ⟨c.state.1.updateUser fun user => { user with tips := some vc.tipsAmount }, rfl, rfl⟩
  · exact ⟨c.state.1, rfl, rfl⟩

/-- A recording issues its writes, and what follows them if there are none. -/
theorem pending_sendToUpdateDonates (c : Loop) : ∃ calls,
    (vc.sendToUpdateDonates.exec c).pending = c.pending ++
      ((vc.donateItems.filterMap fun item =>
        (turnOf c.state.1.currentUser fun v => write? v item).branch?).map
          (Branch.call (vc.counted vc.donateItems.length c.heap.length)) ++ calls) ∧
      ∀ call ∈ calls, Call.Within ending call := by
  have hgather := exec_gather (x := c.heap.length) (v := ({} : Frame)) (n := vc.donateItems.length) (m := 0)
    (c := { c with out := c.out ++ [.startActivityAnimating], heap := c.heap ++ [{}] })
    (k := fun frame => vc.sendToUpdateDonatesHandler (!frame.isError)) Frame.queryCount
    (fun _ _ => rfl) (fun _ => rfl) (contributes_updateDonate c.state.1) rfl (by simp)
    (by simp : 0 + 0 + vc.donateItems.length = vc.donateItems.length)
  have hexec : vc.sendToUpdateDonates.exec c = _ := hgather
  rw [hexec]
  obtain ⟨calls, hcalls, hwithin⟩ := within_issued
    (F := ending) (p := if 0 = 0 ∧ (vc.donateItems.filterMap fun item =>
        (turnOf c.state.1.currentUser fun v => write? v item).branch?) = [] ∧ vc.donateItems ≠ [] then
      vc.sendToUpdateDonatesHandler (!((vc.donateItems.filterMap fun item =>
        (turnOf c.state.1.currentUser fun v => write? v item).value?).foldl count ({} : Frame)).isError)
      else .stop) (by split <;> first | exact ending_handler _ | exact trivial) _
  refine ⟨calls, hcalls.trans ?_, hwithin⟩
  rw [List.append_assoc]
  rfl

/-- Only the writes of a recording are about pledges. -/
theorem adding_sendToUpdateDonates (c : Loop) (hc : c.Quiet) :
    (vc.sendToUpdateDonates.exec c).pending.filterMap (fun call => call.1.addedFor uid) =
      vc.adds uid c.state.1.currentUser := by
  obtain ⟨calls, hcalls, hending⟩ := @pending_sendToUpdateDonates vc c
  have hnil : c.pending = [] := hc
  have hnone : calls.filterMap (fun call => call.1.addedFor uid) = [] := by
    refine List.filterMap_eq_nil_iff.mpr fun call hmem => ?_
    exact addedFor_eq_none (hending call hmem).1.1
  rw [hcalls, hnil, List.nil_append, List.filterMap_append, hnone, List.append_nil, List.filterMap_map]
  rfl

/-- The writes of a recording, and what follows them. -/
theorem ending_sendToUpdateDonates (c : Loop) (hc : c.Quiet) :
    ∀ call ∈ (vc.sendToUpdateDonates.exec c).pending,
      ¬ call.1.Precedes ∧ ∀ a, (call.2 a).Within ending := by
  obtain ⟨calls, hcalls, hending⟩ := @pending_sendToUpdateDonates vc c
  have hnil : c.pending = [] := hc
  rw [hcalls, hnil, List.nil_append]
  intro call hmem
  rcases List.mem_append.mp hmem with hmem | hmem
  · obtain ⟨b, hb, rfl⟩ := List.mem_map.mp hmem
    obtain ⟨item, -, hitem⟩ := List.mem_filterMap.mp hb
    exact ⟨branch?_turnOf_precedes hitem, fun a => ending_counted _⟩
  · exact ⟨(hending call hmem).1.2, (hending call hmem).2⟩

end DonateConfirmation

/-! ## What is in flight -/

/-- The organisations for which pledges of `uid` are being added. -/
def Taken.adding (uid : String) (x : Taken) : List String :=
  x.pending.filterMap fun call => call.1.addedFor uid

def Busy.adding (uid : String) (s : Busy) : List String := s.taken.flatMap fun x => x.adding uid

/-- What a touch still waits for: a checkout for its charge, for the write of its tips, or for what it
records; the others for nothing about pledges. -/
inductive Taken.Stage (x : Taken) : Prop
  | pays {c : DonateConfirmation} (hc : x.confirmation? = some c) (ho : x.out = [])
      (hp : x.pending = [⟨.pay c.payAmount c.isOneTimeMode, c.paid⟩]) : Stage x
  | tips {c : DonateConfirmation} {uid : String} (hc : x.confirmation? = some c)
      (hm : c.isOneTimeMode = false) (ho : x.out = [])
      (hp : x.pending = [⟨.updateUser uid { tipsAmount := some c.tipsAmount }, c.tipped⟩]) : Stage x
  | records {c : DonateConfirmation} (hc : x.confirmation? = some c)
      (h : ∀ call ∈ x.pending, ¬ call.1.Precedes ∧ ∀ a, (call.2 a).Within ending) : Stage x
  | spares (hc : x.confirmation? = none) (h : ∀ call ∈ x.pending, Call.Within sparing call) : Stage x

/-- An answer after which the rows are recorded: that of the charge of a monthly checkout which has no
tips to write, or nobody to write them for; and any answer to that write. -/
inductive DonateConfirmation.Starts (c : DonateConfirmation) (w : World) : (r : Request) → r.Response → Prop
  | paid {token : String} (hm : c.isOneTimeMode = false)
      (ht : ¬ 0 < c.tipsAmount ∨ w.1.currentUser = none) :
      Starts c w (.pay c.payAmount c.isOneTimeMode) (.success token)
  | tipped {uid : String} {error : Option String} :
      Starts c w (.updateUser uid { tipsAmount := some c.tipsAmount }) error

theorem exists_page {x : Taken} {c : DonateConfirmation} (h : x.confirmation? = some c) :
    ∃ below bucket, x.app.page = .bucket below ⟨bucket, .confirmation c⟩ := by
  unfold Taken.confirmation? at h
  split at h
  · rename_i below bucket c' htouch hp
    obtain rfl := Option.some.inj h
    exact ⟨_, _, hp⟩
  · cases h

/-- The move with which the touch with number `j` begins to record the rows of `c`. -/
inductive Busy.Begins (s : Busy) : Busy.Move → ℕ → DonateConfirmation → Prop
  | touch {below : Page} {bucket : MyBucket} {c : DonateConfirmation}
      (hp : s.app.page = .bucket below ⟨bucket, .confirmation c⟩) (hs : c.Skips s.app.world.1) :
      Begins s (.touch .completeCheckoutButtonPressed) s.taken.length c
  | answer {j : ℕ} {x : Taken} {c : DonateConfirmation} {r : Request} {a : r.Response}
      (hx : s.taken[j]? = some x) (hc : x.confirmation? = some c) (hs : c.Starts s.app.world r a) :
      Begins s (.answer j r a) j c

/-- The rows of a recording are those of the bucket it was given. -/
theorem Busy.Lists.begins {users : String → Prop} {Read : List DonateItem → Prop}
    {R : List OrganisationWithAmount → Prop} {s : Busy} {m : Busy.Move} {j : ℕ} {c : DonateConfirmation}
    (h : s.Lists users Read R) (hb : s.Begins m j c) : ∃ (bucket : MyBucket) (tips : Int),
      c = bucket.showDonateConfirmation tips ∧ R bucket.tableData ∧ R (bucket.donates.map MyBucket.ofDonate) := by
  have hpage : ∀ {a : App} {below : Page} {bucket : MyBucket}, Everywhere users R a →
      a.page = .bucket below ⟨bucket, .confirmation c⟩ → ∃ (bucket : MyBucket) (tips : Int),
        c = bucket.showDonateConfirmation tips ∧ R bucket.tableData ∧
          R (bucket.donates.map MyBucket.ofDonate) := by
    intro a below bucket ha hp
    have hscreen := ha.screen below _ hp
    obtain ⟨tips, hc⟩ := hscreen.pushed c rfl
    exact ⟨bucket, tips, hc, hscreen.rows, hscreen.donates⟩
  cases hb with
  | touch hp => exact hpage h.app hp
  | answer hx hc =>
    obtain ⟨below, bucket, hp⟩ := exists_page hc
    exact hpage (h.origin _ (List.mem_of_getElem? hx)) hp

/-- `d` is the turn from `w` in which the recording of `c` begins. -/
def DonateConfirmation.Begun (c : DonateConfirmation) (w : World) (d : Loop) : Prop :=
  ∃ (w₀ : World) (h : List Frame) (o : List Effect), c.sendToUpdateDonates.exec ⟨w₀, h, [], o⟩ = d ∧
    w₀.1.currentUser = w.1.currentUser ∧ SamePledges w w₀ ∧ ∀ e ∈ o, ¬ e.ShowsResult

section Turns

variable {x : Taken} {c : DonateConfirmation} {w w₁ : World} {r : Request} {callback : r.Response → Prog}
  {response : r.Response} {pre post : List (Call Device Frame Effect Request.Response)} {d : Loop}
  {uid : String} {Kept : Server → Server → Prop}

theorem samePledges_exec (p : Prog) (c : Loop) : SamePledges c.state (p.exec c).state := by
  intro u
  rw [exec_env]
  exact ⟨rfl, rfl⟩

theorem DonateConfirmation.Begun.samePledges (h : c.Begun w d) : SamePledges w d.state := by
  obtain ⟨w₀, h₀, o, rfl, -, hsame, -⟩ := h
  exact hsame.trans (samePledges_exec _ _)

theorem DonateConfirmation.Begun.adding (h : c.Begun w d) :
    d.pending.filterMap (fun call => call.1.addedFor uid) = c.adds uid w.1.currentUser := by
  obtain ⟨w₀, h₀, o, rfl, hu, -, -⟩ := h
  rw [adding_sendToUpdateDonates ⟨w₀, h₀, [], o⟩ rfl, hu]

theorem DonateConfirmation.Begun.stage (h : c.Begun w d) {x : Taken} (hc : x.confirmation? = some c)
    (hp : x.pending = d.pending) : x.Stage := by
  obtain ⟨w₀, h₀, o, rfl, -, -, -⟩ := h
  exact .records hc (by rw [hp]; exact ending_sendToUpdateDonates _ rfl)

theorem samePledges_kept (hr : ¬ r.Pledges) (hs : AnswersOrKept Kept w r response w₁) : SamePledges w w₁ := by
  rcases hs with hs | ⟨-, rfl, -⟩
  · exact samePledges_answers hr hs
  · exact .refl _

/-- Neither the charge nor the tips sign anybody in. -/
theorem device_kept (hr : r.Precedes) (hs : AnswersOrKept Kept w r response w₁) : w₁.1 = w.1 := by
  rcases hs with hs | ⟨-, rfl, -⟩
  · cases r with
    | pay amount mode =>
      obtain ⟨n, -, -, rfl⟩ := hs
      rfl
    | updateUser uid data =>
      simp only [Answers] at hs
      exact (written_frame hs).1
    | _ => exact hr.elim
  · rfl

/-- The tips' answer always begins the recording. -/
theorem begun_tipped {error : Option String} {h : List Frame} (hw : w₁.1 = w.1) (hsame : SamePledges w w₁)
    (hd : (c.tipped error).exec ⟨w₁, h, [], []⟩ = d) : c.Begun w d := by
  obtain ⟨device, hu, hexec⟩ := @DonateConfirmation.exec_tipped c error ⟨w₁, h, [], []⟩
  rw [hexec] at hd
  refine ⟨(device, w₁.2), h, [], hd, hu.trans (congrArg Device.currentUser hw), hsame, ?_⟩
  simp [Effect.ShowsResult]

/-- An accepted charge begins it where no tips are to be written. -/
theorem begun_paid {token : String} {h : List Frame} (hm : c.isOneTimeMode = false)
    (ht : ¬ 0 < c.tipsAmount ∨ w.1.currentUser = none) (hw : w₁.1 = w.1) (hsame : SamePledges w w₁)
    (hd : (c.paid (.success token)).exec ⟨w₁, h, [], []⟩ = d) : c.Begun w d := by
  rw [DonateConfirmation.exec_paid hm] at hd
  by_cases hpos : 0 < c.tipsAmount
  · have hnone : w₁.1.currentUser = none := hw ▸ ht.resolve_left (not_not_intro hpos)
    rw [if_pos hpos] at hd
    simp only [hnone] at hd
    exact ⟨w₁, h, _, hd, congrArg Device.currentUser hw, hsame, by simp [Effect.ShowsResult]⟩
  · rw [if_neg hpos] at hd
    exact ⟨w₁, h, [], hd, congrArg Device.currentUser hw, hsame, by simp [Effect.ShowsResult]⟩

/-- Where it is due, an answer begins the recording. -/
theorem begun_of_starts (hstage : x.Stage) (hc : x.confirmation? = some c) (hstarts : c.Starts w r response)
    (hp : x.pending = pre ++ ⟨r, callback⟩ :: post) (hs : AnswersOrKept Kept w r response w₁)
    (hd : (callback response).exec ⟨w₁, x.heap, pre ++ post, x.out⟩ = d) : c.Begun w d := by
  have hprecedes : r.Precedes := by
    cases hstarts with
    | paid => trivial
    | tipped => exact Option.some_ne_none _
  have hw := device_kept hprecedes hs
  have hsame := samePledges_kept (fun h => by cases hstarts <;> exact h) hs
  cases hstage with
  | pays hc' ho hp' =>
    obtain rfl := Option.some.inj (hc.symm.trans hc')
    obtain ⟨rfl, rfl, he⟩ := eq_of_single (hp'.symm.trans hp)
    rw [ho] at hd
    cases he
    cases hstarts with
    | paid hm ht => exact begun_paid hm ht hw hsame hd
  | tips hc' hm ho hp' =>
    obtain rfl := Option.some.inj (hc.symm.trans hc')
    obtain ⟨rfl, rfl, he⟩ := eq_of_single (hp'.symm.trans hp)
    rw [ho] at hd
    cases he
    exact begun_tipped hw hsame hd
  | records _ h => exact absurd hprecedes (h _ (mem_of_taken hp)).1
  | spares hnone => cases hnone.symm.trans hc

/-- An answer begins a recording, or it asks for no pledge. -/
theorem answer_turn (hstage : x.Stage) (hp : x.pending = pre ++ ⟨r, callback⟩ :: post)
    (hs : AnswersOrKept Kept w r response w₁)
    (hd : (callback response).exec ⟨w₁, x.heap, pre ++ post, x.out⟩ = d) :
    (∃ c, x.confirmation? = some c ∧ c.Starts w r response) ∨
      (Taken.Stage ⟨d.waiting, x.app, x.touch⟩ ∧
        ∃ calls, d.pending = pre ++ post ++ calls ∧ ∀ call ∈ calls, ¬ call.1.Pledges) := by
  have hwithin : ∀ {F : Footprint Device Effect Request}, (callback response).Within F →
      ∃ calls, d.pending = pre ++ post ++ calls ∧ ∀ call ∈ calls, Call.Within F call := fun h =>
    hd ▸ within_issued h ⟨w₁, x.heap, pre ++ post, x.out⟩
  have hrest : ∀ {calls : List (Call Device Frame Effect Request.Response)} {call},
      call ∈ pre ++ post ++ calls → call ∈ x.pending ∨ call ∈ calls := fun hmem =>
    (List.mem_append.mp hmem).imp_left (mem_of_mem_rest hp)
  cases hstage with
  | @pays c hc ho hp' =>
    obtain ⟨rfl, rfl, he⟩ := eq_of_single (hp'.symm.trans hp)
    cases he
    have hprecedes : (Request.pay c.payAmount c.isOneTimeMode).Precedes := trivial
    have hw := device_kept hprecedes hs
    rw [ho] at hd
    have hends : (c.paid response).Within ending → Taken.Stage ⟨d.waiting, x.app, x.touch⟩ ∧
        ∃ calls, d.pending = [] ++ [] ++ calls ∧ ∀ call ∈ calls, ¬ call.1.Pledges := by
      intro h
      obtain ⟨calls, hcalls, hending⟩ := hwithin h
      refine ⟨.records hc fun call hmem => ?_, calls, hcalls, fun call hmem => (hending call hmem).1.1⟩
      have hmem' : call ∈ calls := by simpa [Config.waiting, hcalls] using hmem
      exact ⟨(hending call hmem').1.2, (hending call hmem').2⟩
    cases response with
    | failure => exact .inr (hends trivial)
    | success token =>
      rcases Bool.eq_false_or_eq_true c.isOneTimeMode with hm | hm
      · refine .inr (hends ?_)
        simp only [DonateConfirmation.paid, hm, if_true]
        exact DonateConfirmation.ending_addOneTimePaymentToFirebase
      · by_cases ht : ¬ 0 < c.tipsAmount ∨ w.1.currentUser = none
        · exact .inl ⟨c, hc, .paid hm ht⟩
        · simp only [not_or, not_not] at ht
          obtain ⟨uid, hu⟩ := Option.ne_none_iff_exists'.mp ht.2
          rw [DonateConfirmation.exec_paid hm, if_pos ht.1] at hd
          simp only [show w₁.1.currentUser = some uid from hw ▸ hu] at hd
          subst hd
          refine .inr ⟨.tips hc hm rfl rfl, _, rfl, fun call hmem => ?_⟩
          obtain rfl := List.mem_singleton.mp hmem
          exact id
  | @tips c uid hc hm ho hp' =>
    obtain ⟨rfl, rfl, he⟩ := eq_of_single (hp'.symm.trans hp)
    cases he
    exact .inl ⟨c, hc, .tipped⟩
  | records hc h =>
    obtain ⟨calls, hcalls, hending⟩ := hwithin ((h _ (mem_of_taken hp)).2 response)
    refine .inr ⟨.records hc fun call hmem => ?_, calls, hcalls, fun call hmem => (hending call hmem).1.1⟩
    have hmem' : call ∈ pre ++ post ++ calls := hcalls ▸ hmem
    rcases hrest hmem' with hold | hnew
    · exact h call hold
    · exact ⟨(hending call hnew).1.2, (hending call hnew).2⟩
  | spares hc h =>
    obtain ⟨calls, hcalls, hsparing⟩ := hwithin ((h _ (mem_of_taken hp)).2 response)
    refine .inr ⟨.spares hc fun call hmem => ?_, calls, hcalls, fun call hmem => (hsparing call hmem).1⟩
    have hmem' : call ∈ pre ++ post ++ calls := hcalls ▸ hmem
    rcases hrest hmem' with hold | hnew
    · exact h call hold
    · exact hsparing call hnew

theorem confirmation?_eq_none (h : x.touch ≠ .completeCheckoutButtonPressed) : x.confirmation? = none := by
  unfold Taken.confirmation?
  split
  · rename_i htouch _
    exact absurd htouch h
  · rfl

variable {a b : App} {i : Interaction} {p : Prog}

/-- What a touch does at once does not reach the servers. -/
theorem press_server (hpress : App.press i a = some (b, p)) : b.world.2 = a.world.2 := by
  cases App.press_cases hpress with
  | opens h => exact (world_opens h).1
  | calls | leads | adjusts | event | checkout | logout | signedOut => rfl

/-- A checkout that has nothing to pay begins its recording at once. -/
theorem begun_press {below : Page} {bucket : MyBucket} (hp : a.page = .bucket below ⟨bucket, .confirmation c⟩)
    (hskip : c.Skips a.world.1) (hpress : App.press .completeCheckoutButtonPressed a = some (b, p))
    (hd : p.exec (.fresh _ b.world) = d) : c.Begun a.world d := by
  obtain ⟨w, page, activeDonates⟩ := a
  obtain rfl : page = _ := hp
  obtain ⟨rfl, rfl⟩ : _ ∧ _ := Prod.mk.inj (Option.some.inj hpress)
  rw [DonateConfirmation.exec_press] at hd
  have hskip' : c.Skips (Config.fresh Request.Response w : Loop).state.1 := hskip
  rw [if_pos hskip'] at hd
  exact ⟨w, [], [], hd, rfl, .refl _, by simp [Effect.ShowsResult]⟩

/-- One that has something to pay waits for its charge. -/
theorem waits_press {below : Page} {bucket : MyBucket} (hp : a.page = .bucket below ⟨bucket, .confirmation c⟩)
    (hskip : ¬ c.Skips a.world.1) (hpress : App.press .completeCheckoutButtonPressed a = some (b, p))
    (hd : p.exec (.fresh _ b.world) = d) :
    d.pending = [⟨.pay c.payAmount c.isOneTimeMode, c.paid⟩] ∧ d.out = [] := by
  obtain ⟨w, page, activeDonates⟩ := a
  obtain rfl : page = _ := hp
  obtain ⟨rfl, rfl⟩ : _ ∧ _ := Prod.mk.inj (Option.some.inj hpress)
  rw [DonateConfirmation.exec_press] at hd
  have hskip' : ¬ c.Skips (Config.fresh Request.Response w : Loop).state.1 := hskip
  rw [if_neg hskip'] at hd
  subst hd
  exact ⟨rfl, rfl⟩

/-- A touch begins a recording, or it asks for no pledge. -/
theorem touch_turn (hpress : App.press i a = some (b, p)) (hd : p.exec (.fresh _ b.world) = d) :
    (∃ below bucket c, i = .completeCheckoutButtonPressed ∧
      a.page = .bucket below ⟨bucket, .confirmation c⟩ ∧ c.Skips a.world.1) ∨
      (Taken.Stage ⟨d.waiting, a, i⟩ ∧ ∀ call ∈ d.pending, ¬ call.1.Pledges) := by
  have hspares : i ≠ .completeCheckoutButtonPressed → p.Within sparing →
      Taken.Stage ⟨d.waiting, a, i⟩ ∧ ∀ call ∈ d.pending, ¬ call.1.Pledges := by
    intro hi hp
    obtain ⟨calls, hcalls, hsparing⟩ := within_issued hp (.fresh _ b.world)
    rw [hd, show (Config.fresh _ b.world : Loop).pending = [] from rfl, List.nil_append] at hcalls
    subst hcalls
    exact ⟨.spares (confirmation?_eq_none hi) hsparing, fun call hmem => (hsparing call hmem).1⟩
  cases App.press_cases hpress with
  | calls hi =>
    refine .inr (hspares ?_ (sparing_of_browsing (within_call (P := fun _ => False) hi)))
    rintro rfl
    cases hi
  | opens h =>
    refine .inr (hspares ?_ (sparing_of_browsing (within_viewDidLoad _)))
    rintro rfl
    cases h
  | leads h =>
    refine .inr (hspares ?_ trivial)
    rintro rfl
    cases h
  | adjusts | event | signedOut => exact .inr (hspares nofun trivial)
  | logout =>
    refine .inr (hspares nofun fun d => ?_)
    dsimp only
    split
    · exact ⟨trivial, trivial, trivial⟩
    · exact ⟨trivial, trivial⟩
  | @checkout below bucket c hp =>
    rw [DonateConfirmation.exec_press] at hd
    by_cases hskip : c.Skips a.world.1
    · exact .inl ⟨below, bucket, c, rfl, hp, hskip⟩
    · have hskip' : ¬ c.Skips (Config.fresh Request.Response a.world : Loop).state.1 := hskip
      rw [if_neg hskip'] at hd
      subst hd
      refine .inr ⟨.pays (by simp [Taken.confirmation?, hp]) rfl rfl, fun call hmem => ?_⟩
      obtain rfl := List.mem_singleton.mp hmem
      exact id

end Turns

/-! ## Every move -/

/-- From `s` to `s'` the touch with number `j`, which is `y` then, has begun to record the rows of `c`;
its call has come to `d`. -/
structure Busy.Records (s : Busy) (j : ℕ) (c : DonateConfirmation) (s' : Busy) (y : Taken) (d : Loop) :
    Prop where
  begun : c.Begun s.app.world d
  world : s'.app.world = d.state
  taken : s'.taken[j]? = some y
  waiting : y.toWaiting = d.waiting
  confirmation : y.confirmation? = some c
  others : ∀ x ∈ s'.taken, x ∈ s.taken ∨ x = y
  adding : ∀ uid, (s'.adding uid).Perm (c.adds uid s.app.world.1.currentUser ++ s.adding uid)

/-- What a move does to the pledges that are stored and to those that are being added. -/
inductive Busy.Moved (uid : String) (serve : World → (r : Request) → r.Response → World → Prop) (s : Busy)
    (m : Busy.Move) (s' : Busy) : Prop
  | begins {j : ℕ} {c : DonateConfirmation} {y : Taken} {d : Loop} (hb : s.Begins m j c)
      (h : s.Records j c s' y d) : Moved uid serve s m s'
  | answered {r : Request} {a : r.Response} {w : World} (hr : ∃ x ∈ s.taken, ∃ call ∈ x.pending, call.1 = r)
      (hs : serve s.app.world r a w) (hsame : SamePledges w s'.app.world)
      (hadding : (s.adding uid).Perm ((r.addedFor uid).toList ++ s'.adding uid)) : Moved uid serve s m s'
  | called (hsame : SamePledges s.app.world s'.app.world) (hadding : s'.adding uid = s.adding uid) :
      Moved uid serve s m s'

section Moves

variable {serve : World → (r : Request) → r.Response → World → Prop} {Kept : Server → Server → Prop}
  {s s' : Busy} {m : Busy.Move} {l : List Effect} {uid : String} {x : Taken} {j : ℕ}

/-- The other touches keep what they are adding. -/
theorem adding_set (hx : s.taken[j]? = some x) : ∃ rest, (s.adding uid).Perm (x.adding uid ++ rest) ∧
    ∀ a y, (Busy.adding uid ⟨a, s.taken.set j y⟩).Perm (y.adding uid ++ rest) := by
  obtain ⟨hlt, hget⟩ := List.getElem?_eq_some_iff.mp hx
  refine ⟨((s.taken.take j).flatMap fun x => x.adding uid) ++
    (s.taken.drop (j + 1)).flatMap fun x => x.adding uid, ?_, fun a y => ?_⟩
  · have hsplit : s.taken = s.taken.take j ++ x :: s.taken.drop (j + 1) := by
      rw [← hget, List.cons_getElem_drop_succ, List.take_append_drop]
    unfold Busy.adding
    conv_lhs => rw [hsplit, List.flatMap_append, List.flatMap_cons]
    exact List.perm_append_comm_assoc _ _ _
  · unfold Busy.adding
    rw [List.set_eq_take_append_cons_drop, if_pos hlt, List.flatMap_append, List.flatMap_cons]
    exact List.perm_append_comm_assoc _ _ _

theorem adding_nil (h : ∀ call ∈ x.pending, ¬ call.1.Pledges) : x.adding uid = [] :=
  List.filterMap_eq_nil_iff.mpr fun call hmem => DonateConfirmation.addedFor_eq_none (h call hmem)

/-- What one touch is adding, all are. -/
theorem adding_moved {y : Taken} {a : App} {l : List String} (hx : s.taken[j]? = some x)
    (h : (x.adding uid).Perm (l ++ y.adding uid)) :
    (s.adding uid).Perm (l ++ Busy.adding uid ⟨a, s.taken.set j y⟩) := by
  obtain ⟨rest, hbefore, hafter⟩ := @adding_set s uid x j hx
  calc s.adding uid
    _ |>.Perm (x.adding uid ++ rest) := hbefore
    _ |>.Perm (l ++ y.adding uid ++ rest) := h.append_right rest
    _ |>.Perm (l ++ (y.adding uid ++ rest)) := by rw [List.append_assoc]
    _ |>.Perm (l ++ Busy.adding uid ⟨a, s.taken.set j y⟩) := (hafter a y).symm.append_left l

/-- One call fewer, and some that are not about pledges. -/
theorem adding_answered {r : Request} {callback : r.Response → Prog}
    {pre post calls : List (Call Device Frame Effect Request.Response)} {y : Taken}
    (hp : x.pending = pre ++ ⟨r, callback⟩ :: post) (hy : y.pending = pre ++ post ++ calls)
    (hcalls : ∀ call ∈ calls, ¬ call.1.Pledges) :
    (x.adding uid).Perm ((r.addedFor uid).toList ++ y.adding uid) := by
  have hnone : calls.filterMap (fun call => call.1.addedFor uid) = [] :=
    adding_nil (x := ⟨⟨[], calls, []⟩, x.app, x.touch⟩) hcalls
  have hcons : ∀ l : List (Call Device Frame Effect Request.Response),
      (⟨r, callback⟩ :: l).filterMap (fun call => call.1.addedFor uid) =
        (r.addedFor uid).toList ++ l.filterMap fun call => call.1.addedFor uid := by
    intro l
    rw [List.filterMap_cons]
    cases r.addedFor uid <;> rfl
  unfold Taken.adding
  rw [hp, hy, List.filterMap_append, List.filterMap_append, List.filterMap_append, hnone, List.append_nil, hcons]
  exact List.perm_append_comm_assoc _ _ _

/-- Whatever a touch waits for, it may as well wait for less. -/
theorem Taken.Stage.fewer {call : Call Device Frame Effect Request.Response}
    {pre post : List (Call Device Frame Effect Request.Response)} (h : x.Stage)
    (hp : x.pending = pre ++ call :: post) : Taken.Stage { x with pending := pre ++ post } := by
  have hsingle : ∀ {b : Call Device Frame Effect Request.Response} {c : DonateConfirmation},
      x.confirmation? = some c → x.pending = [b] → Taken.Stage { x with pending := pre ++ post } := by
    intro b c hc he
    obtain ⟨rfl, rfl, -⟩ := eq_of_single (he.symm.trans hp)
    exact .records hc nofun
  cases h with
  | pays hc _ he => exact hsingle hc he
  | tips hc _ _ he => exact hsingle hc he
  | records hc h => exact .records hc fun b hb => h b (mem_of_mem_rest hp hb)
  | spares hc h => exact .spares hc fun b hb => h b (mem_of_mem_rest hp hb)

theorem Taken.Stage.not_pledges {c : DonateConfirmation} {r : Request} {response : r.Response} {w : World}
    {callback : r.Response → Prog} {pre post : List (Call Device Frame Effect Request.Response)} (h : x.Stage)
    (hc : x.confirmation? = some c) (hs : c.Starts w r response) (hp : x.pending = pre ++ ⟨r, callback⟩ :: post) :
    ∀ call ∈ x.pending, ¬ call.1.Pledges := by
  have hsingle : ∀ {b : Call Device Frame Effect Request.Response}, x.pending = [b] → ¬ b.1.Pledges →
      ∀ call ∈ x.pending, ¬ call.1.Pledges := by
    intro b he hnot call hmem
    rw [he] at hmem
    exact List.mem_singleton.mp hmem ▸ hnot
  have hprecedes : r.Precedes := by
    cases hs with
    | paid => trivial
    | tipped => exact Option.some_ne_none _
  cases h with
  | pays _ _ he => exact hsingle he id
  | tips _ _ _ he => exact hsingle he id
  | records _ h => exact absurd hprecedes (h _ (mem_of_taken hp)).1
  | spares hnone => cases hnone.symm.trans hc

/-- Where its recording begins, a checkout issues the writes of its rows. -/
theorem records_step {c : DonateConfirmation} (hserve : ∀ w r a w', serve w r a w' → AnswersOrKept Kept w r a w')
    (hstages : ∀ x ∈ s.taken, x.Stage) (hb : s.Begins m j c) (hs : Busy.Step serve s (m, l) s') :
    ∃ y d, s.Records j c s' y d := by
  cases hb with
  | @touch below bucket c hpage hskip =>
    generalize he : (Busy.Move.touch Interaction.completeCheckoutButtonPressed, l) = e at hs
    cases hs with
    | @touch _ b a p d hp hd hl =>
      cases he
      have hbegun := begun_press hpage hskip hp hd
      refine ⟨⟨d.waiting, s.app, .completeCheckoutButtonPressed⟩, d, hbegun, hl.world, by simp, rfl,
        by simp [Taken.confirmation?, hpage], fun x hx => ?_, fun uid => ?_⟩
      · exact (List.mem_append.mp hx).imp_right List.mem_singleton.mp
      · have hnew : Busy.adding uid ⟨a, s.taken ++ [⟨d.waiting, s.app, .completeCheckoutButtonPressed⟩]⟩ =
            s.adding uid ++ c.adds uid s.app.world.1.currentUser := by
          rw [← hbegun.adding]
          simp [Busy.adding, Taken.adding, Config.waiting]
        rw [hnew]
        exact List.perm_append_comm
    | answer | lost => cases he
  | @answer j x c r response hx hc hstarts =>
    generalize he : (Busy.Move.answer j r response, l) = e at hs
    cases hs with
    | touch | lost => cases he
    | @answer _ x' _ callback pre post _ w d _ a hx' hp hw hd ho hl =>
      cases he
      obtain rfl := Option.some.inj (hx.symm.trans hx')
      have hstage := hstages x (List.mem_of_getElem? hx)
      have hbegun := begun_of_starts hstage hc hstarts hp (hserve _ _ _ _ hw) hd
      have hlt := (List.getElem?_eq_some_iff.mp hx).1
      refine ⟨⟨d.waiting, x.app, x.touch⟩, d, hbegun, hl.world, by simp [hlt], rfl, hc,
        fun y hy => List.mem_or_eq_of_mem_set hy, fun uid => ?_⟩
      obtain ⟨rest, hbefore, hafter⟩ := @adding_set s uid x j hx
      rw [adding_nil (hstage.not_pledges hc hstarts hp), List.nil_append] at hbefore
      have hnew : Taken.adding uid ⟨d.waiting, x.app, x.touch⟩ = c.adds uid s.app.world.1.currentUser :=
        hbegun.adding
      have hperm := hafter a ⟨d.waiting, x.app, x.touch⟩
      rw [hnew] at hperm
      exact hperm.trans (hbefore.symm.append_left _)

/-- A move begins a recording, is an answer, or leaves the pledges alone. -/
theorem moved_step (uid : String) (hserve : ∀ w r a w', serve w r a w' → AnswersOrKept Kept w r a w')
    (hstages : ∀ x ∈ s.taken, x.Stage) (hs : Busy.Step serve s (m, l) s') :
    (∀ x ∈ s'.taken, x.Stage) ∧ Busy.Moved uid serve s m s' := by
  have hset : ∀ {y : Taken} {j : ℕ}, y.Stage → ∀ x ∈ s.taken.set j y, x.Stage := by
    intro y j hy x hmem
    rcases List.mem_or_eq_of_mem_set hmem with hmem | rfl
    · exact hstages x hmem
    · exact hy
  have hbegins : ∀ {j c}, s.Begins m j c → (∀ x ∈ s'.taken, x.Stage) ∧ Busy.Moved uid serve s m s' := by
    intro j c hb
    obtain ⟨y, d, h⟩ := records_step hserve hstages hb hs
    refine ⟨fun x hmem => ?_, .begins hb h⟩
    rcases h.others x hmem with hmem | rfl
    · exact hstages x hmem
    · exact h.begun.stage h.confirmation (congrArg Waiting.pending h.waiting)
  generalize he : (m, l) = e at hs
  cases hs with
  | @touch i b a p d hp hd hl =>
    cases he
    rcases touch_turn hp hd with ⟨below, bucket, c, rfl, hpage, hskip⟩ | ⟨hstage, hnone⟩
    · exact hbegins (.touch hpage hskip)
    · refine ⟨fun x hmem => ?_, .called ?_ ?_⟩
      · rcases List.mem_append.mp hmem with hmem | hmem
        · exact hstages x hmem
        · exact List.mem_singleton.mp hmem ▸ hstage
      · have hsame : SamePledges b.world d.state := hd ▸ samePledges_exec p (.fresh _ b.world)
        have hpress : SamePledges s.app.world b.world := fun u => by
          rw [press_server hp]
          exact ⟨rfl, rfl⟩
        rw [hl.world]
        exact hpress.trans hsame
      · have hnil : Taken.adding uid ⟨d.waiting, s.app, i⟩ = [] := adding_nil hnone
        simp [Busy.adding, hnil]
  | @answer j x r callback pre post response w d l' a hx hp hw hd ho hl =>
    cases he
    have hmem := List.mem_of_getElem? hx
    rcases answer_turn (hstages x hmem) hp (hserve _ _ _ _ hw) hd with
      ⟨c, hc, hstarts⟩ | ⟨hstage, calls, hcalls, hspare⟩
    · exact hbegins (.answer hx hc hstarts)
    · refine ⟨hset hstage, .answered ⟨x, hmem, _, mem_of_taken hp, rfl⟩ hw ?_ ?_⟩
      · rw [hl.world, ← hd]
        exact samePledges_exec (callback response) ⟨w, x.heap, pre ++ post, x.out⟩
      · have hrest : (x.adding uid).Perm _ :=
          adding_answered (y := ⟨d.waiting, x.app, x.touch⟩) hp hcalls hspare
        exact adding_moved hx hrest
  | @lost j x r callback pre post response w hx hp hw =>
    cases he
    have hmem := List.mem_of_getElem? hx
    refine ⟨hset ((hstages x hmem).fewer hp), .answered ⟨x, hmem, _, mem_of_taken hp, rfl⟩ hw (.refl _) ?_⟩
    have hrest : (x.adding uid).Perm _ :=
      adding_answered (y := { x with pending := pre ++ post }) hp (List.append_nil _).symm nofun
    exact adding_moved hx hrest

theorem stages_idle (a : App) : ∀ x ∈ a.idle.taken, x.Stage := fun _ hx => absurd hx List.not_mem_nil

theorem stages_of_history {Ok : Busy → Busy.Move × List Effect → Prop}
    (hserve : ∀ w r a w', serve w r a w' → AnswersOrKept Kept w r a w')
    (h : History (Busy.Step serve) Ok s s') (hs : ∀ x ∈ s.taken, x.Stage) : ∀ x ∈ s'.taken, x.Stage :=
  h.invariant (I := fun s => ∀ x ∈ s.taken, x.Stage)
    (fun _ _ _ hstages _ hstep => (moved_step "" hserve hstages hstep).1) hs

/-- A monthly checkout that has recorded nothing: it waits for its charge or for the write of its tips, or
it has come to nothing. -/
inductive Taken.Waits (c : DonateConfirmation) (x : Taken) : Prop
  | ended (ho : x.out = []) (hp : x.pending = []) : Waits c x
  | pays (ho : x.out = []) (hp : x.pending = [⟨.pay c.payAmount c.isOneTimeMode, c.paid⟩]) : Waits c x
  | tips {uid : String} (ho : x.out = [])
      (hp : x.pending = [⟨.updateUser uid { tipsAmount := some c.tipsAmount }, c.tipped⟩]) : Waits c x

/-- In a run from `s₀` to `s'` there is a move with which the touch begins to record. -/
def BeginsIn (serve : World → (r : Request) → r.Response → World → Prop) (s₀ : Busy) (j : ℕ)
    (c : DonateConfirmation) (s' : Busy) : Prop :=
  ∃ s m l s₁, History (Busy.Step serve) (fun _ _ => True) s₀ s ∧ s.Begins m j c ∧
    Busy.Step serve s (m, l) s₁ ∧ History (Busy.Step serve) (fun _ _ => True) s₁ s'

theorem BeginsIn.tail {s₀ : Busy} {c : DonateConfirmation} (h : BeginsIn serve s₀ j c s)
    (hs : Busy.Step serve s (m, l) s') : BeginsIn serve s₀ j c s' := by
  obtain ⟨s₁, m₁, l₁, s₂, hrun, hb, hstep, hrest⟩ := h
  exact ⟨s₁, m₁, l₁, s₂, hrun, hb, hstep, hrest.tail trivial hs⟩

/-- An answer to a checkout that has recorded nothing begins its recording, or it still has not. -/
theorem waits_answer {c : DonateConfirmation} {r : Request} {callback : r.Response → Prog} {response : r.Response}
    {pre post : List (Call Device Frame Effect Request.Response)} {w w₁ : World} {d : Loop} (h : x.Waits c)
    (hm : c.isOneTimeMode = false) (hp : x.pending = pre ++ ⟨r, callback⟩ :: post)
    (hs : AnswersOrKept Kept w r response w₁)
    (hd : (callback response).exec ⟨w₁, x.heap, pre ++ post, x.out⟩ = d) :
    c.Starts w r response ∨ Taken.Waits c ⟨d.waiting, x.app, x.touch⟩ := by
  cases h with
  | ended _ hnone =>
    rw [hnone] at hp
    simp at hp
  | tips ho hone =>
    obtain ⟨rfl, rfl, he⟩ := eq_of_single (hone.symm.trans hp)
    cases he
    exact .inl .tipped
  | pays ho hone =>
    obtain ⟨rfl, rfl, he⟩ := eq_of_single (hone.symm.trans hp)
    cases he
    have hprecedes : (Request.pay c.payAmount c.isOneTimeMode).Precedes := trivial
    have hw := device_kept hprecedes hs
    rw [ho] at hd
    cases response with
    | failure =>
      subst hd
      exact .inr (.ended rfl rfl)
    | success token =>
      by_cases ht : ¬ 0 < c.tipsAmount ∨ w.1.currentUser = none
      · exact .inl (.paid hm ht)
      · simp only [not_or, not_not] at ht
        obtain ⟨uid, hu⟩ := Option.ne_none_iff_exists'.mp ht.2
        rw [DonateConfirmation.exec_paid hm, if_pos ht.1] at hd
        simp only [show w₁.1.currentUser = some uid from hw ▸ hu] at hd
        subst hd
        exact .inr (.tips rfl rfl)

theorem Taken.Waits.fewer {c : DonateConfirmation} {call : Call Device Frame Effect Request.Response}
    {pre post : List (Call Device Frame Effect Request.Response)} (h : x.Waits c)
    (hp : x.pending = pre ++ call :: post) : Taken.Waits c { x with pending := pre ++ post } := by
  cases h with
  | ended ho hnone =>
    rw [hnone] at hp
    simp at hp
  | pays ho hone | tips ho hone =>
    obtain ⟨rfl, rfl, -⟩ := eq_of_single (hone.symm.trans hp)
    exact .ended ho rfl

/-- A monthly checkout of a run has recorded nothing, or it has begun to at some move. -/
theorem waits_or_begins {a₀ : App} {c : DonateConfirmation} {Ok : Busy → Busy.Move × List Effect → Prop}
    (hserve : ∀ w r a w', serve w r a w' → AnswersOrKept Kept w r a w')
    (h : History (Busy.Step serve) Ok a₀.idle s) (hx : s.taken[j]? = some x) (hc : x.confirmation? = some c)
    (hm : c.isOneTimeMode = false) : x.Waits c ∨ BeginsIn serve a₀.idle j c s := by
  induction h generalizing x with
  | refl => cases hx
  | @tail s s' e hrun _ hs ih =>
    have hrun := hrun.mono (fun _ _ _ h => h) fun _ _ _ => trivial
    have htail : BeginsIn serve a₀.idle j c s → BeginsIn serve a₀.idle j c s' := fun h => h.tail hs
    have hkept : ∀ {y : Taken}, s.taken[j]? = some y → y.confirmation? = some c →
        y.Waits c ∨ BeginsIn serve a₀.idle j c s' := fun hy hc => (ih hy hc).imp_right htail
    have hnow : ∀ {m l}, (m, l) = e → s.Begins m j c → BeginsIn serve a₀.idle j c s' := by
      rintro m l rfl hb
      exact ⟨s, m, l, s', hrun, hb, hs, .refl⟩
    cases hs with
    | @touch i b a p d hp hd hl =>
      rcases Nat.lt_trichotomy j s.taken.length with hj | rfl | hj
      · rw [List.getElem?_append_left hj] at hx
        exact hkept hx hc
      · obtain rfl : ⟨d.waiting, s.app, i⟩ = x := by simpa using hx
        obtain ⟨below, bucket, hpage⟩ := exists_page hc
        have hi : i = .completeCheckoutButtonPressed := by
          by_contra hne
          cases (confirmation?_eq_none (x := ⟨d.waiting, s.app, i⟩) hne).symm.trans hc
        subst hi
        by_cases hskip : c.Skips s.app.world.1
        · exact .inr (hnow rfl (.touch hpage hskip))
        · obtain ⟨hone, ho⟩ := waits_press hpage hskip hp hd
          exact .inl (.pays ho hone)
      · simp [List.getElem?_eq_none (show (s.taken ++ [_]).length ≤ j by simp; omega)] at hx
    | @answer k z r callback pre post response w d l a hz hp hw hd ho hl =>
      by_cases hk : k = j
      · subst hk
        have hlt := (List.getElem?_eq_some_iff.mp hz).1
        obtain rfl : ⟨d.waiting, z.app, z.touch⟩ = x := by simpa [hlt] using hx
        rcases ih hz hc with hwaits | hbegins
        · rcases waits_answer hwaits hm hp (hserve _ _ _ _ hw) hd with hstarts | hstill
          · exact .inr (hnow rfl (.answer hz hc hstarts))
          · exact .inl hstill
        · exact .inr (htail hbegins)
      · rw [List.getElem?_set_ne hk] at hx
        exact hkept hx hc
    | @lost k z r callback pre post response w hz hp hw =>
      by_cases hk : k = j
      · subst hk
        have hlt := (List.getElem?_eq_some_iff.mp hz).1
        obtain rfl : { z with pending := pre ++ post } = x := by simpa [hlt] using hx
        exact (hkept hz hc).imp_left fun h => h.fewer hp
      · rw [List.getElem?_set_ne hk] at hx
        exact hkept hx hc

/-- What none of the touches waits for, none adds. -/
theorem adding_of_quiet (h : ∀ x ∈ s.taken, x.pending = []) : s.adding uid = [] := by
  refine List.flatMap_eq_nil_iff.mpr fun x hx => ?_
  rw [Taken.adding, h x hx]
  rfl

end Moves

end Pledge
