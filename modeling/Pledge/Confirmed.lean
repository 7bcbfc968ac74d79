import Pledge.EventLoop.Histories
import Pledge.OneTimeCheckout
import Pledge.PledgeWrites
import Pledge.RowOrigins
import Pledge.UniquePledges

/-!
# What was confirmed

Where the stored pledges, the payments and the charges come from. The store is accounted for by the
requests that were carried out, and these by the checkouts that the user confirmed.
-/

namespace Pledge

open EventLoop

namespace Request

/-- What a request writes to pledge `id` of the user; a new pledge may get any id. -/
def pledge? (uid id : String) : Request → Option DonateDoc
  | .addDonate v data => if v = uid then some data else none
  | .setDonate v id' data => if v = uid ∧ id' = id then some data else none
  | _ => none

/-- What a request adds to the payment history of the user. -/
def payment? (uid : String) : Request → Option PaymentDoc
  | .addPayment v data => if v = uid then some data else none
  | _ => none

def isRecord : Request → Bool
  | .addPayment .. | .addDonate .. | .setDonate .. | .deleteDonate .. => true
  | _ => false

theorem isRecord_eq_false {r : Request} (hr : r.Browses ∨ ∃ amount mode, r = .pay amount mode) :
    r.isRecord = false := by
  rcases hr with hr | ⟨amount, mode, rfl⟩
  · cases r <;> first | exact hr.elim | rfl
  · rfl

end Request

/-! ## The store and the journal -/

/-- What the stored pledges have in `field` was there before, or was written by a request of `t`. -/
def FieldTraced {α : Type} (field : DonateDoc → Option α) (uid : String) (t : List Request) (a b : Account) :
    Prop :=
  ∀ id data v, b.donates.lookup id = some data → field data = some v →
    (∃ old, a.donates.lookup id = some old ∧ field old = some v) ∨
      ∃ r ∈ t, ∃ written, r.pledge? uid id = some written ∧ field written = some v

/-- Account `b` is account `a` with what the requests of `t` have written. -/
structure Traced (uid : String) (t : List Request) (a b : Account) : Prop where
  amount : FieldTraced DonateDoc.amount uid t a b
  organisation : FieldTraced DonateDoc.organisation uid t a b
  removed : ∀ id ∈ a.donates, id ∉ b.donates → .deleteDonate uid id ∈ t
  payments : ∃ added, b.paymentHistory.entries.Perm (added ++ a.paymentHistory.entries) ∧
    (added.map Sigma.snd).Perm (t.filterMap (Request.payment? uid))

section Accounts

variable {α : Type} {field : DonateDoc → Option α} {uid : String} {t t' : List Request} {a b c : Account}

theorem FieldTraced.trans (h : FieldTraced field uid t a b) (h' : FieldTraced field uid t' b c) :
    FieldTraced field uid (t ++ t') a c := by
  intro id data v hlookup hv
  rcases h' id data v hlookup hv with ⟨old, hold, hv'⟩ | ⟨r, hr, hwritten⟩
  · rcases h id old v hold hv' with hkept | ⟨r, hr, hwritten⟩
    · exact .inl hkept
    · exact .inr ⟨r, List.mem_append_left t' hr, hwritten⟩
  · exact .inr ⟨r, List.mem_append_right t hr, hwritten⟩

theorem fieldTraced_of_eq (h : b.donates = a.donates) : FieldTraced field uid t a b := by
  intro id data v hlookup hv
  exact .inl ⟨data, h ▸ hlookup, hv⟩

theorem Traced.trans (h : Traced uid t a b) (h' : Traced uid t' b c) : Traced uid (t ++ t') a c where
  amount := h.amount.trans h'.amount
  organisation := h.organisation.trans h'.organisation
  removed id ha hc := by
    by_cases hb : id ∈ b.donates
    · exact List.mem_append_right t (h'.removed id hb hc)
    · exact List.mem_append_left t' (h.removed id ha hb)
  payments := by
    obtain ⟨added, hadded, hdocs⟩ := h.payments
    obtain ⟨added', hadded', hdocs'⟩ := h'.payments
    refine ⟨added' ++ added, ?_, ?_⟩
    · rw [List.append_assoc]
      exact hadded'.trans (hadded.append_left added')
    · rw [List.filterMap_append, List.map_append]
      exact (hdocs'.append hdocs).trans List.perm_append_comm

/-- Where neither pledges nor payments are touched. -/
theorem traced_of_eq (hd : b.donates = a.donates) (hp : b.paymentHistory = a.paymentHistory)
    (ht : t.filterMap (Request.payment? uid) = []) : Traced uid t a b where
  amount := fieldTraced_of_eq hd
  organisation := fieldTraced_of_eq hd
  removed id ha hb := absurd (hd ▸ ha) hb
  payments := ⟨[], by rw [hp]; exact .refl _, by rw [ht]; exact .refl _⟩

/-- A pledge that is written keeps what the request leaves out. -/
theorem fieldTraced_insert {r : Request} {id : String} {data document : DonateDoc} {old : Option α}
    (hr : r.pledge? uid id = some data)
    (hold : ∀ v, old = some v → ∃ d, a.donates.lookup id = some d ∧ field d = some v)
    (hfield : field document = (field data <|> old)) :
    FieldTraced field uid [r] a { a with donates := a.donates.insert id document } := by
  intro id' data' v hlookup hv
  by_cases hid : id' = id
  · subst hid
    obtain rfl : document = data' := by
      rw [AList.lookup_insert] at hlookup
      exact Option.some.inj hlookup
    rw [hfield] at hv
    cases hwritten : field data with
    | some x =>
      rw [hwritten] at hv
      exact .inr ⟨r, List.mem_singleton_self r, data, hr, hwritten.trans hv⟩
    | none =>
      rw [hwritten] at hv
      exact .inl (hold v hv)
  · exact .inl ⟨data', by rwa [AList.lookup_insert_ne hid] at hlookup, hv⟩

theorem fieldTraced_erase (id : String) {deleted : List String} : FieldTraced field uid t a
    { a with donates := a.donates.erase id, deletedDonates := deleted } := by
  intro id' document v hlookup hv
  by_cases hid : id' = id
  · subst hid
    rw [AList.lookup_erase] at hlookup
    cases hlookup
  · exact .inl ⟨document, by rwa [AList.lookup_erase_ne hid] at hlookup, hv⟩

theorem traced_addDonate {id : String} (data : DonateDoc) :
    Traced uid [.addDonate uid data] a { a with donates := a.donates.insert id data } where
  amount := fieldTraced_insert (if_pos rfl) (fun _ hv => by cases hv)
    (show data.amount = (data.amount <|> none) by simp)
  organisation := fieldTraced_insert (if_pos rfl) (fun _ hv => by cases hv)
    (show data.organisation = (data.organisation <|> none) by simp)
  removed id' ha hb := absurd (AList.mem_insert _ |>.mpr (.inr ha)) hb
  payments := ⟨[], .refl _, .refl _⟩

theorem traced_setDonate (id : String) (data : DonateDoc) :
    Traced uid [.setDonate uid id data] a
      { a with donates := a.donates.insert id (((a.donates.lookup id).getD {}).merge data) } where
  amount := by
    refine fieldTraced_insert (if_pos ⟨rfl, rfl⟩) (fun v hv => ?_) rfl
    cases hl : a.donates.lookup id with
    | none => simp [hl] at hv
    | some d => exact ⟨d, rfl, by simpa [hl] using hv⟩
  organisation := by
    refine fieldTraced_insert (if_pos ⟨rfl, rfl⟩) (fun v hv => ?_) rfl
    cases hl : a.donates.lookup id with
    | none => simp [hl] at hv
    | some d => exact ⟨d, rfl, by simpa [hl] using hv⟩
  removed id' ha hb := absurd (AList.mem_insert _ |>.mpr (.inr ha)) hb
  payments := ⟨[], .refl _, .refl _⟩

theorem traced_deleteDonate (id : String) :
    Traced uid [.deleteDonate uid id] a
      { a with donates := a.donates.erase id, deletedDonates := id :: a.deletedDonates } where
  amount := fieldTraced_erase id
  organisation := fieldTraced_erase id
  removed id' ha hb := by
    have hid : id' = id := by
      by_contra hne
      exact hb (AList.mem_erase.mpr ⟨hne, ha⟩)
    exact hid ▸ List.mem_singleton_self _
  payments := ⟨[], .refl _, .refl _⟩

theorem traced_addPayment {id : String} (data : PaymentDoc) (hid : id ∉ a.paymentHistory) :
    Traced uid [.addPayment uid data] a
      { a with paymentHistory := a.paymentHistory.insert id data } where
  amount := fieldTraced_of_eq rfl
  organisation := fieldTraced_of_eq rfl
  removed id' ha hb := absurd ha hb
  payments := by
    refine ⟨[⟨id, data⟩], ?_, ?_⟩
    · rw [AList.entries_insert_of_notMem hid]
      exact .refl _
    · simp [Request.payment?]

end Accounts

/-! ## Answers -/

/-- From `s` to `s'` the requests of `t` were carried out, and they account for what is stored. -/
structure CarriesOut (t : List Request) (s s' : Server) : Prop where
  journal : s'.journal = s.journal ++ t
  account : ∀ uid, Traced uid t (s.account uid) (s'.account uid)

section Answers

variable {w w' : World} {s s' s'' : Server} {t t' : List Request}

theorem CarriesOut.refl (s : Server) : CarriesOut [] s s :=
  ⟨by simp, fun _ => traced_of_eq rfl rfl rfl⟩

theorem CarriesOut.trans (h : CarriesOut t s s') (h' : CarriesOut t' s' s'') :
    CarriesOut (t ++ t') s s'' :=
  ⟨by rw [h'.journal, h.journal, List.append_assoc], fun uid => (h.account uid).trans (h'.account uid)⟩

theorem carriesOut_written {r : Request} {uid : String} {ok : Account → Account → Prop} {error : Option String}
    (hok : ∀ a b, ok a b → Traced uid [r] a b) (hother : ∀ v ≠ uid, r.payment? v = none)
    (h : Written w r uid ok error w') : ∃ t, t.Sublist [r] ∧ CarriesOut t w.2 w'.2 := by
  cases error with
  | some e =>
    obtain rfl : w' = w := h
    exact ⟨[], List.nil_sublist _, .refl _⟩
  | none =>
    obtain ⟨a, ha, rfl⟩ := h
    refine ⟨[r], List.Sublist.refl _, rfl, fun v => ?_⟩
    by_cases hv : v = uid
    · subst hv
      simpa using hok _ _ ha
    · have hsame : ((w.2.setAccount uid a).record [r]).account v = w.2.account v := by
        simp [Server.setAccount, hv]
      refine traced_of_eq (by rw [hsame]) (by rw [hsame]) ?_
      simp [hother v hv]

theorem AccountChange.kept_of_not_records {uid : String} {r : Request} {a b : Account}
    (h : AccountChange uid r a b) (hr : ¬ r.Records) :
    b.donates = a.donates ∧ b.paymentHistory = a.paymentHistory := by
  cases h with
  | kept | created | userSet | userUpdated => exact ⟨rfl, rfl⟩
  | paymentAdded | donateAdded | donateSet | donateDeleted => exact absurd trivial hr

/-- A recording is carried out at most once by its answer. -/
theorem carriesOut_answers {r : Request} {a : r.Response} (h : Answers w r a w') :
    ∃ t, (∀ r' ∈ t, r' = r) ∧ (r.Records → t.Sublist [r]) ∧ CarriesOut t w.2 w'.2 := by
  have hwritten : (∃ t, t.Sublist [r] ∧ CarriesOut t w.2 w'.2) →
      ∃ t, (∀ r' ∈ t, r' = r) ∧ (r.Records → t.Sublist [r]) ∧ CarriesOut t w.2 w'.2 := by
    rintro ⟨t, hsub, ht⟩
    exact ⟨t, fun r' hr' => List.mem_singleton.mp (hsub.subset hr'), fun _ => hsub, ht⟩
  -- the other requests touch neither pledges nor payments
  have hkept : ¬ r.Records →
      ∃ t, (∀ r' ∈ t, r' = r) ∧ (r.Records → t.Sublist [r]) ∧ CarriesOut t w.2 w'.2 := by
    intro hr
    obtain ⟨n, hn⟩ := answers_journal h
    have hsame := fun uid => (answers_account h uid).kept_of_not_records hr
    refine ⟨.replicate n r, fun _ => List.eq_of_mem_replicate, fun hrec => absurd hrec hr, hn,
      fun uid => traced_of_eq (hsame uid).1 (hsame uid).2 (List.filterMap_eq_nil_iff.mpr fun r' hr' => ?_)⟩
    obtain rfl := List.eq_of_mem_replicate hr'
    cases r' <;> first | rfl | exact absurd trivial hr
  cases r with
  | addPayment uid data =>
    simp only [Answers] at h
    refine hwritten (carriesOut_written (fun a b hab => ?_) (fun v hv => ?_) h)
    · obtain ⟨id, hid, rfl⟩ := hab
      exact traced_addPayment data hid
    · simp [Request.payment?, Ne.symm hv]
  | addDonate uid data =>
    simp only [Answers] at h
    refine hwritten (carriesOut_written (fun a b hab => ?_) (fun _ _ => rfl) h)
    obtain ⟨id, -, -, rfl⟩ := hab
    exact traced_addDonate data
  | setDonate uid id data =>
    simp only [Answers] at h
    refine hwritten (carriesOut_written (fun a b hab => ?_) (fun _ _ => rfl) h)
    obtain rfl : b = _ := hab
    exact traced_setDonate id data
  | deleteDonate uid id =>
    simp only [Answers] at h
    refine hwritten (carriesOut_written (fun a b hab => ?_) (fun _ _ => rfl) h)
    obtain rfl : b = _ := hab
    exact traced_deleteDonate id
  | _ => exact hkept id

theorem CarriesOut.of_journal (h : ∃ t, CarriesOut t s s') (hj : s'.journal = s.journal ++ t) :
    CarriesOut t s s' := by
  obtain ⟨t', ht'⟩ := h
  obtain rfl : t' = t := List.append_cancel_left (ht'.journal.symm.trans hj)
  exact ht'

/-- Whatever a program does, the journal accounts for it. -/
theorem carriesOut_yields {p : Prog} {h : List Frame} {l : List Effect} (hy : p.Yields Answers w h w' l) :
    ∃ t, CarriesOut t w.2 w'.2 := by
  obtain ⟨h', hs⟩ := hy
  have hruns := runs_env (R := fun s s' : Server => ∃ t, CarriesOut t s s') (fun s => ⟨[], .refl s⟩)
    (fun _ _ _ ⟨_, ht⟩ ⟨_, ht'⟩ => ⟨_, ht.trans ht'⟩)
    (fun _ _ _ _ ha => (carriesOut_answers ha).imp fun _ ht => ht.2.2) hs.1
  rwa [exec_env] at hruns

/-- A recording carries each of its requests out at most once. -/
theorem journal_records {answers : List (Answered Bool Request.Response)}
    (hr : ∀ a ∈ answers, a.1.1.Records) (h : ServesAll Answers w answers w') :
    ∃ t, t.Sublist (answers.map fun a => a.1.1) ∧ w'.2.journal = w.2.journal ++ t := by
  induction h with
  | nil w => exact ⟨[], List.nil_sublist _, by simp⟩
  | @cons w w₁ w₂ a answers ha _ ih =>
    obtain ⟨t, -, hsub, ht⟩ := carriesOut_answers ha
    obtain ⟨t', hsub', hj⟩ := ih fun b hb => hr b (List.mem_cons_of_mem a hb)
    refine ⟨t ++ t', ?_, by rw [hj, ht.journal, List.append_assoc]⟩
    exact (hsub (hr a List.mem_cons_self)).append hsub'

end Answers

/-! ## Confirmed checkouts -/

/-- A press of Complete Checkout: what was on the screen, and the device it was pressed on. -/
structure Confirmed where
  vc : DonateConfirmation
  device : Device

/-- The documents that a confirmed checkout writes or deletes: the payments of a one-time checkout
that is charged, the rows of any other. -/
def Confirmed.writes (c : Confirmed) : List Request :=
  match c.device.currentUser with
  | none => []
  | some uid =>
    if c.vc.isOneTimeMode = true ∧ ¬ c.vc.Skips c.device then
      c.vc.payments.map fun p => (DonateConfirmation.paymentWrite uid c.device.now p).1
    else (c.vc.donateItems.filterMap (DonateConfirmation.write? uid)).map Sigma.fst

/-- The checkout has the endpoint charge this amount. -/
def Confirmed.Charges (c : Confirmed) (amount : Int) (isOneTimeMode : Bool) : Prop :=
  ¬ c.vc.Skips c.device ∧ amount = c.vc.payAmount ∧ isOneTimeMode = c.vc.isOneTimeMode

/-- The requests of `t` record what the checkouts of `g` write, no oftener than they do, and charge
what they charge. -/
structure Warranted (g : List Confirmed) (t : List Request) : Prop where
  records : (t.filter Request.isRecord).Subperm (g.flatMap Confirmed.writes)
  charges : ∀ amount isOneTimeMode, .pay amount isOneTimeMode ∈ t →
    ∃ c ∈ g, c.Charges amount isOneTimeMode

section Warranted

variable {g g' : List Confirmed} {t t' : List Request}

theorem Warranted.append (h : Warranted g t) (h' : Warranted g' t') : Warranted (g ++ g') (t ++ t') where
  records := by
    rw [List.filter_append, List.flatMap_append]
    exact h.records.append h'.records
  charges amount mode hmem := by
    rcases List.mem_append.mp hmem with hmem | hmem
    · obtain ⟨c, hc, hcharges⟩ := h.charges amount mode hmem
      exact ⟨c, List.mem_append_left g' hc, hcharges⟩
    · obtain ⟨c, hc, hcharges⟩ := h'.charges amount mode hmem
      exact ⟨c, List.mem_append_right g hc, hcharges⟩

/-- What only browses needs no checkout. -/
theorem warranted_browses (h : ∀ r ∈ t, r.Browses) : Warranted [] t where
  records := by
    have hnil : t.filter Request.isRecord = [] := by
      refine List.filter_eq_nil_iff.mpr fun r hr => ?_
      simp [Request.isRecord_eq_false (.inl (h r hr))]
    rw [hnil]
    exact List.nil_subperm
  charges amount mode hmem := (h _ hmem).elim

/-- The requests of `t` record some of `writes`, each once, and charge nothing. -/
structure RecordsOnce (writes t : List Request) : Prop where
  records : (t.filter Request.isRecord).Subperm writes
  uncharged : ∀ amount isOneTimeMode, .pay amount isOneTimeMode ∉ t

variable {writes writes' : List Request}

theorem RecordsOnce.append (h : RecordsOnce writes t) (h' : RecordsOnce writes' t') : RecordsOnce (writes ++ writes') (t ++ t') where
  records := by
    rw [List.filter_append]
    exact h.records.append h'.records
  uncharged amount mode hmem :=
    (List.mem_append.mp hmem).elim (h.uncharged amount mode) (h'.uncharged amount mode)

theorem recordsOnce_updates (h : ∀ r ∈ t, ∃ uid data, r = .updateUser uid data) : RecordsOnce [] t := by
  have hbrowses : Warranted [] t := by
    refine warranted_browses fun r hr => ?_
    obtain ⟨uid, data, rfl⟩ := h r hr
    trivial
  exact ⟨hbrowses.records, fun amount mode hmem => by simpa using hbrowses.charges amount mode hmem⟩

/-- A checkout charges first, and then records. -/
theorem warranted_charged {c : Confirmed} {n : ℕ} (hs : n ≠ 0 → ¬ c.vc.Skips c.device)
    (h : RecordsOnce c.writes t) :
    Warranted [c] (.replicate n (.pay c.vc.payAmount c.vc.isOneTimeMode) ++ t) where
  records := by
    have hnil : (List.replicate n (Request.pay c.vc.payAmount c.vc.isOneTimeMode)).filter
        Request.isRecord = [] := by
      simp [Request.isRecord]
    rw [List.filter_append, hnil, List.nil_append, List.flatMap_singleton]
    exact h.records
  charges amount mode hmem := by
    rcases List.mem_append.mp hmem with hmem | hmem
    · obtain ⟨hn, he⟩ := List.mem_replicate.mp hmem
      cases he
      exact ⟨c, List.mem_singleton_self c, hs hn, rfl, rfl⟩
    · exact absurd hmem (h.uncharged amount mode)

end Warranted

namespace DonateConfirmation

variable {vc : DonateConfirmation} {w w' : World} {h : List Frame} {l : List Effect}

/-- A recording sends its writes for the user who is signed in, and then possibly the default amount. -/
theorem recordsOnce_recording {α : Type} {xs : List α}
    {write? : String → α → Option (Branch Bool Request.Response)} {writes : List Request}
    (hrecords : ∀ uid x b, write? uid x = some b → b.1.Records)
    (hwrites : ∀ uid, w.1.currentUser = some uid → (xs.filterMap (write? uid)).map Sigma.fst = writes)
    (hr : Recording Answers xs write? vc.sendToUpdateDonatesHandler w h w' l) :
    ∃ t, w'.2.journal = w.2.journal ++ t ∧ RecordsOnce writes t := by
  cases hr with
  | nothing _ hw => exact ⟨[], by simp [hw], List.nil_subperm, by simp⟩
  | signedOut _ _ hk =>
    obtain ⟨t, ht, hupdates⟩ := journal_handler hk
    have honce := recordsOnce_updates hupdates
    exact ⟨t, ht, honce.records.trans List.nil_subperm, honce.uncharged⟩
  | @answered uid answers w₂ _ _ hu _ hperm hserve hk =>
    have hrec := records_of_filterMap hrecords hperm
    obtain ⟨t, hsub, ht⟩ := journal_records hrec hserve
    obtain ⟨t', ht', hupdates⟩ := journal_handler hk
    have hanswers : (answers.map fun a => a.1.1).Perm writes := by
      rw [← hwrites uid hu]
      simpa [Function.comp_def] using hperm.map Sigma.fst
    have honce : RecordsOnce writes t := by
      refine ⟨(List.filter_sublist.trans hsub).subperm.trans hanswers.subperm, fun amount mode hmem => ?_⟩
      obtain ⟨a, ha, he⟩ := List.mem_map.mp (hsub.subset hmem)
      have hcharge := hrec a ha
      rw [he] at hcharge
      exact hcharge
    have hall := honce.append (recordsOnce_updates hupdates)
    rw [List.append_nil] at hall
    exact ⟨t ++ t', by rw [ht', ht, List.append_assoc], hall⟩

theorem recordsOnce_sendToUpdateDonates (c : Confirmed) (hu : w.1.currentUser = c.device.currentUser)
    (hc : c.vc.isOneTimeMode = true → c.vc.Skips c.device)
    (hy : c.vc.sendToUpdateDonates.Yields Answers w h w' l) :
    ∃ t, w'.2.journal = w.2.journal ++ t ∧ RecordsOnce c.writes t := by
  obtain ⟨l', -, hrecording⟩ := sendToUpdateDonates_cases hy
  refine recordsOnce_recording (fun uid item b => write?_records) (fun uid huid => ?_) hrecording
  have hmode : ¬ (c.vc.isOneTimeMode = true ∧ ¬ c.vc.Skips c.device) := fun h => h.2 (hc h.1)
  rw [Confirmed.writes, ← hu, huid]
  exact (if_neg hmode).symm

theorem recordsOnce_addOneTimePaymentToFirebase (c : Confirmed) (hu : w.1 = c.device)
    (hm : c.vc.isOneTimeMode = true) (hs : ¬ c.vc.Skips c.device)
    (hy : c.vc.addOneTimePaymentToFirebase.Yields Answers w h w' l) :
    ∃ t, w'.2.journal = w.2.journal ++ t ∧ RecordsOnce c.writes t := by
  obtain ⟨l', -, hrecording⟩ := addOneTimePaymentToFirebase_cases hy
  refine recordsOnce_recording (fun uid p b hb => ?_) (fun uid huid => ?_) hrecording
  · cases hb
    trivial
  · have hwrites : c.writes = c.vc.payments.map fun p => (paymentWrite uid w.1.now p).1 := by
      rw [Confirmed.writes, ← hu, huid]
      exact if_pos ⟨hm, hu ▸ hs⟩
    simp [hwrites, Function.comp_def]

/-- A press charges and writes what it confirms. -/
theorem warranted_press (hp : vc.Presses w w' l) :
    ∃ t, w'.2.journal = w.2.journal ++ t ∧ Warranted [⟨vc, w.1⟩] t := by
  have hcharged : ∀ n t, (n ≠ 0 → ¬ vc.Skips w.1) → w'.2.journal = (vc.charged n w).2.journal ++ t →
      RecordsOnce (Confirmed.writes ⟨vc, w.1⟩) t →
      ∃ t, w'.2.journal = w.2.journal ++ t ∧ Warranted [⟨vc, w.1⟩] t := by
    intro n t hs hj ht
    refine ⟨_, ?_, warranted_charged hs ht⟩
    rw [hj, charged, Server.record_journal, List.append_assoc]
  rcases presses_iff.mp hp with ⟨hskip, hy⟩ | ⟨hs, n, -, rfl, -⟩ | ⟨hs, -, n, -, hy⟩
  · obtain ⟨t, ht, honce⟩ := recordsOnce_sendToUpdateDonates ⟨vc, w.1⟩ rfl (fun _ => hskip) hy
    refine hcharged 0 t (absurd rfl) ?_ honce
    simpa [charged] using ht
  · exact hcharged n [] (fun _ => hs) (by simp) ⟨List.nil_subperm, by simp⟩
  · rw [recording] at hy
    cases hm : vc.isOneTimeMode with
    | true =>
      rw [hm, if_pos rfl] at hy
      obtain ⟨t, ht, honce⟩ := recordsOnce_addOneTimePaymentToFirebase (w := vc.charged n w) ⟨vc, w.1⟩ rfl hm hs hy
      exact hcharged n t (fun _ => hs) ht honce
    | false =>
      rw [hm, if_neg (by simp)] at hy
      have hmode : vc.isOneTimeMode = true → vc.Skips w.1 := fun h => absurd (hm.symm.trans h) (by simp)
      obtain ⟨w₁, l₁, l₂, htips, -, hk⟩ := addTips_cases hy
      cases htips with
      | skipped | signedOut | rejected =>
        obtain ⟨t, ht, honce⟩ :=
          recordsOnce_sendToUpdateDonates (w := vc.charged n w) ⟨vc, w.1⟩ rfl hmode hk
        exact hcharged n t (fun _ => hs) ht honce
      | @written uid old _ _ _ =>
        obtain ⟨t, ht, honce⟩ := recordsOnce_sendToUpdateDonates
          (w := (vc.charged n w).userUpdated uid old _ _) ⟨vc, w.1⟩ rfl hmode hk
        have htip : RecordsOnce [] [.updateUser uid { tipsAmount := some vc.tipsAmount }] :=
          recordsOnce_updates (by simp)
        refine hcharged n _ (fun _ => hs) ?_ (htip.append honce)
        rw [ht, List.singleton_append]
        simp [World.userUpdated]

end DonateConfirmation

/-! ## Runs of the app -/

/-- The checkouts confirmed so far, in the order of their presses. -/
def confirm (g : List Confirmed) (a : App) (e : Interaction × List Effect) (_ : App) : List Confirmed :=
  match e.1, a.page with
  | .completeCheckoutButtonPressed, .bucket _ ⟨_, .confirmation vc⟩ => g ++ [⟨vc, a.world.1⟩]
  | _, _ => g

section History

variable {a₀ a a' : App} {g : List Confirmed} {i : Interaction} {l : List Effect}

/-- A program that browses sends nothing that a checkout would have to warrant. -/
theorem warranted_within {P : MyBucket → Prop} {p : Prog} {w w' : World} {h : List Frame}
    (hp : p.Within (browsing P)) (hy : p.Yields Answers w h w' l) :
    ∃ t, w'.2.journal = w.2.journal ++ t ∧ Warranted [] t := by
  have hrespects : Respects (browsing P) Answers fun w w' =>
      ∃ t, w'.2.journal = w.2.journal ++ t ∧ ∀ r ∈ t, r.Browses := by
    refine ⟨fun w => ⟨[], by simp⟩, ?_, fun w f _ => ⟨[], by simp⟩, fun w r a w' hr ha => ?_⟩
    · rintro w₁ w₂ w₃ ⟨t, ht, hbrowses⟩ ⟨t', ht', hbrowses'⟩
      refine ⟨t ++ t', by rw [ht', ht, List.append_assoc], fun r hr => ?_⟩
      exact (List.mem_append.mp hr).elim (hbrowses r) (hbrowses' r)
    · obtain ⟨n, hn⟩ := answers_journal ha
      refine ⟨_, hn, fun r' hr' => ?_⟩
      rw [List.eq_of_mem_replicate hr']
      exact hr
  obtain ⟨t, ht, hbrowses⟩ := (within_yields hrespects hp hy).1
  exact ⟨t, ht, warranted_browses hbrowses⟩

/-- What one touch records and charges is what it confirms. -/
theorem warranted_step (hs : App.Step (fun _ => Answers) a (i, l) a') :
    ∃ t g', confirm g a (i, l) a' = g ++ g' ∧ CarriesOut t a.world.2 a'.world.2 ∧ Warranted g' t := by
  obtain ⟨b, p, w', hpress, hy, rfl⟩ := hs
  dsimp only at hpress hy
  rw [App.foldl_shown_world]
  have hcarries := carriesOut_yields hy
  have hbrowses : ∀ {P}, p.Within (browsing P) → b.world.2 = a.world.2 → i ≠ .completeCheckoutButtonPressed →
      ∃ t g', confirm g a (i, l) (l.foldl App.shown { b with world := w' }) = g ++ g' ∧
        CarriesOut t a.world.2 w'.2 ∧ Warranted g' t := by
    intro P hp hb hne
    obtain ⟨t, ht, hw⟩ := warranted_within hp hy
    refine ⟨t, [], ?_, hb ▸ CarriesOut.of_journal hcarries ht, hw⟩
    unfold confirm
    split
    · rename_i he _
      exact absurd he hne
    · exact (List.append_nil g).symm
  cases App.press_cases hpress with
  | calls hi =>
    refine hbrowses (P := fun _ => False) (within_call hi) rfl ?_
    rintro rfl
    cases hi
  | leads hl =>
    refine hbrowses (P := fun _ => False) trivial rfl ?_
    rintro rfl
    cases hl
  | adjusts | signedOut | event => exact hbrowses (P := fun _ => False) trivial rfl (by simp)
  | @opens _ _ vc _ ho =>
    refine hbrowses (within_viewDidLoad vc) (world_opens ho).1 ?_
    rintro rfl
    cases ho
  | @checkout below bucket vc hp =>
    obtain ⟨t, ht, hw⟩ := DonateConfirmation.warranted_press hy
    refine ⟨t, _, ?_, CarriesOut.of_journal hcarries ht, hw⟩
    simp [confirm, hp]
  | logout hp =>
    have hserver : w'.2 = a.world.2 := by
      rcases Settings.yields_logoutButtonPressed.mp hy with ⟨-, -, rfl⟩ | ⟨-, -, rfl⟩ <;> rfl
    refine ⟨[], [], by simp [confirm], ?_, warranted_browses (by simp)⟩
    rw [hserver]
    exact .refl _

/-- Ann on the screen that confirms her checkout. -/
def annConfirming : App :=
  { world := (annRead, annDonor.world.2)
    page := .bucket .root ⟨hungerLoaded, .confirmation hungerCheckout⟩ }

/-- She confirms it, and of the two pledges one is stored. -/
theorem history_annConfirming : ∃ a : App,
    History (recorded (App.Step fun _ => Answers) confirm) (fun _ _ => True) (annConfirming, [])
      (a, [⟨hungerCheckout, annRead⟩]) ∧ a.world.2.Pledged "ann" "kitchen" := by
  obtain ⟨w', hpress, -, hpledged⟩ := exists_half_recorded (w := annConfirming.world) rfl rfl rfl
  have hstep : App.Step (fun _ => Answers) annConfirming (.completeCheckoutButtonPressed, _) _ :=
    ⟨_, _, w', rfl, hpress, rfl⟩
  exact ⟨_, History.note .refl trivial hstep, hpledged⟩

theorem exists_warranted
    (h : History (recorded (App.Step fun _ => Answers) confirm) (fun _ _ => True) (a₀, []) (a, g)) :
    ∃ t, CarriesOut t a₀.world.2 a.world.2 ∧ Warranted g t := by
  refine h.invariant (I := fun s => ∃ t, CarriesOut t a₀.world.2 s.1.world.2 ∧ Warranted s.2 t) ?_
    ⟨[], .refl _, warranted_browses (by simp)⟩
  rintro ⟨b, g⟩ ⟨i, l⟩ ⟨b', g'⟩ ⟨t, ht, hw⟩ - ⟨hs, hg⟩
  obtain ⟨t', g₁, hg₁, ht', hw'⟩ := warranted_step hs
  refine ⟨t ++ t', ht.trans ht', ?_⟩
  rw [show g' = g ++ g₁ from hg.trans hg₁]
  exact hw.append hw'

/-- However the app is used, every pledge or payment document that is written or deleted is one that a
confirmed checkout writes or deletes, for the user who confirmed it and no oftener than that; and every
charge is that of a confirmed checkout whose total was not the recorded one. -/
theorem warranted_of_history
    (h : History (recorded (App.Step fun _ => Answers) confirm) (fun _ _ => True) (a₀, []) (a, g)) :
    ∃ t, a.world.2.journal = a₀.world.2.journal ++ t ∧ Warranted g t := by
  obtain ⟨t, ht, hw⟩ := exists_warranted h
  exact ⟨t, ht.journal, hw⟩

theorem warranted_of_history_ann : ∃ (a : App) (t : List Request), a.world.2.Pledged "ann" "kitchen" ∧
    a.world.2.journal = annConfirming.world.2.journal ++ t ∧ Warranted [⟨hungerCheckout, annRead⟩] t := by
  obtain ⟨a, hrun, hpledged⟩ := history_annConfirming
  obtain ⟨t, hj, ht⟩ := warranted_of_history hrun
  exact ⟨a, t, hpledged, hj, ht⟩

end History

/-! ## What is stored -/

namespace Confirmed

/-- The payments recorded for `uid` by a confirmed checkout. -/
def payments (uid : String) (c : Confirmed) : List PaymentDoc :=
  if c.device.currentUser = some uid ∧ c.vc.isOneTimeMode = true ∧ ¬ c.vc.Skips c.device then
    c.vc.payments.map fun p => { amount := some p.2, organisation := some p.1, date := some c.device.now }
  else []

variable {c : Confirmed} {uid id : String} {r : Request}

theorem mem_writes (hr : r ∈ c.writes) : ∃ v, c.device.currentUser = some v ∧
    ((∃ p ∈ c.vc.payments, r = (DonateConfirmation.paymentWrite v c.device.now p).1) ∨
      ∃ item ∈ c.vc.donateItems, ∃ b, DonateConfirmation.write? v item = some b ∧ b.1 = r) := by
  unfold writes at hr
  split at hr
  · cases hr
  · rename_i v hv
    refine ⟨v, hv, ?_⟩
    split at hr
    · obtain ⟨p, hp, rfl⟩ := List.mem_map.mp hr
      exact .inl ⟨p, hp, rfl⟩
    · obtain ⟨b, hb, rfl⟩ := List.mem_map.mp hr
      obtain ⟨item, hitem, hwrite⟩ := List.mem_filterMap.mp hb
      exact .inr ⟨item, hitem, b, hwrite, rfl⟩

/-- A pledge is written from a row with an amount, its organisation only where the row has no
document. -/
theorem pledge?_of_mem_writes {data : DonateDoc} (hr : r ∈ c.writes) (hd : r.pledge? uid id = some data) :
    c.device.currentUser = some uid ∧ ∃ item ∈ c.vc.donateItems, 0 < item.amount ∧
      data.amount = some item.amount ∧
      (item.donateId = some id ∧ data.organisation = none ∨
        item.donateId = none ∧ data.organisation = some item.organisation.id) := by
  obtain ⟨v, hv, ⟨p, -, rfl⟩ | ⟨⟨amount, organisation, donateId⟩, hitem, b, hb, rfl⟩⟩ := mem_writes hr
  · cases hd
  · cases donateId <;> by_cases hpos : 0 < amount <;>
      simp only [DonateConfirmation.write?, hpos, if_true, if_false, reduceCtorEq, Option.some.injEq] at hb <;>
      subst hb <;> simp only [Request.pledge?, reduceCtorEq, Option.ite_none_right_eq_some] at hd
    · obtain ⟨rfl, hd⟩ := hd
      cases hd
      exact ⟨hv, _, hitem, hpos, rfl, .inr ⟨rfl, rfl⟩⟩
    · obtain ⟨⟨rfl, rfl⟩, hd⟩ := hd
      cases hd
      exact ⟨hv, _, hitem, hpos, rfl, .inl ⟨rfl, rfl⟩⟩

theorem deleteDonate_of_mem_writes (hr : .deleteDonate uid id ∈ c.writes) :
    c.device.currentUser = some uid ∧
      ∃ item ∈ c.vc.donateItems, item.donateId = some id ∧ ¬ 0 < item.amount := by
  obtain ⟨v, hv, ⟨p, -, he⟩ | ⟨⟨amount, organisation, donateId⟩, hitem, b, hb, he⟩⟩ := mem_writes hr
  · cases he
  · cases donateId <;> by_cases hpos : 0 < amount <;>
      simp only [DonateConfirmation.write?, hpos, if_true, if_false, reduceCtorEq, Option.some.injEq] at hb <;>
      subst hb <;> cases he
    exact ⟨hv, _, hitem, rfl, hpos⟩

/-- The payments among the writes. -/
theorem filterMap_payment?_writes (c : Confirmed) : c.writes.filterMap (Request.payment? uid) = c.payments uid := by
  unfold writes payments
  cases hu : c.device.currentUser with
  | none => rfl
  | some v =>
    dsimp only
    split
    case isTrue hmode =>
      by_cases hv : v = uid
      · subst hv
        rw [if_pos ⟨rfl, hmode⟩, List.filterMap_map]
        simp [DonateConfirmation.paymentWrite, Request.payment?, Function.comp_def]
      · rw [if_neg (by simp [hv]), List.filterMap_map]
        simp [DonateConfirmation.paymentWrite, Request.payment?, hv, Function.comp_def]
    case isFalse hmode =>
      rw [if_neg fun h => hmode h.2]
      refine List.filterMap_eq_nil_iff.mpr fun r hr => ?_
      obtain ⟨b, hb, rfl⟩ := List.mem_map.mp hr
      obtain ⟨item, -, hwrite⟩ := List.mem_filterMap.mp hb
      have hpayment := (DonateConfirmation.write?_ne_addPayment hwrite).1
      cases hr : b.1 <;> first | rfl | exact absurd hr (hpayment _ _)

end Confirmed

/-- What account `b` holds and `a` does not comes from the checkouts of `g` that user `uid` confirmed. -/
structure Sourced (g : List Confirmed) (uid : String) (a b : Account) : Prop where
  amount : ∀ id data amount, b.donates.lookup id = some data → data.amount = some amount →
    (∃ old, a.donates.lookup id = some old ∧ old.amount = some amount) ∨
      ∃ c ∈ g, c.device.currentUser = some uid ∧ ∃ item ∈ c.vc.donateItems, 0 < amount ∧
        item.amount = amount ∧ (item.donateId = some id ∨ item.donateId = none)
  organisation : ∀ id data organisationId, b.donates.lookup id = some data →
    data.organisation = some organisationId →
    (∃ old, a.donates.lookup id = some old ∧ old.organisation = some organisationId) ∨
      ∃ c ∈ g, c.device.currentUser = some uid ∧ ∃ item ∈ c.vc.donateItems, 0 < item.amount ∧
        item.donateId = none ∧ item.organisation.id = organisationId
  removed : ∀ id ∈ a.donates, id ∉ b.donates → ∃ c ∈ g, c.device.currentUser = some uid ∧
    ∃ item ∈ c.vc.donateItems, item.donateId = some id ∧ ¬ 0 < item.amount
  payments : ∃ added, b.paymentHistory.entries.Perm (added ++ a.paymentHistory.entries) ∧
    (added.map Sigma.snd).Subperm (g.flatMap (Confirmed.payments uid))

section Sourced

variable {g : List Confirmed} {t : List Request} {uid : String} {a b : Account}

theorem Warranted.exists_of_mem (h : Warranted g t) {r : Request} (hr : r ∈ t) (hrec : r.isRecord = true) :
    ∃ c ∈ g, r ∈ c.writes :=
  List.mem_flatMap.mp (h.records.subset (List.mem_filter.mpr ⟨hr, hrec⟩))

theorem sourced_of_traced (ht : Traced uid t a b) (hw : Warranted g t) : Sourced g uid a b where
  amount id data amount hlookup hamount := by
    refine (ht.amount id data amount hlookup hamount).imp_right ?_
    rintro ⟨r, hr, written, hwritten, hv⟩
    have hrec : r.isRecord = true := by cases r <;> first | rfl | cases hwritten
    obtain ⟨c, hc, hmem⟩ := hw.exists_of_mem hr hrec
    obtain ⟨hu, item, hitem, hpos, hitemAmount, hid⟩ := Confirmed.pledge?_of_mem_writes hmem hwritten
    obtain rfl : item.amount = amount := Option.some.inj (hitemAmount.symm.trans hv)
    exact ⟨c, hc, hu, item, hitem, hpos, rfl, hid.imp And.left And.left⟩
  organisation id data organisationId hlookup horganisation := by
    refine (ht.organisation id data organisationId hlookup horganisation).imp_right ?_
    rintro ⟨r, hr, written, hwritten, hv⟩
    have hrec : r.isRecord = true := by cases r <;> first | rfl | cases hwritten
    obtain ⟨c, hc, hmem⟩ := hw.exists_of_mem hr hrec
    obtain ⟨hu, item, hitem, hpos, -, ⟨-, hnone⟩ | ⟨hid, hsome⟩⟩ :=
      Confirmed.pledge?_of_mem_writes hmem hwritten
    · exact absurd (hnone.symm.trans hv) (by simp)
    · exact ⟨c, hc, hu, item, hitem, hpos, hid, Option.some.inj (hsome.symm.trans hv)⟩
  removed id ha hb := by
    obtain ⟨c, hc, hmem⟩ := hw.exists_of_mem (ht.removed id ha hb) rfl
    exact ⟨c, hc, Confirmed.deleteDonate_of_mem_writes hmem⟩
  payments := by
    obtain ⟨added, hadded, hdocs⟩ := ht.payments
    refine ⟨added, hadded, hdocs.subperm.trans ?_⟩
    have hfilter : t.filterMap (Request.payment? uid) =
        (t.filter Request.isRecord).filterMap (Request.payment? uid) := by
      rw [List.filterMap_filter]
      refine List.filterMap_congr fun r _ => ?_
      cases r <;> rfl
    have hwrites : (g.flatMap Confirmed.writes).filterMap (Request.payment? uid) =
        g.flatMap (Confirmed.payments uid) := by
      rw [List.filterMap_flatMap]
      exact List.flatMap_congr fun c _ => Confirmed.filterMap_payment?_writes c
    rw [hfilter, ← hwrites]
    obtain ⟨l, hl, hsub⟩ := hw.records
    exact ⟨_, hl.filterMap _, hsub.filterMap _⟩

/-- However the app is used, what is stored for a user since then comes from the checkouts that this
user confirmed: the amount of a pledge from a row with that amount, its organisation from a row without
a document, each new payment from one of a charged one-time checkout; and a pledge that is gone was on
a row without an amount. -/
theorem sourced_of_history {a₀ a : App}
    (h : History (recorded (App.Step fun _ => Answers) confirm) (fun _ _ => True) (a₀, []) (a, g))
    (uid : String) : Sourced g uid (a₀.world.2.account uid) (a.world.2.account uid) := by
  obtain ⟨t, ht, hw⟩ := exists_warranted h
  exact sourced_of_traced (ht.account uid) hw

theorem sourced_of_history_ann : ∃ a : App, a.world.2.Pledged "ann" "kitchen" ∧
    Sourced [⟨hungerCheckout, annRead⟩] "ann" (annConfirming.world.2.account "ann")
      (a.world.2.account "ann") := by
  obtain ⟨a, hrun, hpledged⟩ := history_annConfirming
  exact ⟨a, hpledged, sourced_of_history hrun "ann"⟩

end Sourced

end Pledge
