import Mathlib.Algebra.BigOperators.Group.Finset.Basic
import Pledge.Format.MachineInt
import Pledge.Isolation
import Pledge.RetriedWrites

/-!
# How much an organisation has raised

The screen adds up the pledges that all users have for an organisation. What a checkout changes about
it are the rows of that organisation.
-/

namespace Pledge

open EventLoop

/-! ## The screen -/

structure HowMuchRaisedViewController where
  organisation : OrganisationItem
  totalRaisedLabel : String := "..."
  peopleLabel : String := "..."
deriving DecidableEq, Repr

namespace HowMuchRaisedViewController

/-- `"$\(raised) USD"` with a float, until the pledges are there. -/
def viewDidLoad (vc : HowMuchRaisedViewController) : HowMuchRaisedViewController :=
  { vc with
    totalRaisedLabel := "$" ++ Binary32.description 0 ++ " USD"
    peopleLabel := MachineInt.description 0 ++ " people" }

/-- `raised += $0.amount`, which traps when it overflows. -/
def raised? (donates : List DonateItemRef) : Option Int :=
  donates.foldlM (fun raised donate => MachineInt.add? raised donate.amount) 0

def showing (vc : HowMuchRaisedViewController) (raised : Int) (people : ℕ) : HowMuchRaisedViewController :=
  { vc with
    totalRaisedLabel := "$" ++ MachineInt.description raised ++ " USD"
    peopleLabel := MachineInt.description people ++ " people" }

def updateUI (vc : HowMuchRaisedViewController) (donates : List DonateItemRef) : Option HowMuchRaisedViewController :=
  (raised? donates).map fun raised => vc.showing raised donates.length

/-- The completion of `fetchDonatesForOrganisation`, and the toast that it shows. -/
def donatesFetched (vc : HowMuchRaisedViewController) :
    Option (List DonateItemRef) → Option (HowMuchRaisedViewController × Option String)
  | some donates => (vc.updateUI donates).map fun vc => (vc, none)
  | none => some (vc, some Constants.Error.unexpectedError)

theorem donatesFetched_eq_some_iff {vc shown : HowMuchRaisedViewController} {donates : List DonateItemRef} :
    vc.donatesFetched (some donates) = some (shown, none) ↔
      ∃ raised, raised? donates = some raised ∧ vc.showing raised donates.length = shown := by
  simp [donatesFetched, updateUI]

theorem foldlM_add? {donates : List DonateItemRef} {start raised : Int}
    (h : donates.foldlM (fun raised donate => MachineInt.add? raised donate.amount) start = some raised) :
    raised = start + (donates.map (·.amount)).sum := by
  induction donates generalizing start with
  | nil =>
    obtain rfl : start = raised := Option.some.inj h
    simp
  | cons donate donates ih =>
    rw [List.foldlM_cons, Option.bind_eq_bind, Option.bind_eq_some_iff] at h
    obtain ⟨next, hnext, hrest⟩ := h
    rw [ih hrest, ← (MachineInt.add?_eq_some_iff.mp hnext).2, List.map_cons, List.sum_cons]
    omega

theorem raised?_eq_sum {donates : List DonateItemRef} {raised : Int} (h : raised? donates = some raised) :
    raised = (donates.map (·.amount)).sum := by
  rw [foldlM_add? h, Int.zero_add]

end HowMuchRaisedViewController

/-! ## Pledges of all users -/

/-- What a pledge counts for organisation `o`. -/
def DonateDoc.weight (f : Int → Int) (o : String) (data : DonateDoc) : Int :=
  if data.organisation = some o then (data.amount.map f).getD 0 else 0

def weigh (f : Int → Int) (o : String) (documents : List DonateDoc) : Int :=
  (documents.map (·.weight f o)).sum

/-- The pledges for `o` in one collection. -/
def Collection.pledgesFor (c : Collection DonateDoc) (o : String) : List (Document DonateDoc) :=
  (c.entries.filter fun e => e.2.organisation = some o).map fun e => ⟨e.1, some e.2⟩

/-- What a query over the collections of all users may find: the pledges for `o`, in some order. -/
def Server.Found (s : Server) (o : String) (found : List (Document DonateDoc)) : Prop :=
  ∃ uids : Finset String, (∀ uid, (s.account uid).donates ≠ ∅ → uid ∈ uids) ∧
    found.Perm (uids.toList.flatMap fun uid => Collection.pledgesFor (s.account uid).donates o)

variable {f : Int → Int} {o : String} {documents documents' : List DonateDoc}

theorem weigh_perm (h : documents.Perm documents') : weigh f o documents = weigh f o documents' :=
  (h.map _).sum_eq

theorem weigh_append : weigh f o (documents ++ documents') = weigh f o documents + weigh f o documents' := by
  simp [weigh]

theorem sum_pledgesFor (c : Collection DonateDoc) :
    (((c.pledgesFor o).filterMap DonateItemRef.init?).map fun ref => f ref.amount).sum = weigh f o c.documents := by
  unfold Collection.pledgesFor Collection.documents weigh
  rw [List.filterMap_map, List.map_map]
  generalize c.entries = entries
  induction entries with
  | nil => rfl
  | cons e entries ih =>
    obtain ⟨id, amount, organisation⟩ := e
    rw [List.map_cons, List.sum_cons, ← ih]
    by_cases horganisation : organisation = some o
    · subst horganisation
      rw [List.filter_cons_of_pos (by simp)]
      cases amount with
      | none =>
        rw [List.filterMap_cons_none rfl]
        simp [DonateDoc.weight]
      | some amount => simp [DonateItemRef.init?, DonateDoc.weight]
    · simp [DonateDoc.weight, horganisation]

/-- The answer weighs what the users' collections weigh together. -/
theorem Server.Found.sum_eq {s : Server} {found : List (Document DonateDoc)} (h : s.Found o found) :
    ∃ uids : Finset String, ∀ uids', uids ⊆ uids' →
      ((found.filterMap DonateItemRef.init?).map fun ref => f ref.amount).sum =
        ∑ uid ∈ uids', weigh f o (Collection.documents (s.account uid).donates) := by
  obtain ⟨uids, hall, hperm⟩ := h
  refine ⟨uids, fun uids' hsub => ?_⟩
  have hsum : ((found.filterMap DonateItemRef.init?).map fun ref => f ref.amount).sum =
      ∑ uid ∈ uids, weigh f o (Collection.documents (s.account uid).donates) := by
    rw [((hperm.filterMap _).map _).sum_eq, ← Finset.sum_map_toList]
    generalize uids.toList = l
    induction l with
    | nil => rfl
    | cons uid l ih => simp [ih, sum_pledgesFor]
  rw [hsum]
  refine Finset.sum_subset hsub fun uid _ hnot => ?_
  have hempty : (s.account uid).donates = ∅ := by
    by_contra hne
    exact hnot (hall uid hne)
  rw [hempty]
  rfl

/-! ## Rows -/

/-- The rows of a checkout that keep something for `o`. -/
def keptFor (o : String) (rows : List OrganisationWithAmount) : List OrganisationWithAmount :=
  (kept rows).filter (·.organisation.id = o)

/-- What was stored under the ids of the rows. -/
def replaced (donates : Collection DonateDoc) (rows : List OrganisationWithAmount) : List DonateDoc :=
  (donateIds rows).filterMap donates.lookup

namespace Collection

variable {α : Type} {id : String} {ids : List String}

theorem map_filter_key {entries : List (Sigma fun _ : String => α)} (hn : entries.NodupKeys) (id : String) :
    (entries.filter fun e => e.1 = id).map Sigma.snd = (entries.dlookup id).toList := by
  induction entries with
  | nil => rfl
  | cons e entries ih =>
    obtain ⟨hnot, hrestKeys⟩ := List.nodupKeys_cons.mp hn
    obtain ⟨key, value⟩ := e
    by_cases he : key = id
    · subst he
      have hrest := ih hrestKeys
      rw [List.dlookup_eq_none.mpr hnot] at hrest
      rw [List.filter_cons_of_pos (by simp), List.map_cons, hrest, List.dlookup_cons_eq]
      rfl
    · rw [List.filter_cons_of_neg (by simpa using he), ih hrestKeys]
      exact congrArg Option.toList (List.dlookup_cons_ne entries ⟨key, value⟩ (Ne.symm he)).symm

theorem without_perm (c : Collection α) (hid : id ∉ ids) :
    (c.without ids).Perm ((c.lookup id).toList ++ c.without (id :: ids)) := by
  have hsplit := List.filter_append_perm (fun e : Sigma fun _ : String => α => e.1 = id)
    (c.entries.filter fun e => e.1 ∉ ids)
  have hkey : (c.entries.filter fun e => e.1 ∉ ids).filter (fun e => e.1 = id) =
      c.entries.filter fun e => e.1 = id := by
    rw [List.filter_filter]
    refine List.filter_congr fun e _ => ?_
    by_cases he : e.1 = id <;> simp [he, hid]
  have hrest : (c.entries.filter fun e => e.1 ∉ ids).filter (fun e => !decide (e.1 = id)) =
      c.entries.filter fun e => e.1 ∉ id :: ids := by
    rw [List.filter_filter]
    refine List.filter_congr fun e _ => ?_
    by_cases he : e.1 = id <;> simp [he]
  rw [hkey, hrest] at hsplit
  have hmap := (hsplit.map Sigma.snd).symm
  rwa [List.map_append, map_filter_key c.nodupKeys] at hmap

/-- The documents under some ids, and the others. -/
theorem documents_perm (c : Collection α) (hn : ids.Nodup) :
    c.documents.Perm (ids.filterMap c.lookup ++ c.without ids) := by
  induction ids with
  | nil => rw [without_nil, List.filterMap_nil, List.nil_append]
  | cons id ids ih =>
    obtain ⟨hid, hn⟩ := List.nodup_cons.mp hn
    refine (ih hn).trans ?_
    refine ((without_perm c hid).append_left _).trans ?_
    have hcons : (id :: ids).filterMap c.lookup = (c.lookup id).toList ++ ids.filterMap c.lookup := by
      cases hl : c.lookup id <;> simp [hl]
    rw [hcons, ← List.append_assoc]
    exact List.perm_append_comm.append_right _

end Collection

/-! ## A checkout -/

namespace DonateConfirmation

variable {vc : DonateConfirmation} {w w' : World} {l : List Effect} {uid : String}

theorem write?_ofUser {item : OrganisationWithAmount} {b : Branch Bool Request.Response}
    (h : write? uid item = some b) : b.1.OfUser uid := by
  obtain ⟨amount, organisation, donateId⟩ := item
  cases donateId <;> by_cases hpos : 0 < amount <;> simp [write?, hpos] at h <;> subst h <;> rfl

/-- The writes of a checkout leave the pledges of others alone. -/
theorem donates_writes_ne {success : Bool} (hw : vc.Writes uid w w' success) {v : String} (hv : v ≠ uid) :
    (w'.2.account v).donates = (w.2.account v).donates := by
  obtain ⟨w₁, w₂, answers, hbefore, hperm, hserve, hafter, -⟩ := hw.answered
  have hanswers : ∀ a ∈ answers, ∃ item, write? uid item = some a.1 := fun a ha =>
    (answer_of_perm hperm ha).imp fun item hitem => hitem.2
  have hsame : (w₂.2.account v).donates = (w₁.2.account v).donates := by
    clear hperm hbefore hafter
    induction hserve with
    | nil => rfl
    | @cons _ _ _ a answers ha _ ih =>
      rw [ih fun b hb => hanswers b (List.mem_cons_of_mem a hb)]
      obtain ⟨item, hitem⟩ := hanswers a List.mem_cons_self
      rw [accountChange_of_ne (write?_ofUser hitem) hv.symm (answers_account ha v)]
  rw [(hafter v).1, hsame, (hbefore v).1]

/-- What the user's pledges weigh for `o` changes by the rows of `o`. -/
theorem weigh_writes (hn : (donateIds vc.donateItems).Nodup)
    (hrows : ∀ row ∈ vc.donateItems, ∀ id, row.donateId = some id → w.2.Stores uid id row.organisation.id)
    (hw : vc.Writes uid w w' true) (f : Int → Int) (o : String) :
    weigh f o (Collection.documents (w'.2.account uid).donates) +
        weigh f o (replaced (w.2.account uid).donates vc.donateItems) =
      weigh f o (Collection.documents (w.2.account uid).donates) +
        ((keptFor o vc.donateItems).map fun row => f row.amount).sum := by
  have hused : ∀ id ∈ donateIds vc.donateItems, w.2.Used uid id := by
    intro id hid
    obtain ⟨row, hrow, hdonateId⟩ := List.mem_filterMap.mp hid
    obtain ⟨data, hdata, -⟩ := hrows row hrow id hdonateId
    exact .inl (AList.lookup_isSome.mp (by rw [hdata]; rfl))
  have hafter := (documents_writes hw hn hused).1
  have hbefore := Collection.documents_perm (w.2.account uid).donates hn
  have hkept : weigh f o ((kept vc.donateItems).map (·.stored (w.2.account uid).donates)) =
      ((keptFor o vc.donateItems).map fun row => f row.amount).sum := by
    have hweight : ∀ row ∈ kept vc.donateItems, (row.stored (w.2.account uid).donates).weight f o =
        if row.organisation.id = o then f row.amount else 0 := by
      intro row hrow
      have hmem := List.mem_of_mem_filter hrow
      unfold OrganisationWithAmount.stored
      cases hid : row.donateId with
      | none => simp [OrganisationWithAmount.pledge, DonateDoc.weight]
      | some id =>
        obtain ⟨data, hdata, horganisation⟩ := hrows row hmem id hid
        simp [hdata, DonateDoc.merge, DonateDoc.weight, horganisation]
    unfold weigh keptFor
    rw [List.map_map]
    refine (congrArg List.sum (List.map_congr_left hweight)).trans ?_
    generalize kept vc.donateItems = rows
    induction rows with
    | nil => rfl
    | cons row rows ih => by_cases ho : row.organisation.id = o <;> simp [ho, ih]
  rw [weigh_perm hafter, weigh_perm hbefore, weigh_append, weigh_append, hkept]
  unfold replaced
  omega

/-- What all users' pledges weigh for `o` changes by the rows of `o`. -/
theorem sum_found_writes (hn : (donateIds vc.donateItems).Nodup)
    (hrows : ∀ row ∈ vc.donateItems, ∀ id, row.donateId = some id → w.2.Stores uid id row.organisation.id)
    (hw : vc.Writes uid w w' true) (f : Int → Int) {o : String}
    {found found' : List (Document DonateDoc)} (hfound : w.2.Found o found) (hfound' : w'.2.Found o found') :
    ((found'.filterMap DonateItemRef.init?).map fun ref => f ref.amount).sum +
        weigh f o (replaced (w.2.account uid).donates vc.donateItems) =
      ((found.filterMap DonateItemRef.init?).map fun ref => f ref.amount).sum +
        ((keptFor o vc.donateItems).map fun row => f row.amount).sum := by
  obtain ⟨uids, hsum⟩ := hfound.sum_eq (f := f)
  obtain ⟨uids', hsum'⟩ := hfound'.sum_eq (f := f)
  -- users enough for both answers
  let all : Finset String := insert uid (uids ∪ uids')
  have hmem : uid ∈ all := Finset.mem_insert_self _ _
  have hsub : uids ⊆ all := Finset.subset_union_left.trans (Finset.subset_insert _ _)
  have hsub' : uids' ⊆ all := Finset.subset_union_right.trans (Finset.subset_insert _ _)
  have hothers : ∑ v ∈ all.erase uid, weigh f o (Collection.documents (w'.2.account v).donates) =
      ∑ v ∈ all.erase uid, weigh f o (Collection.documents (w.2.account v).donates) := by
    refine Finset.sum_congr rfl fun v hv => ?_
    rw [donates_writes_ne hw (Finset.ne_of_mem_erase hv)]
  rw [hsum all hsub, hsum' all hsub', ← Finset.add_sum_erase all _ hmem, ← Finset.add_sum_erase all _ hmem,
    hothers]
  have hown := weigh_writes hn hrows hw f o
  omega

/-- When no two rows of a monthly checkout carry one document, and each document that a row carries is
still stored for the row's organisation: after a press that came to the success screen, the screen of an
organisation shows what it has shown before, with the pledges on the checkout's rows replaced by what
these rows keep for it: the amounts of all users together, and the number of their pledges. -/
theorem raised_of_press (hn : (donateIds vc.donateItems).Nodup)
    (hrows : ∀ row ∈ vc.donateItems, ∀ id, row.donateId = some id → w.2.Stores uid id row.organisation.id)
    (hm : vc.isOneTimeMode = false) (hu : w.1.currentUser = some uid)
    (hp : vc.Presses w w' l) (hdone : vc.Done l) (screen : HowMuchRaisedViewController)
    {before after : HowMuchRaisedViewController} {found found' : List (Document DonateDoc)}
    (hfound : w.2.Found screen.organisation.id found)
    (hfound' : w'.2.Found screen.organisation.id found')
    (hbefore : screen.donatesFetched (some (found.filterMap DonateItemRef.init?)) = some (before, none))
    (hafter : screen.donatesFetched (some (found'.filterMap DonateItemRef.init?)) = some (after, none)) :
    ∃ (raised raised' : Int) (people people' : ℕ),
      before = screen.showing raised people ∧ after = screen.showing raised' people' ∧
      raised' + weigh id screen.organisation.id (replaced (w.2.account uid).donates vc.donateItems) =
        raised + totalSum (keptFor screen.organisation.id vc.donateItems) ∧
      people' + weigh (fun _ => 1) screen.organisation.id (replaced (w.2.account uid).donates vc.donateItems) =
        people + (keptFor screen.organisation.id vc.donateItems).length := by
  obtain ⟨raised, hraised, rfl⟩ := HowMuchRaisedViewController.donatesFetched_eq_some_iff.mp hbefore
  obtain ⟨raised', hraised', rfl⟩ := HowMuchRaisedViewController.donatesFetched_eq_some_iff.mp hafter
  have hw : vc.Writes uid w w' true := by
    cases stores_press hp with
    | kept _ hnone => exact absurd (hu.symm.trans (hnone hm hdone).1) (by simp)
    | written hv _ hw hsuccess =>
      obtain rfl := Option.some.inj (hv.symm.trans hu)
      rwa [hsuccess.mp hdone] at hw
  refine ⟨raised, raised', _, _, rfl, rfl, ?_, ?_⟩
  · have hamounts := sum_found_writes hn hrows hw id hfound hfound'
    rw [HowMuchRaisedViewController.raised?_eq_sum hraised, HowMuchRaisedViewController.raised?_eq_sum hraised']
    simpa [totalSum] using hamounts
  · have hpeople := sum_found_writes hn hrows hw (fun _ => 1) hfound hfound'
    simpa using hpeople

/-- Ann and Ben have a pledge for the kitchen each. -/
def kitchenServer : Server where
  account uid :=
    if uid = "ann" then
      { donates := AList.singleton "pledge" { amount := some 3, organisation := some "kitchen" } }
    else if uid = "ben" then
      { donates := AList.singleton "other" { amount := some 4, organisation := some "kitchen" } }
    else {}

/-- The pledges of Ann and Ben, with hers at `amount`. -/
def kitchenFound (amount : Int) : List (Document DonateDoc) :=
  [⟨"pledge", some { amount := some amount, organisation := some "kitchen" }⟩,
    ⟨"other", some { amount := some 4, organisation := some "kitchen" }⟩]

theorem found_of_accounts {s : Server} {amount : Int}
    (hann : (s.account "ann").donates = AList.singleton "pledge" { amount := some amount, organisation := some "kitchen" })
    (hben : (s.account "ben").donates = AList.singleton "other" { amount := some 4, organisation := some "kitchen" })
    (hothers : ∀ uid, uid ≠ "ann" → uid ≠ "ben" → (s.account uid).donates = ∅) :
    s.Found "kitchen" (kitchenFound amount) := by
  refine ⟨{"ann", "ben"}, fun uid hne => ?_, ?_⟩
  · by_contra hnot
    simp only [Finset.mem_insert, Finset.mem_singleton, not_or] at hnot
    exact hne (hothers uid hnot.1 hnot.2)
  · have huids : ({"ann", "ben"} : Finset String).toList.Perm ["ann", "ben"] := by
      have hinsert := Finset.toList_insert (s := {"ben"}) (show "ann" ∉ ({"ben"} : Finset String) by decide)
      rwa [Finset.toList_singleton] at hinsert
    refine .trans (.of_eq ?_) (huids.flatMap_right _).symm
    simp only [List.flatMap_cons, List.flatMap_nil, hann, hben]
    rfl

def kitchenScreen : HowMuchRaisedViewController := { organisation := { id := "kitchen" } }

/-- Ann raises her pledge from three to five, and the screen goes from seven to nine. -/
theorem raised_of_press_ann : ∃ (raised raised' : Int) (people people' : ℕ),
    kitchenScreen.showing 7 2 = kitchenScreen.showing raised people ∧
    kitchenScreen.showing 9 2 = kitchenScreen.showing raised' people' ∧
    raised' + weigh id "kitchen" (replaced (kitchenServer.account "ann").donates raisingCheckout.donateItems) =
      raised + totalSum (keptFor "kitchen" raisingCheckout.donateItems) ∧
    people' + weigh (fun _ => 1) "kitchen"
        (replaced (kitchenServer.account "ann").donates raisingCheckout.donateItems) =
      people + (keptFor "kitchen" raisingCheckout.donateItems).length := by
  let edited : Account :=
    { donates := AList.singleton "pledge" { amount := some 5, organisation := some "kitchen" } }
  let after : Server :=
    (kitchenServer.setAccount "ann" edited).record [.setDonate "ann" "pledge" { amount := some 5 }]
  have hedited : Answers (annPledging.1, kitchenServer) (.setDonate "ann" "pledge" { amount := some 5 }) none
      (annPledging.1, after) := ⟨edited, rfl, rfl⟩
  have hfinish : raisingCheckout.Finishes true (annPledging.1, after) (annPledging.1.finished, after) _ :=
    ⟨rfl, rfl⟩
  have hpress := presses_raisingCheckout hedited rfl rfl hfinish
  have hrows : ∀ row ∈ raisingCheckout.donateItems, ∀ id, row.donateId = some id →
      kitchenServer.Stores "ann" id row.organisation.id := by
    intro row hrow id hid
    obtain rfl := List.mem_singleton.mp hrow
    obtain rfl : "pledge" = id := Option.some.inj hid
    exact ⟨_, rfl, rfl⟩
  have hothers : ∀ uid, uid ≠ "ann" → uid ≠ "ben" → (after.account uid).donates = ∅ := by
    intro uid hann hben
    simp [after, Server.setAccount, kitchenServer, hann, hben]
  have hbefore : kitchenServer.Found "kitchen" (kitchenFound 3) :=
    found_of_accounts rfl rfl fun uid hann hben => by simp [kitchenServer, hann, hben]
  exact raised_of_press (w := (annPledging.1, kitchenServer)) (by decide) hrows rfl rfl hpress (by simp [Done])
    kitchenScreen hbefore (found_of_accounts rfl rfl hothers) rfl rfl

end DonateConfirmation

end Pledge
