import Pledge.Recordings

/-!
# One pledge for each organisation

Nothing but the rows keeps the stored pledges apart: a row without a document adds one. The
store stays free of duplicates as long as no such row is recorded for an organisation that has
a stored pledge already, or one that is just being added.
-/

namespace Pledge

open EventLoop

namespace Server

def Pledged (s : Server) (uid organisationId : String) : Prop := ∃ id, s.Stores uid id organisationId

/-- No two stored pledges of the user are for one organisation. -/
def PledgesOnce (s : Server) (uid : String) : Prop :=
  ∀ id id' organisationId, s.Stores uid id organisationId → s.Stores uid id' organisationId → id = id'

end Server

/-! ## Single writes -/

section Writes

variable {w w' : World} {uid v : String} {r : Request} {rows : List OrganisationWithAmount}

theorem SamePledges.stores_iff (h : SamePledges w w') {id organisationId : String} :
    w'.2.Stores uid id organisationId ↔ w.2.Stores uid id organisationId := by
  unfold Server.Stores
  rw [(h uid).1]

theorem SamePledges.pledgesOnce (h : SamePledges w w') (honce : w.2.PledgesOnce uid) :
    w'.2.PledgesOnce uid :=
  fun id id' o hid hid' => honce id id' o (h.stores_iff.mp hid) (h.stores_iff.mp hid')

theorem pledgesOnce_answers {a : r.Response} (hr : r.KeepsOrganisation) (h : Answers w r a w')
    (hfree : ∀ o, r.addedFor uid = some o → ¬ w.2.Pledged uid o) (honce : w.2.PledgesOnce uid) :
    w'.2.PledgesOnce uid := by
  obtain ⟨new, hnew⟩ := @stores_answers w w' uid r a hr h
  intro id id' o hid hid'
  rcases hnew id o hid with hold | ⟨rfl, -, hadd⟩
  · rcases hnew id' o hid' with hold' | ⟨rfl, -, hadd⟩
    · exact honce id id' o hold hold'
    · exact absurd ⟨id, hold⟩ (hfree o hadd)
  · rcases hnew id' o hid' with hold' | ⟨rfl, -⟩
    · exact absurd ⟨id', hold'⟩ (hfree o hadd)
    · rfl

end Writes

/-! ## One recording -/

namespace DonateConfirmation

variable {vc : DonateConfirmation} {uid v : String} {currentUser : Option String}

/-- A row adds a pledge only without a document, and only for the user who is signed in. -/
theorem write?_addedFor (item : OrganisationWithAmount) (o : String) :
    ((write? v item).bind fun b => b.1.addedFor uid) = some o ↔
      v = uid ∧ item.donateId = none ∧ 0 < item.amount ∧ item.organisation.id = o := by
  obtain ⟨amount, organisation, donateId⟩ := item
  cases donateId <;> by_cases ha : 0 < amount <;> simp [write?, Request.addedFor, ha]

theorem filterMap_sublist_of_imp {α β : Type} {f g : α → Option β} (h : ∀ a b, f a = some b → g a = some b)
    (l : List α) : (l.filterMap f).Sublist (l.filterMap g) := by
  induction l with
  | nil => exact .slnil
  | cons a l ih =>
    cases hf : f a with
    | none =>
      rw [List.filterMap_cons_none hf]
      exact ih.trans ((List.sublist_cons_self a l).filterMap g)
    | some b =>
      rw [List.filterMap_cons_some hf, List.filterMap_cons_some (h a b hf)]
      exact ih.cons_cons b

theorem added_sublist (items : List OrganisationWithAmount) :
    ((items.filterMap (write? v)).filterMap fun b => b.1.addedFor uid).Sublist (unpledged items) := by
  rw [List.filterMap_filterMap]
  refine filterMap_sublist_of_imp (fun item o hadd => ?_) items
  obtain ⟨-, hnone, -, rfl⟩ := (write?_addedFor item o).mp hadd
  simp [hnone]

theorem mem_added {items : List OrganisationWithAmount} {o : String}
    (h : o ∈ (items.filterMap (write? v)).filterMap fun b => b.1.addedFor uid) :
    v = uid ∧ ∃ item ∈ items, item.donateId = none ∧ 0 < item.amount ∧ item.organisation.id = o := by
  rw [List.filterMap_filterMap] at h
  obtain ⟨item, hitem, hadd⟩ := List.mem_filterMap.mp h
  obtain ⟨huid, hnone, hpos, ho⟩ := (write?_addedFor item o).mp hadd
  exact ⟨huid, item, hitem, hnone, hpos, ho⟩

theorem nodup_adds (hn : (unpledged vc.donateItems).Nodup) : (vc.adds uid currentUser).Nodup := by
  cases currentUser with
  | none =>
    rw [adds_signedOut]
    exact List.nodup_nil
  | some v =>
    rw [adds_signedIn]
    exact hn.sublist (added_sublist _)

theorem mem_adds {o : String} (h : o ∈ vc.adds uid currentUser) : currentUser = some uid ∧
    ∃ item ∈ vc.donateItems, item.donateId = none ∧ 0 < item.amount ∧ item.organisation.id = o := by
  cases currentUser with
  | none =>
    rw [adds_signedOut] at h
    cases h
  | some v =>
    rw [adds_signedIn] at h
    obtain ⟨rfl, hitem⟩ := mem_added h
    exact ⟨rfl, hitem⟩

theorem adds_of_item {item : OrganisationWithAmount} (hitem : item ∈ vc.donateItems)
    (hnone : item.donateId = none) (hpos : 0 < item.amount) :
    item.organisation.id ∈ vc.adds uid (some uid) := by
  rw [adds_signedIn, List.filterMap_filterMap]
  exact List.mem_filterMap.mpr ⟨item, hitem, (write?_addedFor item _).mpr ⟨rfl, hnone, hpos, rfl⟩⟩

/-- A pledge may be added, under an id that is not in use. -/
theorem exists_added (w : World) (uid : String) (data : DonateDoc) :
    ∃ w' id, Answers w (.addDonate uid data) none w' ∧ id ∉ (w.2.account uid).donates ∧
      (w'.2.account uid).donates = (w.2.account uid).donates.insert id data := by
  obtain ⟨id, hid⟩ := Infinite.exists_notMem_finset
    ((w.2.account uid).donates.keys.toFinset ∪ (w.2.account uid).deletedDonates.toFinset)
  simp only [Finset.mem_union, List.mem_toFinset, not_or] at hid
  refine ⟨_, id, ⟨_, ⟨id, hid.1, hid.2, rfl⟩, rfl⟩, hid.1, ?_⟩
  simp

end DonateConfirmation

/-! ## One move -/

/-- The rows that a recording adds are for organisations that have no pledge, neither a stored one nor
one that is being added. -/
def AddsUnpledged (uid : String) (s : Busy) (m : Busy.Move) : Prop :=
  ∀ j c, s.Begins m j c → s.app.world.1.currentUser = some uid →
    ∀ item ∈ c.donateItems, item.donateId = none → 0 < item.amount →
      ¬ s.app.world.2.Pledged uid item.organisation.id ∧ item.organisation.id ∉ s.adding uid

/-- No bucket lists an organisation twice without a document, no organisation is pledged twice, and
none that is pledged or being added is being added. -/
structure Busy.Apart (uid : String) (s : Busy) : Prop where
  lists : s.Lists (fun _ => True) (fun _ => True) fun rows => (unpledged rows).Nodup
  stages : ∀ x ∈ s.taken, x.Stage
  once : s.app.world.2.PledgesOnce uid
  nodup : (s.adding uid).Nodup
  free : ∀ o ∈ s.adding uid, ¬ s.app.world.2.Pledged uid o

section Moves

variable {s s' : Busy} {m : Busy.Move} {l : List Effect} {uid o : String} {j : ℕ} {c : DonateConfirmation}
  {Kept : Server → Server → Prop}

/-- No bucket lists an organisation twice without a document. -/
theorem rowRule_unpledged : RowRule (fun _ => True) fun rows => (unpledged rows).Nodup where
  nil := by simp [unpledged]
  unread := trivial
  sublist h hn := hn.sublist (unpledged_sublist h)
  loaded horgs _ := horgs.sublist (MyBucket.unpledged_pledgedRows_sublist _ _)
  merged hrows _ := MyBucket.nodup_unpledged_foldl_mergeRow _ hrows

/-- The rows added for deletion have documents. -/
theorem MyBucket.unpledged_donateItems (tips : Int) (vc : MyBucket) :
    unpledged (vc.showDonateConfirmation tips).donateItems = unpledged vc.tableData := by
  have hdeleted : unpledged vc.deletedDonates = [] := by
    simp [unpledged, deletedDonates, ofDonate]
  unfold showDonateConfirmation
  dsimp only
  split
  · rfl
  · rw [unpledged_append, hdeleted, List.append_nil]

theorem SamePledges.pledged_iff {w w' : World} (h : SamePledges w w') :
    w'.2.Pledged uid o ↔ w.2.Pledged uid o :=
  exists_congr fun _ => h.stores_iff

/-- The rows of a recording are those of a bucket. -/
theorem nodup_begins (h : s.Apart uid) (hb : s.Begins m j c) : (unpledged c.donateItems).Nodup := by
  obtain ⟨bucket, tips, rfl, hrows, -⟩ := h.lists.begins hb
  rwa [MyBucket.unpledged_donateItems]

/-- A read out of what the device has kept changes no pledge. -/
theorem apart_answered {r : Request} {a : r.Response} {w : World} (h : s.Apart uid) (hr : r.KeepsOrganisation)
    (hs : AnswersOrKept Kept s.app.world r a w) (hsame : SamePledges w s'.app.world)
    (hadding : (s.adding uid).Perm ((r.addedFor uid).toList ++ s'.adding uid)) :
    s'.app.world.2.PledgesOnce uid ∧ (s'.adding uid).Nodup ∧
      ∀ o ∈ s'.adding uid, ¬ s'.app.world.2.Pledged uid o := by
  have hsplit := hadding.nodup_iff.mp h.nodup
  have hleft : ∀ o ∈ s'.adding uid, o ∈ s.adding uid := fun o ho =>
    hadding.mem_iff.mpr (List.mem_append_right _ ho)
  refine ⟨?_, (List.nodup_append.mp hsplit).2.1, fun o ho hpledged => ?_⟩
  · refine hsame.pledgesOnce ?_
    rcases hs with hs | ⟨-, rfl, -⟩
    · refine pledgesOnce_answers hr hs (fun o ho => h.free o (hadding.mem_iff.mpr ?_)) h.once
      simp [ho]
    · exact h.once
  · rw [hsame.pledged_iff] at hpledged
    rcases hs with hs | ⟨-, rfl, -⟩
    · -- what is pledged now was pledged before, or has just been added
      obtain ⟨new, hnew⟩ := @stores_answers s.app.world w uid _ _ hr hs
      obtain ⟨id, hid⟩ := hpledged
      rcases hnew id o hid with hold | ⟨-, -, hadd⟩
      · exact h.free o (hleft o ho) ⟨id, hold⟩
      · exact (List.nodup_append.mp hsplit).2.2 o (by simp [hadd]) o ho rfl
    · exact h.free o (hleft o ho) hpledged

theorem apart_step (h : s.Apart uid) (hok : AddsUnpledged uid s m)
    (hs : Busy.Step (AnswersOrKept Kept) s (m, l) s') : s'.Apart uid := by
  have hadmits : Admits (fun _ => True) (fun _ => True) (AnswersOrKept Kept) s.app.world := admits_kept
  obtain ⟨hstages, hmoved⟩ := moved_step uid (fun _ _ _ _ h => h) h.stages hs
  have hlists := lists_step rowRule_unpledged hadmits h.lists hs
  cases hmoved with
  | @begins j c y d hb hrecords =>
    have hsame : SamePledges s.app.world s'.app.world := hrecords.world ▸ hrecords.begun.samePledges
    have hperm := hrecords.adding uid
    have hnew : ∀ o ∈ c.adds uid s.app.world.1.currentUser,
        ¬ s.app.world.2.Pledged uid o ∧ o ∉ s.adding uid := by
      intro o ho
      obtain ⟨hu, item, hitem, hnone, hpos, rfl⟩ := DonateConfirmation.mem_adds ho
      exact hok j c hb hu item hitem hnone hpos
    refine ⟨hlists, hstages, hsame.pledgesOnce h.once, hperm.nodup_iff.mpr ?_, fun o ho hpledged => ?_⟩
    · refine List.nodup_append.mpr ⟨DonateConfirmation.nodup_adds (nodup_begins h hb), h.nodup, ?_⟩
      rintro o ho _ hold rfl
      exact (hnew o ho).2 hold
    · rw [hsame.pledged_iff] at hpledged
      rcases List.mem_append.mp (hperm.mem_iff.mp ho) with ho | ho
      · exact (hnew o ho).1 hpledged
      · exact h.free o ho hpledged
  | answered hr hanswer hsame hadding =>
    obtain ⟨x, hx, call, hcall, rfl⟩ := hr
    have hkeeps : call.1.KeepsOrganisation := (h.lists.pending x hx call hcall).1
    obtain ⟨honce, hnodup, hfree⟩ := apart_answered h hkeeps hanswer hsame hadding
    exact ⟨hlists, hstages, honce, hnodup, hfree⟩
  | called hsame hadding =>
    refine ⟨hlists, hstages, hsame.pledgesOnce h.once, hadding ▸ h.nodup, fun o ho hpledged => ?_⟩
    exact h.free o (hadding ▸ ho) (hsame.pledged_iff.mp hpledged)

/-! ## Pledges that are added twice -/

/-- The write of a pledge begins no recording. -/
theorem addsUnpledged_addDonate {data : DonateDoc} {error : Option String} :
    AddsUnpledged uid s (.answer j (.addDonate uid data) error) := by
  rintro _ _ (_ | ⟨_, _, hs⟩)
  cases hs

variable (Kept) in
/-- A pledge that is being added may be stored, next to those there are. -/
theorem exists_added_step (hstages : ∀ x ∈ s.taken, x.Stage) (ho : o ∈ s.adding uid) : ∃ m l s' id,
    AddsUnpledged uid s m ∧ Busy.Step (AnswersOrKept Kept) s (m, l) s' ∧ (∀ x ∈ s'.taken, x.Stage) ∧
      (s.adding uid).Perm (o :: s'.adding uid) ∧ s'.app.world.2.Stores uid id o ∧
      ∀ id' o', s.app.world.2.Stores uid id' o' → id' ≠ id ∧ s'.app.world.2.Stores uid id' o' := by
  obtain ⟨x, hx, ho⟩ := List.mem_flatMap.mp ho
  obtain ⟨⟨r, callback⟩, hcall, hadd⟩ := List.mem_filterMap.mp ho
  cases r with
  | addDonate v data =>
    obtain ⟨rfl, hdata⟩ : v = uid ∧ data.organisation = some o := by simpa [Request.addedFor] using hadd
    obtain ⟨j, hj⟩ := List.getElem?_of_mem hx
    obtain ⟨pre, post, hp⟩ := List.append_of_mem hcall
    obtain ⟨w, id, hanswer, hnew, hdonates⟩ :=
      DonateConfirmation.exists_added s.app.world v data
    obtain ⟨d, hd⟩ : ∃ d, (callback none).exec ⟨w, x.heap, pre ++ post, x.out⟩ = d := ⟨_, rfl⟩
    obtain ⟨l, hl⟩ := exec_out (callback none) (⟨w, x.heap, pre ++ post, x.out⟩ : Loop)
    have hout : d.out = x.out ++ l := hd ▸ hl.symm
    have hsees := App.sees_foldl_shown { s.app with world := d.state } l
    have hstep : Busy.Step (AnswersOrKept Kept) s (.answer j (.addDonate v data) none, l) _ :=
      .answer hj hp (.inl hanswer) hd hout hsees
    have hworld : SamePledges w (l.foldl App.shown { s.app with world := d.state }).world := by
      rw [App.foldl_shown_world, ← hd]
      exact samePledges_exec (callback none) ⟨w, x.heap, pre ++ post, x.out⟩
    have hkept : AnswersOrKept Kept s.app.world (.addDonate v data) none w := .inl hanswer
    rcases answer_turn (hstages x hx) hp hkept hd with
      ⟨c, hc, hs⟩ | ⟨-, calls, hcalls, hspare⟩
    · cases hs
    refine ⟨_, _, _, id, addsUnpledged_addDonate, hstep, (moved_step v (fun _ _ _ _ h => h) hstages hstep).1, ?_,
      hworld.stores_iff.mpr ⟨data, ?_, hdata⟩, fun id' o' hid' => ?_⟩
    · have hmoved : (x.adding v).Perm (((Request.addDonate v data).addedFor v).toList ++
          Taken.adding v ⟨d.waiting, x.app, x.touch⟩) := adding_answered hp hcalls hspare
      have hperm := adding_moved (a := l.foldl App.shown { s.app with world := d.state }) hj hmoved
      simpa [Request.addedFor, hdata] using hperm
    · rw [hdonates, AList.lookup_insert]
    · obtain ⟨old, hlookup, hold⟩ := hid'
      have hne : id' ≠ id := by
        rintro rfl
        exact hnew (AList.lookup_isSome.mp (Option.isSome_of_eq_some hlookup))
      refine ⟨hne, hworld.stores_iff.mpr ⟨old, ?_, hold⟩⟩
      rw [hdonates, AList.lookup_insert_ne hne]
      exact hlookup
  | _ => cases hadd

variable (Kept) in
/-- So it becomes a second one, where its organisation is pledged. -/
theorem exists_repeated_of_pledged (hstages : ∀ x ∈ s.taken, x.Stage) (ho : o ∈ s.adding uid)
    (hp : s.app.world.2.Pledged uid o) : ∃ m l s', AddsUnpledged uid s m ∧
      Busy.Step (AnswersOrKept Kept) s (m, l) s' ∧ ¬ s'.app.world.2.PledgesOnce uid := by
  obtain ⟨m, l, s', id, hok, hs, -, -, hid, hkept⟩ := exists_added_step Kept hstages ho
  obtain ⟨id', hid'⟩ := hp
  obtain ⟨hne, hold⟩ := hkept id' o hid'
  exact ⟨m, l, s', hok, hs, fun honce => hne (honce id' id o hold hid)⟩

/-- A recording that adds for an organisation with a pledge, stored or in flight, may repeat it. -/
theorem exists_repeated (hstages : ∀ x ∈ s.taken, x.Stage) (hok : ¬ AddsUnpledged uid s m)
    (hs : Busy.Step (AnswersOrKept Kept) s (m, l) s') : ∃ s'',
      History (Busy.Step (AnswersOrKept Kept)) (fun s e => AddsUnpledged uid s e.1) s' s'' ∧
        ¬ s''.app.world.2.PledgesOnce uid := by
  simp only [AddsUnpledged, not_forall, not_and_or, not_not] at hok
  obtain ⟨j, c, hb, hu, item, hitem, hnone, hpos, htwice⟩ := hok
  obtain ⟨y, d, hrecords⟩ := records_step (fun _ _ _ _ h => h) hstages hb hs
  have hstages' := (moved_step uid (fun _ _ _ _ h => h) hstages hs).1
  have hadds : item.organisation.id ∈ c.adds uid s.app.world.1.currentUser :=
    hu ▸ DonateConfirmation.adds_of_item hitem hnone hpos
  have hperm := hrecords.adding uid
  have hadding : item.organisation.id ∈ s'.adding uid :=
    hperm.mem_iff.mpr (List.mem_append_left _ hadds)
  rcases htwice with hpledged | hflight
  · have hsame : SamePledges s.app.world s'.app.world := hrecords.world ▸ hrecords.begun.samePledges
    obtain ⟨m', l', s'', hok', hs', honce⟩ :=
      exists_repeated_of_pledged Kept hstages' hadding (hsame.pledged_iff.mpr hpledged)
    exact ⟨s'', .tail .refl hok' hs', honce⟩
  · -- two of them are in flight; once one is stored, the other repeats it
    obtain ⟨m₁, l₁, s₁, id, hok₁, hs₁, hstages₁, hperm₁, hid, -⟩ :=
      exists_added_step Kept hstages' hadding
    have htwo : 2 ≤ (s'.adding uid).count item.organisation.id := by
      have hone := List.count_pos_iff.mpr hadds
      have hother := List.count_pos_iff.mpr hflight
      rw [hperm.count_eq, List.count_append]
      omega
    have hstill : item.organisation.id ∈ s₁.adding uid := by
      rw [hperm₁.count_eq, List.count_cons_self] at htwo
      exact List.count_pos_iff.mp (by omega)
    obtain ⟨m₂, l₂, s₂, hok₂, hs₂, honce⟩ :=
      exists_repeated_of_pledged Kept hstages₁ hstill ⟨id, hid⟩
    exact ⟨s₂, .tail (.tail .refl hok₁ hs₁) hok₂ hs₂, honce⟩

end Moves

/-! ## Every run -/

section Runs

variable {a₀ : App} {s s' : Busy} {uid : String} {Kept : Server → Server → Prop}

theorem apart_idle (hl : a₀.Launched) (hempty : (a₀.world.2.account uid).donates = ∅) :
    a₀.idle.Apart uid := by
  refine ⟨lists_idle rowRule_unpledged hl fun _ _ => trivial, stages_idle a₀, ?_, List.nodup_nil,
    fun o ho => absurd ho List.not_mem_nil⟩
  rintro id id' o ⟨data, hlookup, -⟩
  rw [show a₀.idle.app.world = a₀.world from rfl, hempty] at hlookup
  cases hlookup

theorem apart_of_history (h : History (Busy.Step (AnswersOrKept Kept)) (fun s e => AddsUnpledged uid s e.1) s s')
    (hs : s.Apart uid) : s'.Apart uid :=
  h.invariant (I := Busy.Apart uid) (fun _ _ _ h hok hstep => apart_step h hok hstep) hs

/-- From an empty collection, and while no row without a document is recorded for an organisation that
has a pledge or is being given one, no organisation is pledged twice; and such a row is just what can
bring a second pledge about. -/
theorem pledgesOnce_of_history (hl : a₀.Launched) (hempty : (a₀.world.2.account uid).donates = ∅)
    (h : History (Busy.Step (AnswersOrKept Kept)) (fun s e => AddsUnpledged uid s e.1) a₀.idle s) :
    s.app.world.2.PledgesOnce uid ∧
      ∀ m l s', Busy.Step (AnswersOrKept Kept) s (m, l) s' →
        ((∀ s'', History (Busy.Step (AnswersOrKept Kept)) (fun s e => AddsUnpledged uid s e.1) s' s'' →
          s''.app.world.2.PledgesOnce uid) ↔ AddsUnpledged uid s m) := by
  have hapart := apart_of_history h (apart_idle hl hempty)
  refine ⟨hapart.once, fun m l s' hs => ⟨fun honce => ?_, fun hok s'' hrun => ?_⟩⟩
  · by_contra hok
    obtain ⟨s'', hrun, hrepeated⟩ := exists_repeated hapart.stages hok hs
    exact hrepeated (honce s'' hrun)
  · exact (apart_of_history hrun (apart_step hapart hok hs)).once

end Runs

/-! ## Ann -/

def hunger : Cause := { id := "hunger" }

/-- Ann is signed in, and has chosen ten before; two organisations help against hunger. -/
def annDonor : App :=
  { world := ({ currentUser := some "ann" },
      { account := fun _ =>
          { user := some { email := some "ann@mail.com", defaultDonateAmount := some 10 } }
        organisations :=
          (AList.singleton "shelter" { causes := ["hunger"] }).insert "kitchen" { causes := ["hunger"] } })
    page := .root }

theorem launched_annDonor : annDonor.Launched := ⟨rfl, rfl, rfl, rfl, rfl⟩

/-- The device once Ann's record has been read. -/
def annRead : Device :=
  { currentUser := some "ann"
    userManager :=
      { user := some { email := "ann@mail.com", displayName := none, defaultDonateAmount := 10 } } }

theorem yields_annRead : (FirestoreManager.fetchUpdateUser fun _ => .stop : Prog).Yields Answers
    annDonor.world [] (annRead, annDonor.world.2) [] :=
  yields_read.mpr (yields_ask.mpr ⟨some ⟨"ann", some { email := some "ann@mail.com"
                                                       defaultDonateAmount := some 10 }⟩, _,
    ⟨rfl, .inr rfl⟩, yields_modify.mpr (yields_stop.mpr ⟨rfl, rfl⟩)⟩)

/-- The bucket of the cause, once it has been loaded. -/
def hungerLoaded : MyBucket :=
  { cause := some hunger
    donateAmount := 10
    organizations := some [{ id := "kitchen" }, { id := "shelter" }]
    tableData := [{ amount := 0, organisation := { id := "kitchen" } },
      { amount := 0, organisation := { id := "shelter" } }] }

theorem yields_hungerFetched {k : Option (List OrganisationItem) → Prog} {w' : World} {h : List Frame}
    {l : List Effect} {d : Device} (hf : d.filters = [])
    (hk : (k (some [{ id := "kitchen" }, { id := "shelter" }])).Yields Answers
      (d, annDonor.world.2) h w' l) :
    (FirestoreManager.fetchOrganisationsByCause "hunger" k).Yields Answers
      (d, annDonor.world.2) h w' l := by
  refine yields_ask.mpr ⟨some [⟨"kitchen", some { causes := ["hunger"] }⟩,
    ⟨"shelter", some { causes := ["hunger"] }⟩], _, ⟨rfl, ?_⟩, ?_⟩
  · rintro l ⟨⟩
    exact ⟨_, Collection.exists_snapshot _, rfl⟩
  · have hfilters : (FirestoreManager.fetchFilters true fun _ => .read fun d =>
        k (some (d.addFiltersToOrganisations [{ id := "kitchen" }, { id := "shelter" }]))).Yields Answers
          (d, annDonor.world.2) h w' l := by
      rw [FirestoreManager.fetchFilters, yields_read, if_neg (by simp [hf])]
      exact yields_ask.mpr ⟨none, _, ⟨rfl, by simp⟩, yields_read.mpr hk⟩
    exact hfilters

theorem yields_hungerLoaded : ((Recipient.cause hunger).bucket false).viewDidLoad.Yields Answers
    (annRead, annDonor.world.2) [] ({ annRead with donateRefs := some [] }, annDonor.world.2)
    [.startActivityAnimating, .stopActivityAnimating, .reloadData hungerLoaded] := by
  refine yields_emit.mpr ⟨_, rfl, yields_ask.mpr ⟨some [], _, ⟨rfl, ?_⟩, yields_modify.mpr
    (yields_hungerFetched rfl (yields_emit.mpr ⟨_, rfl,
      yields_read.mpr (yields_emit_stop.mpr ⟨rfl, rfl⟩)⟩))⟩⟩
  rintro l ⟨⟩
  exact .nil

/-- Ann's checkout of four for the kitchen and six for the shelter. -/
def hungerCheckout : DonateConfirmation :=
  ⟨10, 0, [{ amount := 4, organisation := { id := "kitchen" } },
    { amount := 6, organisation := { id := "shelter" } }], false⟩

/-- The kitchen's pledge is stored, and the shelter's is rejected. -/
theorem exists_half_recorded {w : World} (hu : w.1.currentUser = some "ann")
    (hskip : hungerCheckout.Skips w.1) (hdefault : w.1.userManager.defaultDonateAmount = 10) :
    ∃ w', hungerCheckout.Presses w w'
        [.startActivityAnimating, .stopActivityAnimating, .networkErrorAlert] ∧
      w'.1 = w.1 ∧ w'.2.Pledged "ann" "kitchen" := by
  obtain ⟨w', id, hanswer, -, hdonates⟩ :=
    DonateConfirmation.exists_added w "ann" { amount := some 4, organisation := some "kitchen" }
  have hdevice : w'.1 = w.1 := (answers_record (by trivial) hanswer).1
  have hserve : ServesAll Answers w
      [⟨⟨.addDonate "ann" { amount := some 4, organisation := some "kitchen" }, Option.isNone⟩, none⟩,
        ⟨⟨.addDonate "ann" { amount := some 6, organisation := some "shelter" }, Option.isNone⟩,
          some "error"⟩] w' := .cons hanswer (.cons (answers_rejected _ _) (.nil _))
  have hfinish : hungerCheckout.Finishes false w' w' [.stopActivityAnimating, .networkErrorAlert] :=
    ⟨rfl, rfl⟩
  have hhandler : ∀ h, (hungerCheckout.sendToUpdateDonatesHandler false).Yields Answers w' h w'
      [.stopActivityAnimating, .networkErrorAlert] := by
    intro h
    rw [DonateConfirmation.yields_sendToUpdateDonatesHandler (by rw [hdevice, hu]), if_pos]
    · exact hfinish
    · exact .inr (by rw [hdevice, hdefault]; rfl)
  refine ⟨w', DonateConfirmation.presses_iff.mpr (.inl ⟨hskip,
    (DonateConfirmation.yields_sendToUpdateDonates hu (List.cons_ne_nil _ _)).mpr
      ⟨_, w', _, .refl _, hserve, rfl, hhandler _⟩⟩), hdevice, id,
    { amount := some 4, organisation := some "kitchen" }, ?_, rfl⟩
  rw [hdonates]
  exact AList.lookup_insert _

/-- Ann opens the cause, gives to both, and comes to the checkout. -/
theorem exists_hungerCheckout (Ok : App → Interaction × List Effect → Prop)
    (hok : ∀ a e, e.1 ≠ .completeCheckoutButtonPressed → Ok a e) :
    ∃ a below bucket, History (App.Step fun _ => Answers) Ok annDonor a ∧
      a.page = .bucket below ⟨bucket, .confirmation hungerCheckout⟩ ∧
      a.world.1.currentUser = some "ann" ∧ hungerCheckout.Skips a.world.1 ∧
      a.world.1.userManager.defaultDonateAmount = 10 ∧ (a.world.2.account "ann").donates = ∅ := by
  have hread : History (App.Step fun _ => Answers) Ok annDonor
      { annDonor with world := (annRead, annDonor.world.2) } :=
    .tail (e := (.fetchUpdateUser, [])) .refl (hok _ _ nofun) ⟨_, _, _, rfl, yields_annRead, rfl⟩
  have hopen := History.tail (e := (.donate (.cause hunger) .monthly, _)) hread (hok _ _ nofun)
    ⟨_, _, _, rfl, yields_hungerLoaded, rfl⟩
  have hkitchen := History.tail (e := (.bucket (.sliderMoved 0 4), [])) hopen (hok _ _ nofun)
    ⟨_, _, _, rfl, ⟨_, .refl, rfl⟩, rfl⟩
  have hshelter := History.tail (e := (.bucket (.sliderMoved 1 6), [])) hkitchen (hok _ _ nofun)
    ⟨_, _, _, rfl, ⟨_, .refl, rfl⟩, rfl⟩
  have hcomplete := History.tail (e := (.bucket .completeButtonPressed, [])) hshelter (hok _ _ nofun)
    ⟨_, _, _, rfl, ⟨_, .refl, rfl⟩, rfl⟩
  have htips := History.tail (e := (.bucket (.donateTips 0), [])) hcomplete (hok _ _ nofun)
    ⟨_, _, _, rfl, ⟨_, .refl, rfl⟩, rfl⟩
  exact ⟨_, _, _, htips, rfl, rfl, rfl, rfl, rfl⟩

/-- The first press leaves the checkout where it was, with the kitchen pledged. -/
theorem exists_retry : ∃ a below bucket, History (App.Step fun _ => Answers) (fun _ _ => True) annDonor a ∧
    a.page = .bucket below ⟨bucket, .confirmation hungerCheckout⟩ ∧
    a.world.1.currentUser = some "ann" ∧ hungerCheckout.Skips a.world.1 ∧
    a.world.2.Pledged "ann" "kitchen" := by
  obtain ⟨⟨w, page, activeDonates⟩, below, bucket, hrun, hpage, hu, hskip, hdefault, hempty⟩ :=
    exists_hungerCheckout (fun _ _ => True) fun _ _ _ => trivial
  obtain rfl : page = _ := hpage
  obtain ⟨w', hpress, hdevice, hpledged⟩ := exists_half_recorded hu hskip hdefault
  refine ⟨_, below, bucket, .tail (e := (.completeCheckoutButtonPressed, _)) hrun trivial
    ⟨_, _, w', rfl, hpress, rfl⟩, rfl, ?_, ?_, hpledged⟩
  · exact hdevice ▸ hu
  · exact hdevice ▸ hskip

/-- Complete Checkout can be tapped while its confirmation is shown. -/
theorem exists_touch (serve : World → (r : Request) → r.Response → World → Prop) {s : Busy} {below : Page}
    {bucket : MyBucket} {c : DonateConfirmation} (hp : s.app.page = .bucket below ⟨bucket, .confirmation c⟩) :
    ∃ l s', Busy.Step serve s (.touch .completeCheckoutButtonPressed, l) s' := by
  obtain ⟨⟨w, page, activeDonates⟩, ts⟩ := s
  obtain rfl : page = _ := hp
  exact ⟨_, _, .touch rfl rfl (App.sees_foldl_shown _ _)⟩

theorem not_begins_of_touch {s : Busy} {m : Busy.Move} {j : ℕ} {c : DonateConfirmation}
    (hm : m ≠ .touch .completeCheckoutButtonPressed)
    (ha : ∀ j r response, m = .answer j r response → ∃ i, i ≠ .completeCheckoutButtonPressed ∧
      (s.taken[j]?).map Taken.touch = some i) : ¬ s.Begins m j c := by
  intro hb
  cases hb with
  | touch => exact hm rfl
  | @answer _ x c r response hx hc =>
    obtain ⟨i, hi, he⟩ := ha _ _ _ rfl
    rw [hx] at he
    cases (confirmation?_eq_none fun ht => hi (Option.some.inj he ▸ ht)).symm.trans hc

/-- While the checkout waits for its writes, the kitchen's pledge is stored once. -/
theorem pledgesOnce_of_history_ann :
    ∃ s : Busy, s.app.world.2.Pledged "ann" "kitchen" ∧ s.app.world.2.PledgesOnce "ann" := by
  obtain ⟨a, below, bucket, hrun, hpage, hu, hskip, -, hempty⟩ :=
    exists_hungerCheckout (fun _ e => e.1 ≠ .completeCheckoutButtonPressed) fun _ _ h => h
  obtain ⟨ts, hts, hrun⟩ := history_of_history (fun s e => AddsUnpledged "ann" s e.1)
    (hrun.mono (fun _ _ _ => step_kept fun _ _ => True) fun _ _ h => h)
    (fun a ts i l l' hi j c hb => absurd hb (not_begins_of_touch (fun he => hi (Busy.Move.touch.inj he)) nofun))
    fun a s j i r response l l' hi ht k c hb => absurd hb (not_begins_of_touch nofun fun j' r' a' he => by
      cases he
      exact ⟨i, hi, ht⟩)
  obtain ⟨l, s, hs⟩ := exists_touch (AnswersOrKept fun _ _ => True) (s := ⟨a, ts⟩) hpage
  have hok : AddsUnpledged "ann" ⟨a, ts⟩ (.touch .completeCheckoutButtonPressed) := by
    intro j c hb hu item hitem hnone hpos
    refine ⟨?_, ?_⟩
    · rintro ⟨id, data, hlookup, -⟩
      rw [hempty] at hlookup
      cases hlookup
    · rw [adding_of_quiet hts]
      exact List.not_mem_nil
  have hpress := hrun.tail hok hs
  obtain ⟨y, d, hrecords⟩ := records_step (fun _ _ _ _ h => h)
    (apart_of_history hrun (apart_idle launched_annDonor rfl)).stages (.touch hpage hskip) hs
  have hitem : { amount := 4, organisation := { id := "kitchen" } } ∈ hungerCheckout.donateItems :=
    List.mem_cons_self
  have hadds : "kitchen" ∈ hungerCheckout.adds "ann" a.world.1.currentUser :=
    hu ▸ DonateConfirmation.adds_of_item hitem rfl (by decide)
  obtain ⟨m, l', s', id, hok', hs', -, -, hid, -⟩ :=
    exists_added_step (fun _ _ => True) (apart_of_history hpress (apart_idle launched_annDonor rfl)).stages
      ((hrecords.adding "ann").mem_iff.mpr (List.mem_append_left _ hadds))
  exact ⟨s', ⟨id, hid⟩, (pledgesOnce_of_history launched_annDonor rfl (hpress.tail hok' hs')).1⟩

/-- Ann presses again, and the kitchen is pledged twice. -/
theorem not_pledgesOnce_of_history :
    ¬ ∀ (uid : String) (a₀ : App) (s : Busy), a₀.Launched → (a₀.world.2.account uid).donates = ∅ →
      History (Busy.Step (AnswersOrKept fun _ _ => False)) (fun _ _ => True) a₀.idle s →
      s.app.world.2.PledgesOnce uid := by
  intro hall
  obtain ⟨a, below, bucket, hrun, hpage, hu, hskip, hpledged⟩ := exists_retry
  obtain ⟨ts, -, hrun⟩ := history_of_history (fun _ _ => True)
    (hrun.mono (fun _ _ _ => step_kept fun _ _ => False) fun _ _ h => h)
    (fun _ _ _ _ _ _ => trivial) fun _ _ _ _ _ _ _ _ _ _ => trivial
  obtain ⟨l, s, hs⟩ := exists_touch (AnswersOrKept fun _ _ => False) (s := ⟨a, ts⟩) hpage
  have hstages := stages_of_history (fun _ _ _ _ h => h) hrun (stages_idle annDonor)
  have hagain : ¬ AddsUnpledged "ann" ⟨a, ts⟩ (.touch .completeCheckoutButtonPressed) := by
    intro hadds
    exact (hadds _ _ (.touch hpage hskip) hu { amount := 4, organisation := { id := "kitchen" } }
      List.mem_cons_self rfl (by decide)).1 hpledged
  obtain ⟨s', hrun', hrepeated⟩ := exists_repeated hstages hagain hs
  refine hrepeated (hall "ann" annDonor s' launched_annDonor rfl ((hrun.tail trivial hs).append ?_))
  exact hrun'.mono (fun _ _ _ h => h) fun _ _ _ => trivial

end Pledge
