import Pledge.Recordings

/-!
# Which documents the rows carry

The id of a pledge is never used again, so each stands for one organisation. Wherever rows are
kept, no two carry one document, and each carries one that was stored for its organisation.
-/

namespace Pledge

open EventLoop

/-- The services answer, or a read shows pledges as the device has kept them, and nobody but `uid`
signs in. -/
def AnswersFor (uid : String) (w : World) (r : Request) (a : r.Response) (w' : World) : Prop :=
  AnswersOrKept (fun s kept => ∀ id o, kept.Stores uid id o → s.Stores uid id o) w r a w' ∧
    (w'.1.currentUser = w.1.currentUser ∨ w'.1.currentUser = some uid)

/-- No two rows carry one document, and `f` has the organisation of each for its document. -/
def Labelled (f : String → Option String) (rows : List OrganisationWithAmount) : Prop :=
  ((carried rows).map Prod.fst).Nodup ∧ ∀ k ∈ carried rows, f k.1 = some k.2

/-- `f` has the organisation for which each pledge of the user was stored. -/
structure Server.Assigned (s : Server) (uid : String) (f : String → Option String) : Prop where
  stored : ∀ id o, s.Stores uid id o → f id = some o
  used : ∀ id o, f id = some o → s.Used uid id

/-- `g` has all that `f` has. -/
def Continues (f g : String → Option String) : Prop := ∀ id o, f id = some o → g id = some o

/-- Rows are labelled wherever they are, now and whatever is stored later. -/
structure Busy.Documented (uid : String) (s : Busy) (f : String → Option String) : Prop where
  assigned : s.app.world.2.Assigned uid f
  lists : ∀ g, Continues f g →
    s.Lists (· = uid) (fun donates => Labelled g (donates.map MyBucket.ofDonate)) (Labelled g)

section Rows

variable {f g : String → Option String} {rows saved : List OrganisationWithAmount} {w w' : World}
  {uid : String} {s : Server} {cdItem : OrganisationWithAmount}

theorem labelled_nil (f : String → Option String) : Labelled f [] :=
  ⟨List.nodup_nil, fun _ hk => absurd hk List.not_mem_nil⟩

/-- A saved row is added only where its organisation, and so its document, is not there. -/
theorem labelled_mergeRow (h : Labelled f rows)
    (hitem : ∀ id, cdItem.donateId = some id → f id = some cdItem.organisation.id) :
    Labelled f (MyBucket.mergeRow rows cdItem) := by
  unfold Labelled
  rw [carried_eq_labels, MyBucket.labels_mergeRow]
  split
  · rw [← carried_eq_labels]
    exact h
  · rename_i hnot
    rw [List.filterMap_append, ← carried_eq_labels]
    cases hid : cdItem.donateId with
    | none =>
      rw [show [(none, cdItem.organisation.id)].filterMap
        (fun label : Option String × String => label.1.map fun id => (id, label.2)) = [] from rfl, List.append_nil]
      exact h
    | some id =>
      have hone : [(some id, cdItem.organisation.id)].filterMap
          (fun label : Option String × String => label.1.map fun id => (id, label.2)) =
          [(id, cdItem.organisation.id)] := rfl
      rw [hone]
      refine ⟨?_, fun k hk => ?_⟩
      · rw [List.map_append]
        refine List.nodup_append.mpr ⟨h.1, List.nodup_singleton _, ?_⟩
        rintro _ hold _ hnew rfl
        obtain rfl := List.mem_singleton.mp hnew
        obtain ⟨k, hk, rfl⟩ := List.mem_map.mp hold
        -- the row that carries it is of the same organisation
        have hsame : k.2 = cdItem.organisation.id := Option.some.inj ((h.2 k hk).symm.trans (hitem k.1 hid))
        obtain ⟨row, hrow, hlabel⟩ := List.mem_filterMap.mp hk
        obtain ⟨_, -, rfl⟩ := Option.map_eq_some_iff.mp hlabel
        exact hnot (List.mem_map.mpr ⟨row, hrow, hsame⟩)
      · rcases List.mem_append.mp hk with hk | hk
        · exact h.2 k hk
        · obtain rfl := List.mem_singleton.mp hk
          exact hitem id hid

theorem labelled_foldl_mergeRow (h : Labelled f rows) (hsaved : Labelled f saved) :
    Labelled f (saved.foldl MyBucket.mergeRow rows) := by
  have hitems : ∀ row ∈ saved, ∀ id, row.donateId = some id → f id = some row.organisation.id :=
    fun row hrow id hid => hsaved.2 (id, row.organisation.id) (mem_carried hrow hid)
  clear hsaved
  induction saved generalizing rows with
  | nil => exact h
  | cons cdItem saved ih =>
    exact ih (labelled_mergeRow h (hitems cdItem List.mem_cons_self)) fun row hrow =>
      hitems row (List.mem_cons_of_mem _ hrow)

theorem rowRule_labelled (f : String → Option String) :
    RowRule (fun donates => Labelled f (donates.map MyBucket.ofDonate)) (Labelled f) where
  nil := labelled_nil f
  unread := labelled_nil f
  sublist h hrows := ⟨hrows.1.sublist ((carried_sublist h).map _),
    fun k hk => hrows.2 k ((carried_sublist h).subset hk)⟩
  loaded {orgs donates} _ hread := by
    have hperm := MyBucket.carried_pledgedRows orgs donates
    rw [← MyBucket.carried_map_ofDonate] at hperm
    exact ⟨(hperm.map Prod.fst).nodup_iff.mpr hread.1, fun k hk => hread.2 k (hperm.subset hk)⟩
  merged := labelled_foldl_mergeRow

/-! ## What is stored -/

theorem SamePledges.assigned (h : SamePledges w w') (hf : w.2.Assigned uid f) : w'.2.Assigned uid f := by
  refine ⟨fun id o hs => hf.stored id o ?_, fun id o he => ?_⟩
  · unfold Server.Stores at hs ⊢
    rwa [(h uid).1] at hs
  · have hused := hf.used id o he
    unfold Server.Used at hused ⊢
    rwa [(h uid).1, (h uid).2]

/-- What is stored anew has an id of its own. -/
theorem assigned_answers {r : Request} {a : r.Response} (hr : r.KeepsOrganisation) (h : Answers w r a w')
    (hf : w.2.Assigned uid f) : ∃ g, Continues f g ∧ w'.2.Assigned uid g := by
  obtain ⟨new, hnew⟩ := @stores_answers w w' uid r a hr h
  by_cases hadded : ∃ o, w'.2.Stores uid new o ∧ ¬ w.2.Used uid new ∧ r.addedFor uid = some o
  · obtain ⟨o, hstored, hunused, hadd⟩ := hadded
    refine ⟨Function.update f new (some o), fun id o' he => ?_, fun id o' hs => ?_, fun id o' he => ?_⟩
    · have hne : id ≠ new := by
        rintro rfl
        exact hunused (hf.used id o' he)
      rwa [Function.update_of_ne hne]
    · by_cases hid : id = new
      · subst hid
        rw [Function.update_self]
        rcases hnew id o' hs with hold | ⟨-, -, hadd'⟩
        · exact absurd (hf.used id o' (hf.stored id o' hold)) hunused
        · exact hadd.symm.trans hadd'
      · rw [Function.update_of_ne hid]
        rcases hnew id o' hs with hold | ⟨he, -⟩
        · exact hf.stored id o' hold
        · exact absurd he hid
    · by_cases hid : id = new
      · subst hid
        obtain ⟨data, hlookup, -⟩ := hstored
        exact .inl (AList.lookup_isSome.mp (Option.isSome_of_eq_some hlookup))
      · rw [Function.update_of_ne hid] at he
        exact used_answers h (hf.used id o' he)
  · refine ⟨f, fun _ _ => id, fun id o hs => ?_, fun id o he => used_answers h (hf.used id o he)⟩
    rcases hnew id o hs with hold | ⟨rfl, hunused, hadd⟩
    · exact hf.stored id o hold
    · exact absurd ⟨o, hs, hunused, hadd⟩ hadded

/-- What is read of stored pledges is labelled. -/
theorem labelled_read {documents : List (Document DonateDoc)} (hs : (s.account uid).donates.Snapshot documents)
    (hg : ∀ id o, s.Stores uid id o → g id = some o) (organisations : List OrganisationItem) :
    Labelled g ((FirestoreManager.joinDonates (documents.filterMap DonateItemRef.init?) organisations).map
      MyBucket.ofDonate) := by
  unfold Labelled
  rw [MyBucket.carried_map_ofDonate, List.map_map]
  refine ⟨nodup_joinDonates (nodup_donateRefs hs) organisations, fun k hk => ?_⟩
  obtain ⟨d, hd, rfl⟩ := List.mem_map.mp hk
  obtain ⟨ref, href, hid, -, ho, -⟩ := mem_joinDonates hd
  exact hg d.id d.organisation.id ⟨_, hid ▸ (mem_donateRefs hs).mp href, congrArg some ho.symm⟩

theorem admits_answersFor (hf : w.2.Assigned uid f) (hg : Continues f g) :
    Admits (· = uid) (fun donates => Labelled g (donates.map MyBucket.ofDonate)) (AnswersFor uid) w where
  signedIn r a w' h hu v hv := by
    rcases h.2 with he | he
    · exact hu v (he.symm.trans hv)
    · exact Option.some.inj (hv.symm.trans he)
  userManager r a w' h := userManager_kept h.1
  read r a w' h := by
    have hstored : ∀ id o, w.2.Stores uid id o → g id = some o := fun id o hs => hg id o (hf.stored id o hs)
    cases r with
    | getOrganisationsByCause causeId =>
      rcases h.1 with h | ⟨-, -, kept, w'', -, h⟩
      · exact nodup_answered h
      · exact nodup_answered h
    | getDonates v =>
      rintro rfl documents rfl organisations
      rcases h.1 with h | ⟨-, -, kept, w'', hkept, h⟩
      · exact labelled_read (h.2 _ rfl) hstored organisations
      · exact labelled_read (h.2 _ rfl) (fun id o hs => hstored id o (hkept id o hs)) organisations
    | _ => trivial

end Rows

/-! ## Every run -/

section Runs

variable {f : String → Option String} {s s' : Busy} {e : Busy.Move × List Effect} {uid : String} {a₀ : App}
  {Ok : Busy → Busy.Move × List Effect → Prop}

theorem documented_step (hstages : ∀ x ∈ s.taken, x.Stage) (h : s.Documented uid f)
    (hs : Busy.Step (AnswersFor uid) s e s') : ∃ g, s'.Documented uid g := by
  have hlists : ∀ g, Continues f g →
      s'.Lists (· = uid) (fun donates => Labelled g (donates.map MyBucket.ofDonate)) (Labelled g) :=
    fun g hg => lists_step (rowRule_labelled g) (admits_answersFor h.assigned hg) (h.lists g hg) hs
  obtain ⟨m, l⟩ := e
  obtain ⟨-, hmoved⟩ := moved_step uid (fun _ _ _ _ h => h.1) hstages hs
  cases hmoved with
  | begins hb hrecords =>
    have hsame : SamePledges s.app.world s'.app.world := hrecords.world ▸ hrecords.begun.samePledges
    exact ⟨f, hsame.assigned h.assigned, hlists⟩
  | called hsame => exact ⟨f, hsame.assigned h.assigned, hlists⟩
  | answered hr hanswer hsame =>
    obtain ⟨x, hx, call, hcall, rfl⟩ := hr
    have hkeeps : call.1.KeepsOrganisation := ((h.lists f fun _ _ => id).pending x hx call hcall).1
    rcases hanswer.1 with hanswer | ⟨-, rfl, -⟩
    · obtain ⟨g, hg, hassigned⟩ := assigned_answers hkeeps hanswer h.assigned
      exact ⟨g, hsame.assigned hassigned, fun g' hg' => hlists g' fun id o he => hg' id o (hg id o he)⟩
    · exact ⟨f, hsame.assigned h.assigned, hlists⟩

/-- Before the first touch there are no rows. -/
theorem documented_idle (hl : a₀.Launched) (hu : a₀.world.1.SignedIn (· = uid)) :
    ∃ f, a₀.idle.Documented uid f := by
  refine ⟨fun id => ((a₀.world.2.account uid).donates.lookup id).bind (·.organisation), ⟨?_, ?_⟩,
    fun g _ => lists_idle (rowRule_labelled g) hl hu⟩
  · rintro id o ⟨data, hlookup, ho⟩
    exact Option.bind_eq_some_iff.mpr ⟨data, hlookup, ho⟩
  · intro id o he
    obtain ⟨data, hlookup, -⟩ := Option.bind_eq_some_iff.mp he
    exact .inl (AList.lookup_isSome.mp (Option.isSome_of_eq_some hlookup))

theorem documented_of_history (h : History (Busy.Step (AnswersFor uid)) Ok s s')
    (hs : (∀ x ∈ s.taken, x.Stage) ∧ ∃ f, s.Documented uid f) :
    (∀ x ∈ s'.taken, x.Stage) ∧ ∃ f, s'.Documented uid f := by
  refine h.invariant (I := fun s => (∀ x ∈ s.taken, x.Stage) ∧ ∃ f, s.Documented uid f) ?_ hs
  rintro s ⟨m, l⟩ s' ⟨hstages, f, hf⟩ - hstep
  exact ⟨(moved_step uid (fun _ _ _ _ h => h.1) hstages hstep).1, documented_step hstages hf hstep⟩

end Runs

end Pledge
