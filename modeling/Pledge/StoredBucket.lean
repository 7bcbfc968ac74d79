import Pledge.PledgeFetch
import Pledge.PledgeLedger
import Pledge.RowDocuments
import Pledge.Subscription

/-!
# The bucket in the store

A monthly checkout is meant to leave the store as the bucket: one pledge for each row with an
amount, and no other. It does so for the pledges that the bucket knows of, as long as no other
touch writes pledges while it records its own.
-/

namespace Pledge

open EventLoop

/-- The store in `s'` is the bucket: a pledge for each row with an amount and no other, and what was
pledged in `s` without a row is gone. -/
structure BucketStored (uid : String) (s s' : Server) (rows : List OrganisationWithAmount) : Prop where
  documents : (Collection.documents (s'.account uid).donates).Perm
    ((kept rows).map OrganisationWithAmount.pledge)
  gone : ∀ id ∈ (s.account uid).donates, id ∉ donateIds rows → id ∉ (s'.account uid).donates

/-- The bucket knows of every stored pledge, from a row or as a loaded one whose organisation has no
row any more; and what a row with an amount edits is stored for its organisation. -/
structure Accounted (uid : String) (s : Server) (vc : MyBucket) : Prop where
  listed : ∀ id ∈ (s.account uid).donates, id ∈ donateIds vc.tableData ∨
    ∃ d ∈ vc.donates, d.id = id ∧ d.organisation.id ∉ organisationIds vc.tableData
  stored : ∀ row ∈ kept vc.tableData, ∀ id, row.donateId = some id → s.Stores uid id row.organisation.id

/-- The write of a pledge is carried out. -/
def Request.CarriedOut : (r : Request) → r.Response → Prop
  | .addDonate .., error | .setDonate .., error | .deleteDonate .., error => error = none
  | _, _ => False

/-- No pledge is written, unless in answer to the touch with number `j`. -/
def Busy.Move.Spares (j : ℕ) : Busy.Move → Prop
  | .touch _ => True
  | .answer k r a => r.CarriedOut a → k = j
  | .lost _ r a => ¬ r.CarriedOut a

/-! ## Rows and deletions -/

section Rows

variable {w w' : World} {s : Server} {uid : String} {f : String → Option String}
  {rows : List OrganisationWithAmount} {vc : MyBucket}

theorem map_fst_carried (rows : List OrganisationWithAmount) : (carried rows).map Prod.fst = donateIds rows := by
  rw [carried, donateIds, List.map_filterMap]
  refine List.filterMap_congr fun row _ => ?_
  cases row.donateId <;> rfl

theorem donateIds_append (rows rows' : List OrganisationWithAmount) :
    donateIds (rows ++ rows') = donateIds rows ++ donateIds rows' := List.filterMap_append

theorem donateIds_deletedDonates (vc : MyBucket) : donateIds vc.deletedDonates =
    (vc.donates.filter fun d => !vc.tableData.any (·.organisation.id == d.organisation.id)).map (·.id) := by
  unfold donateIds MyBucket.deletedDonates
  rw [List.filterMap_map, ← List.filterMap_eq_map]
  rfl

theorem mem_donateIds_deletedDonates {id : String} : id ∈ donateIds vc.deletedDonates ↔
    ∃ d ∈ vc.donates, d.id = id ∧ d.organisation.id ∉ organisationIds vc.tableData := by
  rw [donateIds_deletedDonates, List.mem_map]
  constructor
  · rintro ⟨d, hd, rfl⟩
    obtain ⟨hd, hnone⟩ := List.mem_filter.mp hd
    refine ⟨d, hd, rfl, fun hmem => ?_⟩
    obtain ⟨row, hrow, ho⟩ := List.mem_map.mp hmem
    simp only [Bool.not_eq_true', List.any_eq_false, beq_iff_eq] at hnone
    exact hnone row hrow ho
  · rintro ⟨d, hd, rfl, hnot⟩
    refine ⟨d, List.mem_filter.mpr ⟨hd, ?_⟩, rfl⟩
    simp only [Bool.not_eq_true', List.any_eq_false, beq_iff_eq]
    exact fun row hrow ho => hnot (List.mem_map.mpr ⟨row, hrow, ho⟩)

theorem kept_deletedDonates (vc : MyBucket) : kept (vc.tableData ++ vc.deletedDonates) = kept vc.tableData := by
  have hnone : kept vc.deletedDonates = [] := by
    rw [kept, List.filter_eq_nil_iff]
    intro row hrow
    obtain ⟨d, -, rfl⟩ := List.mem_map.mp hrow
    simp
  unfold kept at hnone ⊢
  rw [List.filter_append, hnone, List.append_nil]

/-- The writes of a checkout are for different pledges. -/
theorem nodup_donateIds {front : Front} (hs : OfScreen (Labelled f) ⟨vc, front⟩) :
    (donateIds (vc.tableData ++ vc.deletedDonates)).Nodup := by
  have hrows : (donateIds vc.tableData).Nodup := map_fst_carried vc.tableData ▸ hs.rows.1
  have hdonates := hs.donates
  unfold Labelled at hdonates
  rw [MyBucket.carried_map_ofDonate, List.map_map] at hdonates
  rw [donateIds_append]
  refine List.nodup_append.mpr ⟨hrows, ?_, fun id hrow id' hdel he => ?_⟩
  · rw [donateIds_deletedDonates]
    exact hdonates.1.sublist (List.filter_sublist.map _)
  · subst he
    obtain ⟨d, hd, rfl, hnot⟩ := mem_donateIds_deletedDonates.mp hdel
    obtain ⟨row, hmem, hdonateId⟩ := List.mem_filterMap.mp hrow
    have hrow : f d.id = some row.organisation.id := hs.rows.2 _ (mem_carried hmem hdonateId)
    have hdonate : f d.id = some d.organisation.id := hdonates.2 _ (List.mem_map_of_mem hd)
    exact hnot (List.mem_map.mpr ⟨row, hmem, Option.some.inj (hrow.symm.trans hdonate)⟩)

theorem used_of_mem_donateIds (hf : s.Assigned uid f) (h : Labelled f rows) {id : String}
    (hid : id ∈ donateIds rows) : s.Used uid id := by
  rw [← map_fst_carried] at hid
  obtain ⟨k, hk, rfl⟩ := List.mem_map.mp hid
  exact hf.used k.1 k.2 (h.2 k hk)

theorem used_donateIds {front : Front} (hf : s.Assigned uid f) (hs : OfScreen (Labelled f) ⟨vc, front⟩) :
    ∀ id ∈ donateIds (vc.tableData ++ vc.deletedDonates), s.Used uid id := by
  intro id hid
  rw [donateIds_append] at hid
  rcases List.mem_append.mp hid with hid | hid
  · exact used_of_mem_donateIds hf hs.rows hid
  · obtain ⟨d, hd, rfl, -⟩ := mem_donateIds_deletedDonates.mp hid
    exact used_of_mem_donateIds hf hs.donates
      (List.mem_filterMap.mpr ⟨MyBucket.ofDonate d, List.mem_map_of_mem hd, rfl⟩)

theorem stored_of_stores {row : OrganisationWithAmount}
    (h : ∀ id, row.donateId = some id → s.Stores uid id row.organisation.id) :
    row.stored (s.account uid).donates = row.pledge := by
  unfold OrganisationWithAmount.stored
  cases hid : row.donateId with
  | none => rfl
  | some id =>
    obtain ⟨data, hlookup, ho⟩ := h id hid
    simp [hlookup, DonateDoc.merge, ho, OrganisationWithAmount.pledge]

/-- An edit without the organisation leaves one only where it is stored, and then the row's. -/
theorem stores_of_stored {row : OrganisationWithAmount} (hf : s.Assigned uid f) (hrow : row ∈ rows)
    (hd : Labelled f rows) (ho : (row.stored (s.account uid).donates).organisation ≠ none) :
    ∀ id, row.donateId = some id → s.Stores uid id row.organisation.id := by
  intro id hid
  unfold OrganisationWithAmount.stored at ho
  rw [hid] at ho
  cases hlookup : (s.account uid).donates.lookup id with
  | none => simp [hlookup, DonateDoc.merge] at ho
  | some data =>
    obtain ⟨o, hdata⟩ := Option.ne_none_iff_exists'.mp (by simpa [hlookup, DonateDoc.merge] using ho)
    have hstored : f id = some o := hf.stored id o ⟨data, hlookup, hdata⟩
    have hlabel : f id = some row.organisation.id := hd.2 _ (mem_carried hrow hid)
    obtain rfl := Option.some.inj (hlabel.symm.trans hstored)
    exact ⟨data, hlookup, hdata⟩

/-- A checkout whose writes are all carried out leaves the store as the bucket exactly when the bucket
has accounted for the store. -/
theorem bucketStored_writes {tips : Int} {front : Front} (hm : vc.isOneTimePaymentMode = false)
    (hf : w.2.Assigned uid f) (hs : OfScreen (Labelled f) ⟨vc, front⟩)
    (hw : (vc.showDonateConfirmation tips).Writes uid w w' true) :
    BucketStored uid w.2 w'.2 vc.tableData ↔ Accounted uid w.2 vc := by
  have hitems : (vc.showDonateConfirmation tips).donateItems = vc.tableData ++ vc.deletedDonates := by
    simp [MyBucket.showDonateConfirmation, hm]
  obtain ⟨hdocs, hgone⟩ := DonateConfirmation.documents_writes hw
    (by rw [hitems]; exact nodup_donateIds hs) (by rw [hitems]; exact used_donateIds hf hs)
  rw [hitems, kept_deletedDonates] at hdocs
  rw [hitems] at hgone
  constructor
  · intro hstored
    have hperm := hdocs.symm.trans hstored.documents
    -- as many documents as rows: there is none that no row was for
    have hnil : Collection.without (w.2.account uid).donates
        (donateIds (vc.tableData ++ vc.deletedDonates)) = [] := by
      have hlength := hperm.length_eq
      rw [List.length_append, List.length_map, List.length_map] at hlength
      exact List.eq_nil_of_length_eq_zero (by omega)
    refine ⟨fun id hid => ?_, fun row hrow => ?_⟩
    · have hmem := Collection.without_eq_nil.mp hnil id hid
      rw [donateIds_append] at hmem
      exact (List.mem_append.mp hmem).imp_right mem_donateIds_deletedDonates.mp
    · have hmem := hperm.subset (List.mem_append_left _ (List.mem_map_of_mem hrow))
      obtain ⟨row', -, he⟩ := List.mem_map.mp hmem
      refine stores_of_stored hf (List.mem_of_mem_filter hrow) hs.rows ?_
      rw [← he]
      exact Option.some_ne_none _
  · intro haccounted
    have hnil : Collection.without (w.2.account uid).donates
        (donateIds (vc.tableData ++ vc.deletedDonates)) = [] := by
      refine Collection.without_eq_nil.mpr fun id hid => ?_
      rw [donateIds_append]
      exact List.mem_append.mpr ((haccounted.listed id hid).imp_right mem_donateIds_deletedDonates.mpr)
    rw [hnil, List.append_nil] at hdocs
    refine ⟨?_, fun id hid hnot => ?_⟩
    · rwa [List.map_congr_left fun row hrow => stored_of_stores (haccounted.stored row hrow)] at hdocs
    · obtain ⟨d, hd, rfl, horg⟩ := (haccounted.listed id hid).resolve_left hnot
      have hmem := mem_donateIds_deletedDonates.mpr ⟨d, hd, rfl, horg⟩
      obtain ⟨item, hitem, hdonateId⟩ := List.mem_filterMap.mp hmem
      obtain ⟨_, -, rfl⟩ := List.mem_map.mp hitem
      exact hgone _ (List.mem_append_right _ hitem) d.id hdonateId (lt_irrefl _)

end Rows

/-! ## A recording among other touches -/

section Among

variable {v w w' t t' : World} {h : List Frame} {l : List Effect} {uid : String} {c : DonateConfirmation}
  {Kept : Server → Server → Prop} {serve : World → (r : Request) → r.Response → World → Prop}

theorem exists_written {r : Request} {ok : Account → Account → Prop} {error : Option String}
    (hok : ∀ a a' b, a'.donates = a.donates → a'.deletedDonates = a.deletedDonates → ok a b →
      ∃ b', ok a' b' ∧ b'.donates = b.donates ∧ b'.deletedDonates = b.deletedDonates)
    (hs : SamePledges v t) (ha : Written t r uid ok error t') :
    ∃ v', Written v r uid ok error v' ∧ SamePledges v' t' := by
  cases error with
  | some e =>
    obtain rfl : t' = t := ha
    exact ⟨v, rfl, hs⟩
  | none =>
    obtain ⟨b, hb, rfl⟩ := ha
    obtain ⟨b', hb', hd, hdel⟩ := hok _ (v.2.account uid) b (hs uid).1.symm (hs uid).2.symm hb
    refine ⟨_, ⟨b', hb', rfl⟩, fun u => ?_⟩
    by_cases hu : u = uid
    · subst hu
      simp [Server.setAccount, Server.record, hd, hdel]
    · simpa [Server.setAccount, Server.record, hu] using hs u

/-- The write of a pledge does to the pledges what it does to the same ones elsewhere. -/
theorem exists_answers_of_same {r : Request} {a : r.Response} (hr : r.Pledges) (hs : SamePledges v t)
    (ha : Answers t r a t') : ∃ v', Answers v r a v' ∧ SamePledges v' t' := by
  cases r with
  | addDonate uid data =>
    simp only [Answers] at ha ⊢
    refine exists_written (fun a a' b hd hdel hb => ?_) hs ha
    obtain ⟨id, hid, hdeleted, rfl⟩ := hb
    exact ⟨_, ⟨id, hd ▸ hid, hdel ▸ hdeleted, rfl⟩, by rw [hd], hdel⟩
  | setDonate uid id data =>
    simp only [Answers] at ha ⊢
    refine exists_written (fun a a' b hd hdel hb => ?_) hs ha
    subst hb
    exact ⟨_, rfl, by rw [hd], hdel⟩
  | deleteDonate uid id =>
    simp only [Answers] at ha ⊢
    refine exists_written (fun a a' b hd hdel hb => ?_) hs ha
    subst hb
    exact ⟨_, rfl, by rw [hd], by rw [hdel]⟩
  | _ => exact hr.elim

theorem not_pledges_of_reads {r : Request} (hr : r.Reads) : ¬ r.Pledges := by
  cases r <;> first | exact id | exact hr.elim

theorem servesAll_of_interfered {answers : List (Answered Bool Request.Response)}
    (hserve : ∀ w r a w', serve w r a w' → AnswersOrKept Kept w r a w')
    (h : ServesAll (interfered SamePledges serve) w answers w') (hr : ∀ a ∈ answers, a.1.1.Pledges)
    (hs : SamePledges v w) : ∃ v', ServesAll Answers v answers v' ∧ SamePledges v' w' := by
  induction h generalizing v with
  | nil => exact ⟨v, .nil v, hs⟩
  | @cons w w₁ w₂ a answers ha _ ih =>
    obtain ⟨t, hwt, ha⟩ := ha
    have hpledges := hr a List.mem_cons_self
    have hanswer : Answers t a.1.1 a.2 w₁ := by
      rcases hserve _ _ _ _ ha with ha | ⟨hreads, -⟩
      · exact ha
      · exact absurd hpledges (not_pledges_of_reads hreads)
    obtain ⟨v₁, hv, hsame⟩ := exists_answers_of_same hpledges (hs.trans hwt) hanswer
    obtain ⟨v₂, hrest, hlast⟩ := ih (fun b hb => hr b (List.mem_cons_of_mem _ hb)) hsame
    exact ⟨v₂, .cons hv hrest, hlast⟩

theorem pledges_of_write? {item : OrganisationWithAmount} {b : Branch Bool Request.Response}
    (hb : DonateConfirmation.write? uid item = some b) : b.1.Pledges := by
  obtain ⟨amount, organisation, donateId⟩ := item
  cases donateId <;> by_cases hpos : 0 < amount <;> simp [DonateConfirmation.write?, hpos] at hb <;>
    subst hb <;> trivial

theorem respects_interfered (hserve : ∀ w r a w', serve w r a w' → AnswersOrKept Kept w r a w') :
    Respects sparing (interfered SamePledges serve) SamePledges where
  refl := SamePledges.refl
  trans _ _ _ := SamePledges.trans
  modify _ _ _ := fun _ => ⟨rfl, rfl⟩
  answer _ _ _ _ hr := fun ⟨_, ht, ha⟩ => ht.trans (samePledges_kept hr (hserve _ _ _ _ ha))

/-- What shows no result. -/
def failing : Footprint Device Effect Request where
  asks _ := True
  modifies _ := True
  emits e := ¬ e.ShowsResult

theorem failing_handler : (c.sendToUpdateDonatesHandler false).Within failing := by
  have hblock : (c.completionBlock false).Within failing := ⟨id, id, trivial⟩
  intro d
  dsimp only
  split
  · refine within_withUid id hblock fun uid d => ?_
    dsimp only
    split
    · refine within_ask.mpr ⟨trivial, fun error => ?_⟩
      split
      · exact ⟨trivial, hblock⟩
      · exact hblock
    · exact hblock
  · exact hblock

/-- Behind a success screen of the signed-in user are writes that were all carried out. -/
theorem writes_interfered (hserve : ∀ w r a w', serve w r a w' → AnswersOrKept Kept w r a w')
    (hu : w.1.SignedIn (· = uid)) (hdone : ∃ e ∈ l, e.ShowsResult)
    (hy : c.sendToUpdateDonates.Yields (interfered SamePledges serve) w h w' l) : c.Writes uid w w' true := by
  have hrespects := respects_interfered hserve
  -- the handler of writes that have failed does not show it
  have hsuccess : ∀ {w w' h l success}, (c.sendToUpdateDonatesHandler success).Yields
      (interfered SamePledges serve) w h w' l → (∃ e ∈ l, e.ShowsResult) → success = true := by
    intro w w' h l success hk hdone
    cases success with
    | true => rfl
    | false =>
      obtain ⟨e, he, hshows⟩ := hdone
      exact absurd hshows ((within_yields respects_true failing_handler hk).2 e he)
  obtain ⟨l', rfl, hrecording⟩ := DonateConfirmation.sendToUpdateDonates_cases hy
  obtain ⟨e, he, hshows⟩ := hdone
  have he' : e ∈ l' := by
    rcases List.mem_cons.mp he with rfl | he
    · exact hshows.elim
    · exact he
  cases hrecording with
  | nothing => cases he'
  | @signedOut _ l₂ hnone _ hk =>
    have hall := hsuccess hk ⟨e, ?_, hshows⟩
    · have hnil : c.donateItems.filterMap (DonateConfirmation.write? uid) = [] := by
        refine List.filterMap_eq_nil_iff.mpr fun item hitem => ?_
        have hitem := List.all_eq_true.mp hall item hitem
        rw [DonateConfirmation.write?_isSome_iff "" uid] at hitem
        simpa using hitem
      have hsame := (within_yields hrespects (DonateConfirmation.sparing_handler _) hk).1
      exact ⟨w, w, [], .refl w, by rw [hnil, List.map_nil], .nil w, hsame, rfl⟩
    · rcases List.mem_append.mp he' with he' | he'
      · rw [List.eq_of_mem_replicate he'] at hshows
        exact hshows.elim
      · exact he'
  | @answered v answers w₂ _ _ hv _ hperm hanswers hk =>
    obtain rfl := hu v hv
    have hpledges : ∀ a ∈ answers, a.1.1.Pledges := by
      intro a ha
      obtain ⟨item, -, hitem⟩ := DonateConfirmation.answer_of_perm hperm ha
      exact pledges_of_write? hitem
    obtain ⟨w₁, hserved, hsame⟩ := servesAll_of_interfered hserve hanswers hpledges (.refl w)
    have hlast := (within_yields hrespects (DonateConfirmation.sparing_handler _) hk).1
    exact ⟨w, w₁, answers, .refl w, hperm, hserved, hsame.trans hlast, hsuccess hk ⟨e, he', hshows⟩⟩

end Among

/-! ## Every run -/

section Runs

variable {serve : World → (r : Request) → r.Response → World → Prop} {Kept : Server → Server → Prop}
  {s s' : Busy} {m : Busy.Move} {l : List Effect} {j : ℕ} {d₀ : Loop}

/-- From `d₀` on the touch with number `j`, which was `y` then, is answered among other touches. -/
structure Busy.Follows (serve : World → (r : Request) → r.Response → World → Prop) (d₀ : Loop) (j : ℕ)
    (y : Taken) (s : Busy) : Prop where
  among : ∃ x lost, s.taken[j]? = some x ∧ x.app = y.app ∧ x.touch = y.touch ∧
    Among SamePledges serve d₀ x.toWaiting lost s.app.world

theorem samePledges_of_not_carriedOut {w w' : World} {r : Request} {a : r.Response} (h : ¬ r.CarriedOut a)
    (hs : AnswersOrKept Kept w r a w') : SamePledges w w' := by
  by_cases hr : r.Pledges
  · rcases hs with hs | ⟨-, rfl, -⟩
    · cases r with
      | addDonate | setDonate | deleteDonate =>
        cases a with
        | none => exact absurd rfl h
        | some error =>
          obtain rfl : w' = w := hs
          exact .refl _
      | _ => exact hr.elim
    · exact .refl _
  · exact samePledges_kept hr hs

theorem follows_step {y : Taken} (hserve : ∀ w r a w', serve w r a w' → AnswersOrKept Kept w r a w')
    (h : s.Follows serve d₀ j y) (hok : m.Spares j) (hs : Busy.Step serve s (m, l) s') :
    s'.Follows serve d₀ j y := by
  obtain ⟨x, lost, hx, happ, htouch, hamong⟩ := h.among
  have hlt := (List.getElem?_eq_some_iff.mp hx).1
  have htrans : ∀ s t u, SamePledges s t → SamePledges t u → SamePledges s u := fun _ _ _ => SamePledges.trans
  have hothers : ∀ {k : ℕ} {z : Taken}, k ≠ j → (s.taken.set k z)[j]? = some x := by
    intro k z hne
    rw [List.getElem?_set_ne hne]
    exact hx
  generalize he : (m, l) = e at hs
  cases hs with
  | @touch i b a p d hp hd hl =>
    cases he
    refine ⟨x, lost, ?_, happ, htouch, hamong.others htrans fun u => ?_⟩
    · rw [List.getElem?_append_left hlt]
      exact hx
    · have hsame := samePledges_exec p (.fresh _ b.world) u
      rw [hl.world, ← hd, ← congrArg (fun w => w.account u) (press_server hp)]
      exact hsame
  | @answer k z r callback pre post response w d l' a hz hp hw hd ho hl =>
    cases he
    by_cases hk : k = j
    · subst hk
      obtain rfl := Option.some.inj (hx.symm.trans hz)
      refine ⟨⟨d.waiting, x.app, x.touch⟩, lost, by simp [hlt], happ, htouch, ?_⟩
      rw [hl.world]
      exact hamong.answer SamePledges.refl hp hw hd
    · refine ⟨x, lost, hothers hk, happ, htouch, hamong.others htrans ?_⟩
      have hsame : SamePledges s.app.world w :=
        samePledges_of_not_carriedOut (fun hcarried => hk (hok hcarried)) (hserve _ _ _ _ hw)
      rw [hl.world, ← hd]
      exact hsame.trans (samePledges_exec (callback response) ⟨w, z.heap, pre ++ post, z.out⟩)
  | @lost k z r callback pre post response w hz hp hw =>
    cases he
    have hsame : SamePledges s.app.world w := samePledges_of_not_carriedOut hok (hserve _ _ _ _ hw)
    by_cases hk : k = j
    · subst hk
      obtain rfl := Option.some.inj (hx.symm.trans hz)
      exact ⟨{ x with pending := pre ++ post }, ⟨r, callback⟩ :: lost, by simp [hlt], happ, htouch,
        hamong.lose htrans hp hsame⟩
    · exact ⟨x, lost, hothers hk, happ, htouch, hamong.others htrans hsame⟩

theorem follows_records {c : DonateConfirmation} {y : Taken} (h : s.Records j c s' y d₀) :
    s'.Follows serve d₀ j y := by
  refine ⟨y, [], h.taken, rfl, rfl, ?_⟩
  rw [h.world, h.waiting]
  exact among_start SamePledges.refl

/-- Once its success screen is shown, a recording has carried out its writes, and nothing else has been
written since it began. -/
theorem writes_of_follows {uid : String} {c : DonateConfirmation} {y x : Taken}
    (hserve : ∀ w r a w', serve w r a w' → AnswersOrKept Kept w r a w')
    (hreject : ∀ w r, ∃ a, serve w r a w) (hb : c.Begun s.app.world d₀)
    (hu : s.app.world.1.SignedIn (· = uid)) (h : s'.Follows serve d₀ j y) (hx : s'.taken[j]? = some x)
    (hdone : ∃ e ∈ x.out, e.ShowsResult) : c.Writes uid s.app.world s'.app.world true := by
  obtain ⟨w₀, h₀, o, rfl, huser, hbefore, hnone⟩ := hb
  obtain ⟨x', lost, hx', -, -, hamong⟩ := h.among
  obtain rfl := Option.some.inj (hx.symm.trans hx')
  have hquiet : (⟨w₀, h₀, [], o⟩ : Loop).Quiet := rfl
  obtain ⟨t, w', l, hseen, hy, hserver, hafter⟩ := hamong.yields hreject SamePledges.refl hquiet
  have hshown : ∃ e ∈ l, e.ShowsResult := by
    obtain ⟨e, he, hshows⟩ := hdone
    rcases List.mem_append.mp (hseen.subset he) with he | he
    · exact absurd hshows (hnone e he)
    · exact ⟨e, he, hshows⟩
  have hsigned : w₀.1.SignedIn (· = uid) := fun v hv => hu v (huser ▸ hv)
  obtain ⟨w₁, w₂, answers, hfirst, hperm, hanswers, hlast, hok⟩ :=
    (writes_interfered hserve hsigned hshown hy).answered
  have hsame : SamePledges w' t := fun u => by rw [hserver]; exact ⟨rfl, rfl⟩
  exact ⟨w₁, w₂, answers, hbefore.trans hfirst, hperm, hanswers, (hlast.trans hsame).trans hafter, hok⟩

end Runs

section Success

variable {a₀ : App} {s s₁ s₂ : Busy} {m : Busy.Move} {l : List Effect} {j : ℕ} {x : Taken} {uid : String}
  {below : Page} {vc : MyBucket} {c c' : DonateConfirmation}

theorem answersFor_kept (w : World) (r : Request) (a : r.Response) (w' : World) (h : AnswersFor uid w r a w') :
    AnswersOrKept (fun s kept => ∀ id o, kept.Stores uid id o → s.Stores uid id o) w r a w' := h.1

theorem answersFor_rejected (w : World) (r : Request) : ∃ a, AnswersFor uid w r a w :=
  ⟨r.rejected, .inl (answers_rejected w r), .inl rfl⟩

/-- A recording whose success screen is shown, of a bucket whose rows are labelled. -/
theorem bucketStored_checkout {f : String → Option String} (hstages : ∀ x ∈ s.taken, x.Stage)
    (hdocumented : s.Documented uid f) (hb : s.Begins m j c) (hs : Busy.Step (AnswersFor uid) s (m, l) s₁)
    (hrun : History (Busy.Step (AnswersFor uid)) (fun _ e => e.1.Spares j) s₁ s₂)
    (hx : s₂.taken[j]? = some x) (hp : x.app.page = .bucket below ⟨vc, .confirmation c'⟩)
    (hm : vc.isOneTimePaymentMode = false) (hdone : ∃ e ∈ x.out, e.ShowsResult) :
    BucketStored uid s.app.world.2 s₂.app.world.2 vc.tableData ↔ Accounted uid s.app.world.2 vc := by
  obtain ⟨y, d, hrecords⟩ := records_step answersFor_kept hstages hb hs
  have hlists := hdocumented.lists f fun _ _ => id
  have hadmits := admits_answersFor hdocumented.assigned (g := f) fun _ _ => id
  have hlists₁ := lists_step (rowRule_labelled f) hadmits hlists hs
  have hfollows : s₂.Follows (AnswersFor uid) d j y :=
    hrun.invariant (I := fun s => s.Follows (AnswersFor uid) d j y)
      (fun _ _ _ hfollows hok hstep => follows_step answersFor_kept hfollows hok hstep)
      (follows_records hrecords)
  have hwrites := writes_of_follows answersFor_kept answersFor_rejected hrecords.begun
    hlists.app.device.signedIn hfollows hx hdone
  obtain ⟨x', -, hx', happ, -, -⟩ := hfollows.among
  obtain rfl := Option.some.inj (hx.symm.trans hx')
  -- the bucket is the one the recording was given
  have hpage : y.app.page = .bucket below ⟨vc, .confirmation c'⟩ := happ ▸ hp
  have hscreen := (hlists₁.origin y (List.mem_of_getElem? hrecords.taken)).screen below _ hpage
  obtain rfl : c = c' := by
    obtain ⟨below', bucket', hpage'⟩ := exists_page hrecords.confirmation
    cases hpage.symm.trans hpage'
    rfl
  obtain ⟨tips, hc⟩ := hscreen.pushed c rfl
  dsimp only at hc
  subst hc
  exact bucketStored_writes hm hdocumented.assigned hscreen hwrites

/-- In every run, from any collection, a monthly checkout that shows its success screen has left the
store as the bucket exactly when the bucket had accounted for the store as its recording began, if no
other touch has written pledges since. -/
theorem bucketStored_of_success (hl : a₀.Launched) (hu : a₀.world.1.SignedIn (· = uid))
    (h : History (Busy.Step (AnswersFor uid)) (fun _ _ => True) a₀.idle s) (hb : s.Begins m j c)
    (hs : Busy.Step (AnswersFor uid) s (m, l) s₁)
    (hrun : History (Busy.Step (AnswersFor uid)) (fun _ e => e.1.Spares j) s₁ s₂)
    (hx : s₂.taken[j]? = some x) (hp : x.app.page = .bucket below ⟨vc, .confirmation c'⟩)
    (hm : vc.isOneTimePaymentMode = false) (hdone : ∃ e ∈ x.out, e.ShowsResult) :
    BucketStored uid s.app.world.2 s₂.app.world.2 vc.tableData ↔ Accounted uid s.app.world.2 vc := by
  obtain ⟨hstages, f, hdocumented⟩ := documented_of_history h ⟨stages_idle a₀, documented_idle hl hu⟩
  exact bucketStored_checkout hstages hdocumented hb hs hrun hx hp hm hdone

/-- There is such a moment wherever the success screen of a monthly checkout is shown. -/
theorem exists_begins {serve : World → (r : Request) → r.Response → World → Prop} {Kept : Server → Server → Prop}
    {Ok : Busy → Busy.Move × List Effect → Prop} (hserve : ∀ w r a w', serve w r a w' → AnswersOrKept Kept w r a w')
    (h : History (Busy.Step serve) Ok a₀.idle s) (hx : s.taken[j]? = some x) (hc : x.confirmation? = some c)
    (hm : c.isOneTimeMode = false) (hdone : ∃ e ∈ x.out, e.ShowsResult) : BeginsIn serve a₀.idle j c s := by
  refine (waits_or_begins hserve h hx hc hm).resolve_left fun hwaits => ?_
  obtain ⟨e, he, -⟩ := hdone
  have hnone : x.out = [] := by cases hwaits <;> assumption
  rw [hnone] at he
  cases he

end Success

/-! ## Ann -/

/-- Ann is signed in, and has pledged five to each of two organisations. -/
def annPledger : App :=
  { world := ({ currentUser := some "ann" },
      { account := fun _ =>
          { user := some { email := some "ann@mail.com", defaultDonateAmount := some 10 }
            donates := (AList.singleton "p2" { amount := some 5, organisation := some "shelter" }).insert "p1"
              { amount := some 5, organisation := some "kitchen" } }
        organisations := (AList.singleton "shelter" {}).insert "kitchen" {} })
    page := .root }

theorem launched_annPledger : annPledger.Launched := ⟨rfl, rfl, rfl, rfl, rfl⟩

/-- Her pledges, as My Impacts shows them. -/
def annDonates : List DonateItem :=
  [{ id := "p1", amount := 5, organisation := { id := "kitchen" } },
    { id := "p2", amount := 5, organisation := { id := "shelter" } }]

def annReader : Device :=
  { currentUser := some "ann"
    userManager :=
      { user := some { email := "ann@mail.com", displayName := none, defaultDonateAmount := 10 } }
    donateRefs := some [⟨"p1", 5, "kitchen"⟩, ⟨"p2", 5, "shelter"⟩] }

theorem yields_annOrganisations {k : List OrganisationItem → Prog} {w' : World} {h : List Frame}
    {l : List Effect} (hk : ∀ h, (k [{ id := "kitchen" }, { id := "shelter" }]).Yields (SucceedsFor "ann")
      (annReader, annPledger.world.2) h w' l) :
    (FirestoreManager.fetchOrganisationsIn ["kitchen", "shelter"] k).Yields (SucceedsFor "ann")
      (annReader, annPledger.world.2) h w' l := by
  rw [FirestoreManager.fetchOrganisationsIn, if_neg (by decide), yields_read]
  refine (yields_fanOut Frame.queryCount (fun _ _ => rfl) (fun _ => rfl) (Nat.zero_add _) (by decide)).mpr
    ⟨[completeAnswer annPledger.world.2 ["kitchen", "shelter"]], (annReader, annPledger.world.2), _,
      .refl _, .cons ⟨⟨⟨rfl, ?_⟩, Option.some_ne_none _⟩, .inl rfl⟩ (.nil _), rfl, yields_read.mpr (hk _)⟩
  rintro l ⟨⟩
  exact ⟨_, Collection.exists_snapshot _, rfl⟩

theorem yields_annDonates : MyImpacts.loadActiveDonates.Yields (SucceedsFor "ann") annPledger.world []
    (annReader, annPledger.world.2) [.showActiveDonates annDonates] := by
  have hjoin : (FirestoreManager.fetchOrganisationsIn ["kitchen", "shelter"] fun organisations =>
      showDonates (some (FirestoreManager.joinDonates [⟨"p1", 5, "kitchen"⟩, ⟨"p2", 5, "shelter"⟩]
        organisations))).Yields (SucceedsFor "ann") (annReader, annPledger.world.2) []
          (annReader, annPledger.world.2) [.showActiveDonates annDonates] :=
    yields_annOrganisations fun h => yields_emit_stop.mpr ⟨rfl, rfl⟩
  refine yields_read.mpr (yields_ask.mpr
    ⟨some ⟨"ann", some { email := some "ann@mail.com", defaultDonateAmount := some 10 }⟩, _,
      ⟨⟨⟨rfl, .inr rfl⟩, nofun⟩, .inl rfl⟩, yields_modify.mpr (yields_read.mpr (yields_ask.mpr
        ⟨some [⟨"p1", some { amount := some 5, organisation := some "kitchen" }⟩,
          ⟨"p2", some { amount := some 5, organisation := some "shelter" }⟩], _,
          ⟨⟨⟨rfl, ?_⟩, nofun⟩, .inl rfl⟩, yields_modify.mpr hjoin⟩))⟩)
  rintro l ⟨⟩
  exact Collection.exists_snapshot _

/-- My Impacts has opened them as a bucket. -/
def annAdjusting : App :=
  { world := (annReader, annPledger.world.2)
    page := .bucket .root ⟨{ myImpactDonates := some annDonates
                             donateAmount := 10
                             tableData := annDonates.map MyBucket.ofDonate
                             completeEnabled := true }, .rows⟩
    activeDonates := annDonates }

theorem history_annAdjusting :
    History (App.Step fun _ => SucceedsFor "ann") (fun _ _ => True) annPledger annAdjusting := by
  have hshown : History (App.Step fun _ => SucceedsFor "ann") (fun _ _ => True) annPledger
      { world := (annReader, annPledger.world.2), page := .root, activeDonates := annDonates } :=
    .tail (e := (.loadActiveDonates, _)) .refl trivial ⟨_, _, _, rfl, yields_annDonates, rfl⟩
  exact .tail (e := (.adjustActiveDonationsButtonPressed, _)) hshown trivial
    ⟨_, _, _, rfl, ⟨_, .refl, rfl⟩, rfl⟩

/-- From her pledges Ann may come to a bucket with these rows, and check it out. -/
def AnnChecksOut (rows : List OrganisationWithAmount) : Prop :=
  ∃ (s s₁ s₂ : Busy) (m : Busy.Move) (l : List Effect) (j : ℕ) (x : Taken) (below : Page) (vc : MyBucket)
    (c : DonateConfirmation), History (Busy.Step (SucceedsFor "ann")) (fun _ _ => True) annPledger.idle s ∧
    s.Begins m j c ∧ Busy.Step (SucceedsFor "ann") s (m, l) s₁ ∧
    History (Busy.Step (SucceedsFor "ann")) (fun _ e => e.1.Spares j) s₁ s₂ ∧ s₂.taken[j]? = some x ∧
    x.app.page = .bucket below ⟨vc, .confirmation c⟩ ∧ s.app.world.2 = annPledger.world.2 ∧
    vc.isOneTimePaymentMode = false ∧ vc.donates = [] ∧ vc.tableData = rows ∧ ∃ e ∈ x.out, e.ShowsResult

theorem annChecksOut_of_history {a : App} {below : Page} {vc : MyBucket} {tips : Int}
    (h : History (App.Step fun _ => SucceedsFor "ann") (fun _ _ => True) annPledger a)
    (hp : a.page = .bucket below ⟨vc, .confirmation (vc.showDonateConfirmation tips)⟩)
    (hs : a.world.2 = annPledger.world.2) (hu : a.world.1.currentUser = some "ann")
    (huser : a.world.1.userManager.user = annReader.userManager.user)
    (hskip : (vc.showDonateConfirmation tips).Skips a.world.1)
    (hm : vc.isOneTimePaymentMode = false) (hd : vc.donates = []) (hne : vc.tableData ≠ []) :
    AnnChecksOut vc.tableData := by
  have ha : Amounts "ann" a.world 10 none := by
    have hdoc : (a.world.2.account "ann").user =
        some { email := some "ann@mail.com", defaultDonateAmount := some 10 } := by
      rw [hs]
      rfl
    exact ⟨hu, ⟨_, huser, rfl, rfl⟩, _, hdoc, rfl, rfl⟩
  have hitems : (vc.showDonateConfirmation tips).donateItems ≠ [] := by
    simp [MyBucket.showDonateConfirmation, hm, hne]
  obtain ⟨w', l, hy, hl⟩ := DonateConfirmation.exists_press hm ha hitems
  obtain ⟨w, page, activeDonates⟩ := a
  obtain rfl : page = _ := hp
  obtain ⟨ts, -, hrun⟩ := history_of_history (fun _ _ => True) h (fun _ _ _ _ _ _ => trivial)
    fun _ _ _ _ _ _ _ _ _ _ => trivial
  have hpress : App.Step (fun _ => SucceedsFor "ann")
      { world := w, page := .bucket below ⟨vc, .confirmation (vc.showDonateConfirmation tips)⟩, activeDonates }
      (.completeCheckoutButtonPressed, l) _ := ⟨_, _, w', rfl, succeedsFor_press hy, rfl⟩
  obtain ⟨x, l', s, -, rfl, happ, htouch, hanswered⟩ := history_of_step (fun _ e => e.1.Spares ts.length)
    hpress ts fun _ _ _ _ _ _ => rfl
  exact ⟨_, s, _, _, l', ts.length, x, below, vc, _, hrun, .touch rfl hskip, htouch, hanswered, by simp,
    congrArg App.page happ, hs, hm, hd, rfl, _, hl, trivial⟩

/-- Ann leaves the bucket as it is. -/
theorem annChecksOut_all : AnnChecksOut (annDonates.map MyBucket.ofDonate) := by
  have hcomplete := history_annAdjusting.tail (e := (.bucket .completeButtonPressed, [])) trivial
    ⟨_, _, _, rfl, ⟨_, .refl, rfl⟩, rfl⟩
  have htips := hcomplete.tail (e := (.bucket (.donateTips 0), [])) trivial
    ⟨_, _, _, rfl, ⟨_, .refl, rfl⟩, rfl⟩
  exact annChecksOut_of_history htips rfl rfl rfl rfl rfl rfl rfl (List.cons_ne_nil _ _)

/-- Ann deletes the kitchen's row, and gives all to the shelter. -/
theorem annChecksOut_shelter :
    AnnChecksOut [{ amount := 10, organisation := { id := "shelter" }, donateId := some "p2" }] := by
  have hdeleted := history_annAdjusting.tail (e := (.bucket (.rowDeleted 0), [])) trivial
    ⟨_, _, _, rfl, ⟨_, .refl, rfl⟩, rfl⟩
  have hmoved := hdeleted.tail (e := (.bucket (.sliderMoved 0 10), [])) trivial
    ⟨_, _, _, rfl, ⟨_, .refl, rfl⟩, rfl⟩
  have hcomplete := hmoved.tail (e := (.bucket .completeButtonPressed, [])) trivial
    ⟨_, _, _, rfl, ⟨_, .refl, rfl⟩, rfl⟩
  have htips := hcomplete.tail (e := (.bucket (.donateTips 0), [])) trivial
    ⟨_, _, _, rfl, ⟨_, .refl, rfl⟩, rfl⟩
  exact annChecksOut_of_history htips rfl rfl rfl rfl rfl rfl rfl (List.cons_ne_nil _ _)

theorem signedIn_annPledger : annPledger.world.1.SignedIn (· = "ann") := fun _ hu => (Option.some.inj hu).symm

theorem answersFor_succeeds (w : World) (r : Request) (a : r.Response) (w' : World)
    (h : SucceedsFor uid w r a w') : AnswersFor uid w r a w' := ⟨.inl h.1.1, h.2⟩

/-- What My Impacts has listed is what is stored once Ann has checked it out. -/
theorem bucketStored_of_success_ann : ∃ s' : Server,
    BucketStored "ann" annPledger.world.2 s' (annDonates.map MyBucket.ofDonate) := by
  obtain ⟨s, s₁, s₂, m, l, j, x, below, vc, c, h, hb, hstep, hrun, hx, hp, hs, hm, hd, hrows, hdone⟩ :=
    annChecksOut_all
  have hmono : ∀ {s e s'}, Busy.Step (SucceedsFor "ann") s e s' → Busy.Step (AnswersFor "ann") s e s' :=
    fun h => h.mono answersFor_succeeds
  have hiff := bucketStored_of_success launched_annPledger signedIn_annPledger
    (h.mono (fun _ _ _ => hmono) fun _ _ h => h) hb (hmono hstep) (hrun.mono (fun _ _ _ => hmono) fun _ _ h => h)
    hx hp hm hdone
  rw [hs, hrows] at hiff
  refine ⟨s₂.app.world.2, hiff.mpr ⟨fun id hid => .inl ?_, ?_⟩⟩
  · rw [hrows]
    exact hid
  · rw [hrows]
    intro row hrow id hid
    obtain ⟨d, hmem, rfl⟩ := List.mem_map.mp (List.mem_of_mem_filter hrow)
    obtain rfl : d.id = id := Option.some.inj hid
    rcases List.mem_cons.mp hmem with rfl | hmem
    · exact ⟨_, rfl, rfl⟩
    · obtain rfl := List.mem_singleton.mp hmem
      exact ⟨_, rfl, rfl⟩

/-- The kitchen's row is deleted, and its pledge is stored for good. -/
theorem not_bucketStored_of_success :
    ¬ ∀ (uid : String) (a₀ : App) (s s₁ s₂ : Busy) (m : Busy.Move) (l : List Effect) (j : ℕ) (x : Taken)
      (below : Page) (vc : MyBucket) (c : DonateConfirmation), a₀.Launched → a₀.world.1.SignedIn (· = uid) →
      (∀ id ∈ (a₀.world.2.account uid).donates, ∃ o ∈ a₀.world.2.organisations, a₀.world.2.Stores uid id o) →
      History (Busy.Step (SucceedsFor uid)) (fun _ _ => True) a₀.idle s → s.Begins m j c →
      Busy.Step (SucceedsFor uid) s (m, l) s₁ →
      History (Busy.Step (SucceedsFor uid)) (fun _ e => e.1.Spares j) s₁ s₂ → s₂.taken[j]? = some x →
      x.app.page = .bucket below ⟨vc, .confirmation c⟩ → vc.isOneTimePaymentMode = false →
      (∃ e ∈ x.out, e.ShowsResult) → BucketStored uid s.app.world.2 s₂.app.world.2 vc.tableData := by
  intro hall
  obtain ⟨s, s₁, s₂, m, l, j, x, below, vc, c, h, hb, hstep, hrun, hx, hp, hs, hm, hd, hrows, hdone⟩ :=
    annChecksOut_shelter
  have hmono : ∀ {s e s'}, Busy.Step (SucceedsFor "ann") s e s' → Busy.Step (AnswersFor "ann") s e s' :=
    fun h => h.mono answersFor_succeeds
  have hstored := hall "ann" annPledger s s₁ s₂ m l j x below vc c launched_annPledger signedIn_annPledger ?_ h hb
    hstep hrun hx hp hm hdone
  · obtain ⟨hstages, f, hdocumented⟩ := documented_of_history (h.mono (fun _ _ _ => hmono) fun _ _ h => h)
      ⟨stages_idle annPledger, documented_idle launched_annPledger signedIn_annPledger⟩
    have haccounted := (bucketStored_checkout hstages hdocumented hb (hmono hstep)
      (hrun.mono (fun _ _ _ => hmono) fun _ _ h => h) hx hp hm hdone).mp hstored
    rcases haccounted.listed "p1" (by rw [hs]; decide) with hrow | ⟨d, hmem, -⟩
    · rw [hrows] at hrow
      exact absurd hrow (by decide)
    · rw [hd] at hmem
      cases hmem
  · intro id hid
    have hids : id ∈ ["p1", "p2"] := hid
    rcases List.mem_cons.mp hids with rfl | hids
    · exact ⟨"kitchen", by decide, _, rfl, rfl⟩
    · obtain rfl := List.mem_singleton.mp hids
      exact ⟨"shelter", by decide, _, rfl, rfl⟩

end Pledge
