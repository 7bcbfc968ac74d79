import Pledge.PledgeWrites

/-!
# What the writes of a bucket leave

The pledges of a user, document by document, after every write of a checkout has been carried
out: what was not written to, and what each row has stored.
-/

namespace Pledge

open EventLoop

/-! ## Collections -/

namespace Collection

variable {α : Type} {c : Collection α} {id : String} {x : α} {ids : List String}

/-- The documents without their ids. -/
def documents (c : Collection α) : List α := c.entries.map Sigma.snd

/-- The documents whose ids are not listed. -/
def without (c : Collection α) (ids : List String) : List α :=
  (c.entries.filter fun e => e.1 ∉ ids).map Sigma.snd

theorem without_nil (c : Collection α) : c.without [] = c.documents := by
  simp [without, documents]

theorem without_eq_nil : c.without ids = [] ↔ ∀ id ∈ c, id ∈ ids := by
  simp only [without, List.map_eq_nil_iff, List.filter_eq_nil_iff, decide_not, Bool.not_eq_true',
    decide_eq_false_iff_not, not_not]
  constructor
  · intro h id hid
    obtain ⟨e, he, rfl⟩ := List.mem_map.mp hid
    exact h e he
  · intro h e he
    exact h e.1 (List.mem_map_of_mem he)

theorem without_congr {ids' : List String} (h : ∀ id, id ∈ ids ↔ id ∈ ids') : c.without ids = c.without ids' := by
  simp only [without, h]

theorem kerase_eq_filter {l : List (Sigma fun _ : String => α)} (hn : l.NodupKeys) :
    l.kerase id = l.filter fun e => e.1 ≠ id := by
  induction l with
  | nil => rfl
  | cons e l ih =>
    obtain ⟨hnot, hn⟩ := List.nodupKeys_cons.mp hn
    by_cases he : id = e.1
    · subst he
      rw [List.kerase_cons_eq rfl, List.filter_cons_of_neg (by simp)]
      refine (List.filter_eq_self.mpr fun e' he' => ?_).symm
      rw [decide_eq_true_iff]
      rintro heq
      exact hnot (heq ▸ List.mem_map_of_mem he')
    · rw [List.kerase_cons_ne he, List.filter_cons_of_pos (by simpa using Ne.symm he), ih hn]

theorem without_erase (c : Collection α) (id : String) (ids : List String) :
    without (c.erase id) ids = without c (id :: ids) := by
  unfold without
  show ((c.entries.kerase id).filter _).map _ = _
  rw [kerase_eq_filter c.nodupKeys, List.filter_filter]
  congr 2
  funext e
  by_cases he : e.1 = id <;> simp [he]

theorem without_insert (hid : id ∉ ids) : without (c.insert id x) ids = x :: without c (id :: ids) := by
  rw [← without_erase]
  unfold without
  rw [AList.entries_insert, List.filter_cons_of_pos (by simpa using hid), List.map_cons]
  rfl

theorem without_cons_of_notMem (hid : id ∉ c) (ids : List String) : c.without (id :: ids) = c.without ids := by
  have he : c.erase id = c := AList.ext (List.kerase_of_notMem_keys hid)
  rw [← without_erase, he]

end Collection

/-! ## Single writes -/

/-- The pledge that a write is for. -/
def Request.target? : Request → Option String
  | .setDonate _ id _ | .deleteDonate _ id => some id
  | _ => none

/-- What a write stores, over the pledges that were there. -/
def Request.stored (donates : Collection DonateDoc) : Request → List DonateDoc
  | .addDonate _ data => [data]
  | .setDonate _ id data => [((donates.lookup id).getD {}).merge data]
  | _ => []

/-- The pledge that a row asks for. -/
def OrganisationWithAmount.pledge (row : OrganisationWithAmount) : DonateDoc :=
  { amount := some row.amount, organisation := some row.organisation.id }

/-- The pledge that its write leaves: an edit leaves the organisation as it is stored. -/
def OrganisationWithAmount.stored (donates : Collection DonateDoc) (row : OrganisationWithAmount) : DonateDoc :=
  match row.donateId with
  | some id => ((donates.lookup id).getD {}).merge { amount := some row.amount }
  | none => row.pledge

/-- The rows that a checkout keeps. -/
def kept (rows : List OrganisationWithAmount) : List OrganisationWithAmount := rows.filter (0 < ·.amount)

/-- The pledges on the rows. -/
def donateIds (rows : List OrganisationWithAmount) : List String := rows.filterMap (·.donateId)

/-- A pledge with this id was there, and is not any more. -/
def Server.Gone (s : Server) (uid id : String) : Prop :=
  id ∉ (s.account uid).donates ∧ id ∈ (s.account uid).deletedDonates

section Writes

variable {w w' : World} {uid id : String} {ids : List String}

theorem Request.stored_congr {r : Request} {donates donates' : Collection DonateDoc}
    (h : ∀ id, r.target? = some id → donates'.lookup id = donates.lookup id) :
    r.stored donates' = r.stored donates := by
  cases r with
  | setDonate v id data => simp only [Request.stored, h id rfl]
  | _ => rfl

theorem added_of_answers {data : DonateDoc} (h : Answers w (.addDonate uid data) none w') :
    ∃ id, id ∉ (w.2.account uid).donates ∧ id ∉ (w.2.account uid).deletedDonates ∧
      (w'.2.account uid).donates = (w.2.account uid).donates.insert id data ∧
      (w'.2.account uid).deletedDonates = (w.2.account uid).deletedDonates := by
  obtain ⟨_, ⟨id, hid, hdel, rfl⟩, rfl⟩ := h
  exact ⟨id, hid, hdel, by simp, by simp⟩

theorem edited_of_answers {id : String} {data : DonateDoc}
    (h : Answers w (.setDonate uid id data) none w') :
    (w'.2.account uid).donates = (w.2.account uid).donates.insert id
        ((((w.2.account uid).donates.lookup id).getD {}).merge data) ∧
      (w'.2.account uid).deletedDonates = (w.2.account uid).deletedDonates := by
  obtain ⟨_, rfl, rfl⟩ := h
  exact ⟨by simp, by simp⟩

theorem deleted_of_answers {id : String} (h : Answers w (.deleteDonate uid id) none w') :
    (w'.2.account uid).donates = (w.2.account uid).donates.erase id ∧
      (w'.2.account uid).deletedDonates = id :: (w.2.account uid).deletedDonates := by
  obtain ⟨_, rfl, rfl⟩ := h
  exact ⟨by simp, by simp⟩

/-- Ids are not used again. -/
theorem gone_answers {r : Request} {a : r.Response} (hr : r.target? ≠ some id) (h : Answers w r a w')
    (hg : w.2.Gone uid id) : w'.2.Gone uid id := by
  obtain ⟨hnot, hdel⟩ := hg
  unfold Server.Gone
  cases answers_pledges h uid with
  | kept hd hk =>
    rw [hd, hk]
    exact ⟨hnot, hdel⟩
  | @added new data hr' hnew hundeleted hd hk =>
    have hne : id ≠ new := fun he => hundeleted (he ▸ hdel)
    rw [hd, hk, AList.mem_insert]
    exact ⟨fun hmem => hmem.elim hne hnot, hdel⟩
  | @edited id' data hr' hd hk =>
    subst hr'
    have hne : id ≠ id' := fun he => hr (congrArg some he.symm)
    rw [hd, hk, AList.mem_insert]
    exact ⟨fun hmem => hmem.elim hne hnot, hdel⟩
  | @deleted id' hr' hd hk =>
    rw [hd, hk, AList.mem_erase]
    exact ⟨fun hmem => hnot hmem.2, List.mem_cons_of_mem _ hdel⟩

theorem gone_servesAll {answers : List (Answered Bool Request.Response)} (hs : ServesAll Answers w answers w')
    (hr : ∀ a ∈ answers, a.1.1.target? ≠ some id) (hg : w.2.Gone uid id) : w'.2.Gone uid id := by
  induction hs with
  | nil => exact hg
  | @cons _ _ _ a _ ha _ ih =>
    exact ih (fun b hmem => hr b (List.mem_cons_of_mem a hmem)) (gone_answers (hr a List.mem_cons_self) ha hg)

end Writes

namespace DonateConfirmation

variable {w w' : World} {uid : String} {ids : List String} {item : OrganisationWithAmount}

/-- A row's write that is carried out stores its document, and takes its id out of what is left; the
other ids keep their documents. -/
theorem without_write {b : Branch Bool Request.Response} (hb : write? uid item = some b)
    {a : b.1.Response} (h : Answers w b.1 a w') (hok : b.2 a = true)
    (hused : ∀ id ∈ ids, w.2.Used uid id) (hnot : ∀ id, b.1.target? = some id → id ∉ ids) :
    Collection.without (w'.2.account uid).donates ids = b.1.stored (w.2.account uid).donates ++
        Collection.without (w.2.account uid).donates (b.1.target?.toList ++ ids) ∧
      ∀ id ∈ ids, w'.2.Used uid id ∧
        (w'.2.account uid).donates.lookup id = (w.2.account uid).donates.lookup id := by
  obtain ⟨amount, organisation, donateId⟩ := item
  cases donateId with
  | some donateId =>
    by_cases hpos : 0 < amount
    · simp only [write?, if_pos hpos, Option.some.injEq] at hb
      subst hb
      obtain rfl : a = none := by simpa using hok
      obtain ⟨hd, hdel⟩ := edited_of_answers h
      have hfree := hnot donateId rfl
      refine ⟨by rw [hd]; exact Collection.without_insert hfree, fun id hid => ?_⟩
      have hne : id ≠ donateId := fun he => hfree (he ▸ hid)
      refine ⟨(hused id hid).imp (fun hmem => ?_) fun hmem => hdel ▸ hmem, ?_⟩
      · rw [hd, AList.mem_insert]
        exact .inr hmem
      · rw [hd, AList.lookup_insert_ne hne]
    · simp only [write?, if_neg hpos, Option.some.injEq] at hb
      subst hb
      obtain rfl : a = none := by simpa using hok
      obtain ⟨hd, hdel⟩ := deleted_of_answers h
      have hfree := hnot donateId rfl
      refine ⟨by rw [hd]; exact Collection.without_erase _ _ _, fun id hid => ?_⟩
      have hne : id ≠ donateId := fun he => hfree (he ▸ hid)
      refine ⟨(hused id hid).imp (fun hmem => ?_) fun hmem => ?_, ?_⟩
      · rw [hd, AList.mem_erase]
        exact ⟨hne, hmem⟩
      · rw [hdel]
        exact List.mem_cons_of_mem _ hmem
      · rw [hd, AList.lookup_erase_ne hne]
  | none =>
    by_cases hpos : 0 < amount
    · simp only [write?, if_pos hpos, Option.some.injEq] at hb
      subst hb
      obtain rfl : a = none := by simpa using hok
      obtain ⟨new, hnew, hundeleted, hd, hdel⟩ := added_of_answers h
      -- the new id is none of those that are or were in use
      have hne : ∀ id ∈ ids, id ≠ new := by
        rintro id hid rfl
        exact (hused id hid).elim hnew hundeleted
      have hfree : new ∉ ids := fun hmem => hne new hmem rfl
      refine ⟨?_, fun id hid => ⟨(hused id hid).imp (fun hmem => ?_) fun hmem => hdel ▸ hmem, ?_⟩⟩
      · rw [hd, Collection.without_insert hfree, Collection.without_cons_of_notMem hnew]
        rfl
      · rw [hd, AList.mem_insert]
        exact .inr hmem
      · rw [hd, AList.lookup_insert_ne (hne id hid)]
    · simp [write?, hpos] at hb

/-- When all writes are carried out the collection holds what they have stored, and what none of them
was for. -/
theorem documents_servesAll {answers : List (Answered Bool Request.Response)}
    (hb : ∀ a ∈ answers, ∃ item, write? uid item = some a.1) (hok : ∀ a ∈ answers, a.value = true)
    (hs : ServesAll Answers w answers w') (hn : (answers.filterMap fun a => a.1.1.target?).Nodup)
    (hused : ∀ id ∈ answers.filterMap (fun a => a.1.1.target?), w.2.Used uid id) :
    (Collection.documents (w'.2.account uid).donates).Perm
      ((answers.flatMap fun a => a.1.1.stored (w.2.account uid).donates) ++
        Collection.without (w.2.account uid).donates (answers.filterMap fun a => a.1.1.target?)) := by
  induction hs with
  | nil w => simp [Collection.without_nil]
  | @cons w w₁ w₂ a answers ha _ ih =>
    obtain ⟨item, hitem⟩ := hb a List.mem_cons_self
    have hcons : ((a :: answers).filterMap fun a => a.1.1.target?) =
        a.1.1.target?.toList ++ answers.filterMap fun a => a.1.1.target? := by
      cases ht : a.1.1.target? <;> simp [ht]
    rw [hcons] at hn hused ⊢
    obtain ⟨-, hrest, hdisjoint⟩ := List.nodup_append.mp hn
    obtain ⟨hleft, hkept⟩ := without_write hitem ha (hok a List.mem_cons_self)
      (fun id hid => hused id (List.mem_append_right _ hid))
      fun id ht hid => hdisjoint id (by simp [ht]) id hid rfl
    have hsame : (answers.flatMap fun a => a.1.1.stored (w₁.2.account uid).donates) =
        answers.flatMap fun a => a.1.1.stored (w.2.account uid).donates := by
      refine List.flatMap_congr fun b hmem => Request.stored_congr fun id ht => ?_
      exact (hkept id (List.mem_filterMap.mpr ⟨b, hmem, ht⟩)).2
    have hperm := ih (fun b hmem => hb b (List.mem_cons_of_mem a hmem))
      (fun b hmem => hok b (List.mem_cons_of_mem a hmem)) hrest fun id hid => (hkept id hid).1
    rw [hsame, hleft] at hperm
    rw [List.flatMap_cons, List.append_assoc]
    refine hperm.trans ?_
    rw [← List.append_assoc, ← List.append_assoc]
    exact List.perm_append_comm.append_right _

/-- What a write has deleted is gone after all of them. -/
theorem gone_of_deleted {answers : List (Answered Bool Request.Response)} {id : String}
    (hs : ServesAll Answers w answers w') (hok : ∀ a ∈ answers, a.value = true)
    (hn : (answers.filterMap fun a => a.1.1.target?).Nodup)
    (hdel : (⟨.deleteDonate uid id, Option.isNone⟩ : Branch Bool Request.Response) ∈ answers.map Sigma.fst) :
    w'.2.Gone uid id := by
  induction hs with
  | nil => cases hdel
  | @cons w w₁ w₂ a answers ha hrest ih =>
    obtain ⟨b, response⟩ := a
    rcases List.mem_cons.mp hdel with rfl | hlater
    · have hvalue : response.isNone = true := hok _ List.mem_cons_self
      obtain rfl : response = none := Option.isNone_iff_eq_none.mp hvalue
      obtain ⟨hd, hdeleted⟩ := deleted_of_answers ha
      have hgone : w₁.2.Gone uid id := by
        unfold Server.Gone
        rw [hd, hdeleted, AList.mem_erase]
        exact ⟨fun hmem => hmem.1 rfl, List.mem_cons_self⟩
      refine gone_servesAll hrest (fun c hc ht => ?_) hgone
      have hcons : (id :: answers.filterMap fun a => a.1.1.target?).Nodup := hn
      exact (List.nodup_cons.mp hcons).1 (List.mem_filterMap.mpr ⟨c, hc, ht⟩)
    · refine ih (fun c hc => hok c (List.mem_cons_of_mem _ hc)) (hn.sublist ?_) hlater
      exact (List.sublist_cons_self _ _).filterMap _

/-! ## The rows of a checkout -/

variable {v : String} {items : List OrganisationWithAmount} {vc : DonateConfirmation}

theorem filterMap_target? (items : List OrganisationWithAmount) :
    ((items.filterMap (write? v)).filterMap fun b => b.1.target?) = donateIds items := by
  rw [List.filterMap_filterMap]
  refine List.filterMap_congr fun item _ => ?_
  obtain ⟨amount, organisation, donateId⟩ := item
  cases donateId <;> by_cases hpos : 0 < amount <;> simp [write?, hpos, Request.target?]

theorem flatMap_stored (donates : Collection DonateDoc) (items : List OrganisationWithAmount) :
    ((items.filterMap (write? v)).flatMap fun b => b.1.stored donates) = (kept items).map (·.stored donates) := by
  induction items with
  | nil => rfl
  | cons item items ih =>
    obtain ⟨amount, organisation, donateId⟩ := item
    cases donateId <;> by_cases hpos : 0 < amount <;>
      simp [kept, write?, hpos, Request.stored, OrganisationWithAmount.stored, OrganisationWithAmount.pledge]
        at ih ⊢ <;> exact ih

/-- Once all the writes of a checkout have been carried out, the collection holds what its rows have
stored, and what is on none of them; the pledges of rows without an amount are gone. -/
theorem documents_writes (hw : vc.Writes uid w w' true) (hn : (donateIds vc.donateItems).Nodup)
    (hused : ∀ id ∈ donateIds vc.donateItems, w.2.Used uid id) :
    (Collection.documents (w'.2.account uid).donates).Perm
        ((kept vc.donateItems).map (·.stored (w.2.account uid).donates) ++
          Collection.without (w.2.account uid).donates (donateIds vc.donateItems)) ∧
      ∀ item ∈ vc.donateItems, ∀ id, item.donateId = some id → ¬ 0 < item.amount →
        id ∉ (w'.2.account uid).donates := by
  obtain ⟨w₁, w₂, answers, hbefore, hperm, hserve, hafter, hok⟩ := hw.answered
  have hall : ∀ a ∈ answers, a.value = true := List.all_eq_true.mp hok
  have htargets : (answers.filterMap fun a => a.1.1.target?).Perm (donateIds vc.donateItems) := by
    have hmap := hperm.filterMap fun b => b.1.target?
    rwa [filterMap_target?, List.filterMap_map] at hmap
  have hstored : (answers.flatMap fun a => a.1.1.stored (w.2.account uid).donates).Perm
      ((kept vc.donateItems).map (·.stored (w.2.account uid).donates)) := by
    have hmap := hperm.flatMap_right fun b => b.1.stored (w.2.account uid).donates
    rwa [flatMap_stored, List.flatMap_map] at hmap
  have hnodup : (answers.filterMap fun a => a.1.1.target?).Nodup := htargets.nodup_iff.mpr hn
  have hwrites : ∀ a ∈ answers, ∃ item, write? uid item = some a.1 := fun a ha =>
    (answer_of_perm hperm ha).imp fun item hitem => hitem.2
  have husedBefore : ∀ id ∈ answers.filterMap (fun a => a.1.1.target?), w₁.2.Used uid id := by
    intro id hid
    unfold Server.Used
    rw [(hbefore uid).1, (hbefore uid).2]
    exact hused id (htargets.subset hid)
  refine ⟨?_, fun item hitem id hid hpos => ?_⟩
  · have hdocs := documents_servesAll hwrites hall hserve hnodup husedBefore
    rw [(hbefore uid).1] at hdocs
    rw [(hafter uid).1]
    refine hdocs.trans (hstored.append ?_)
    rw [Collection.without_congr fun id => htargets.mem_iff]
  · have hwrite : write? uid item = some ⟨.deleteDonate uid id, Option.isNone⟩ := by
      simp [write?, hid, hpos]
    have hgone := gone_of_deleted hserve hall hnodup
      (hperm.mem_iff.mpr (List.mem_filterMap.mpr ⟨item, hitem, hwrite⟩))
    rw [(hafter uid).1]
    exact hgone.1

end DonateConfirmation

end Pledge
