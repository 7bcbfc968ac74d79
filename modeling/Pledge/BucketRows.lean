import Mathlib.Data.List.Nodup
import Pledge.MyBucket

/-!
# The rows of a bucket

How the loaded pledges and the saved rows end up in the table: which organisations it
lists, and which pledge documents its rows carry.
-/

namespace Pledge

/-- The organisations listed by the rows. -/
def organisationIds (rows : List OrganisationWithAmount) : List String :=
  rows.map (·.organisation.id)

/-- The pledge documents carried by the rows, each with the organisation of its row. -/
def carried (rows : List OrganisationWithAmount) : List (String × String) :=
  rows.filterMap fun row => row.donateId.map fun id => (id, row.organisation.id)

/-- The organisations of the rows without a pledge document. -/
def unpledged (rows : List OrganisationWithAmount) : List String :=
  rows.filterMap fun row => if row.donateId.isNone then some row.organisation.id else none

def DonateItem.key (donate : DonateItem) : String × String := (donate.id, donate.organisation.id)

@[simp] theorem carried_cons (row : OrganisationWithAmount) (rows : List OrganisationWithAmount) :
    carried (row :: rows) =
      (row.donateId.map fun id => (id, row.organisation.id)).toList ++ carried rows := by
  cases h : row.donateId <;> simp [carried, h]

@[simp] theorem carried_append (rows rows' : List OrganisationWithAmount) :
    carried (rows ++ rows') = carried rows ++ carried rows' := by
  simp [carried]

@[simp] theorem unpledged_append (rows rows' : List OrganisationWithAmount) :
    unpledged (rows ++ rows') = unpledged rows ++ unpledged rows' := by
  simp [unpledged]

/-- Changing one element changes no list of values that the change does not touch. -/
theorem map_modify_of_eq {α β : Type} {f : α → α} {g : α → β} (h : ∀ a, g (f a) = g a) (l : List α)
    (i : ℕ) : (l.modify i f).map g = l.map g := by
  refine List.ext_getElem? fun j => ?_
  rw [List.getElem?_map, List.getElem?_map, List.getElem?_modify]
  cases l[j]? with
  | none => rfl
  | some a => by_cases hj : i = j <;> simp [hj, h]

namespace MyBucket

theorem carried_map_ofDonate (donates : List DonateItem) :
    carried (donates.map ofDonate) = donates.map DonateItem.key := by
  induction donates with
  | nil => rfl
  | cons d donates ih => simp [ih, ofDonate, DonateItem.key]

theorem unpledged_map_ofDonate (donates : List DonateItem) : unpledged (donates.map ofDonate) = [] := by
  simp [unpledged, ofDonate]

/-! ## One row for each organisation -/

section OrganizationRows

variable {orgs : List OrganisationItem} {donates : List DonateItem}

theorem cons_eraseP_perm {α : Type} {p : α → Bool} {l : List α} {a : α} (h : l.find? p = some a) :
    (a :: l.eraseP p).Perm l := by
  induction l with
  | nil => cases h
  | cons b l ih =>
    cases hb : p b with
    | true =>
      obtain rfl : b = a := by simpa [hb] using h
      simp [hb]
    | false =>
      rw [List.eraseP_cons_of_neg (by simp [hb])]
      exact (List.Perm.swap b a _).trans ((ih (by simpa [hb] using h)).cons b)

theorem organisationIds_organizationRows (orgs : List OrganisationItem) (donates : List DonateItem) :
    organisationIds (organizationRows orgs donates).1 = orgs.map (·.id) := by
  induction orgs generalizing donates with
  | nil => rfl
  | cons o orgs ih =>
    rw [organizationRows]
    split
    · simpa [organisationIds] using ih _
    · simpa [organisationIds] using ih _

/-- Nothing is lost and nothing is invented: the rows and what is left carry the pledges. -/
theorem perm_organizationRows (orgs : List OrganisationItem) (donates : List DonateItem) :
    (carried (organizationRows orgs donates).1 ++
      (organizationRows orgs donates).2.map DonateItem.key).Perm (donates.map DonateItem.key) := by
  induction orgs generalizing donates with
  | nil => exact .refl _
  | cons o orgs ih =>
    rw [organizationRows]
    split
    · rename_i d hd
      have hid : d.organisation.id = o.id := by simpa using List.find?_some hd
      have hkey : DonateItem.key d = (d.id, o.id) := by rw [DonateItem.key, hid]
      refine .trans ?_ ((cons_eraseP_perm hd).map DonateItem.key)
      simpa [hkey] using ih _
    · simpa using ih donates

/-- An organisation is listed as often as it was asked for or is pledged, whichever is more. -/
theorem count_organizationRows (horgs : (orgs.map (·.id)).Nodup) (donates : List DonateItem)
    (x : String) :
    (orgs.map (·.id)).count x + ((organizationRows orgs donates).2.map (·.organisation.id)).count x =
      max ((orgs.map (·.id)).count x) ((donates.map (·.organisation.id)).count x) := by
  induction orgs generalizing donates with
  | nil => simp [organizationRows]
  | cons o orgs ih =>
    obtain ⟨hnot, hrest⟩ := List.nodup_cons.mp horgs
    have hzero : (orgs.map (·.id)).count o.id = 0 := List.count_eq_zero.mpr hnot
    rw [organizationRows]
    split
    · rename_i d hd
      have hid : d.organisation.id = o.id := by simpa using List.find?_some hd
      have hcount := ((cons_eraseP_perm hd).map (·.organisation.id)).count_eq x
      have := ih hrest (donates.eraseP (·.organisation.id == o.id))
      simp only [List.map_cons, List.count_cons, hid] at hcount ⊢
      by_cases hx : x = o.id
      · subst hx
        simp only [beq_self_eq_true, if_true] at hcount ⊢
        omega
      · simp only [beq_false_of_ne (Ne.symm hx), Bool.false_eq_true, if_false] at hcount ⊢
        omega
    · rename_i hd
      have hnone : (donates.map (·.organisation.id)).count o.id = 0 := by
        rw [List.count_eq_zero, List.mem_map]
        rintro ⟨d, hmem, hid⟩
        simpa [hid] using List.find?_eq_none.mp hd d hmem
      have := ih hrest donates
      simp only [List.map_cons, List.count_cons]
      by_cases hx : x = o.id
      · subst hx
        simp only [beq_self_eq_true, if_true]
        omega
      · simp only [beq_false_of_ne (Ne.symm hx), Bool.false_eq_true, if_false]
        omega

theorem unpledged_organizationRows_sublist (orgs : List OrganisationItem) (donates : List DonateItem) :
    (unpledged (organizationRows orgs donates).1).Sublist (orgs.map (·.id)) := by
  rw [← organisationIds_organizationRows orgs donates]
  generalize (organizationRows orgs donates).1 = rows
  induction rows with
  | nil => exact .slnil
  | cons row rows ih =>
    cases h : row.donateId with
    | none => simpa [unpledged, organisationIds, h] using ih
    | some id => simpa [unpledged, organisationIds, h] using ih.cons row.organisation.id

end OrganizationRows

/-! ## The saved rows -/

/-- Some row lists the organisation with that amount. -/
def Lists (rows : List OrganisationWithAmount) (organisationId : String) (amount : Int) : Prop :=
  ∃ row ∈ rows, row.organisation.id = organisationId ∧ row.amount = amount

section Merge

variable {rows saved : List OrganisationWithAmount} {cdItem : OrganisationWithAmount}

/-- A merge keeps what does not depend on the amounts, and adds a row only for a new
organisation. -/
theorem map_mergeRow {α : Type} {g : OrganisationWithAmount → α}
    (hg : ∀ (row : OrganisationWithAmount) amount, g { row with amount := amount } = g row)
    (rows : List OrganisationWithAmount) (cdItem : OrganisationWithAmount) :
    (mergeRow rows cdItem).map g =
      if cdItem.organisation.id ∈ organisationIds rows then rows.map g
      else rows.map g ++ [g cdItem] := by
  rw [mergeRow]
  split
  · rename_i index hi
    have hmem : cdItem.organisation.id ∈ organisationIds rows := by
      obtain ⟨hlt, hp, -⟩ := List.findIdx?_eq_some_iff_getElem.mp hi
      exact List.mem_map.mpr ⟨rows[index], List.getElem_mem hlt, by simpa using hp⟩
    rw [if_pos hmem]
    exact map_modify_of_eq (fun row => hg row cdItem.amount) rows index
  · rename_i hi
    have hnot : cdItem.organisation.id ∉ organisationIds rows := by
      intro hmem
      obtain ⟨row, hrow, he⟩ := List.mem_map.mp hmem
      simpa [he] using List.findIdx?_eq_none_iff.mp hi row hrow
    rw [if_neg hnot]
    simp

theorem organisationIds_mergeRow (rows : List OrganisationWithAmount) (cdItem : OrganisationWithAmount) :
    organisationIds (mergeRow rows cdItem) =
      if cdItem.organisation.id ∈ organisationIds rows then organisationIds rows
      else organisationIds rows ++ [cdItem.organisation.id] :=
  map_mergeRow (fun _ _ => rfl) rows cdItem

theorem mem_organisationIds_foldl {x : String} :
    x ∈ organisationIds (saved.foldl mergeRow rows) ↔
      x ∈ organisationIds rows ∨ x ∈ organisationIds saved := by
  induction saved generalizing rows with
  | nil => simp [organisationIds]
  | cons cdItem saved ih =>
    have hstep : x ∈ organisationIds (mergeRow rows cdItem) ↔
        x ∈ organisationIds rows ∨ x = cdItem.organisation.id := by
      rw [organisationIds_mergeRow]
      split
      · refine ⟨.inl, Or.rec id ?_⟩
        rintro rfl
        assumption
      · simp
    rw [List.foldl_cons, ih, hstep, or_assoc]
    simp [organisationIds]

theorem nodup_organisationIds_foldl (h : (organisationIds rows).Nodup) :
    (organisationIds (saved.foldl mergeRow rows)).Nodup := by
  induction saved generalizing rows with
  | nil => exact h
  | cons cdItem saved ih =>
    refine ih ?_
    rw [organisationIds_mergeRow]
    split
    · exact h
    · rename_i hnot
      exact List.nodup_append.mpr ⟨h, by simp, fun a ha b hb he => hnot (by simp_all)⟩

theorem lists_mergeRow_self (rows : List OrganisationWithAmount) (cdItem : OrganisationWithAmount) :
    Lists (mergeRow rows cdItem) cdItem.organisation.id cdItem.amount := by
  rw [mergeRow]
  split
  · rename_i index hi
    obtain ⟨hlt, hp, -⟩ := List.findIdx?_eq_some_iff_getElem.mp hi
    refine ⟨{ rows[index] with amount := cdItem.amount }, ?_, by simpa using hp, rfl⟩
    exact List.mem_of_getElem? (i := index) (by simp [hlt])
  · exact ⟨cdItem, by simp, rfl, rfl⟩

theorem lists_mergeRow_of_ne {x : String} {amount : Int} (hx : x ≠ cdItem.organisation.id)
    (h : Lists rows x amount) : Lists (mergeRow rows cdItem) x amount := by
  obtain ⟨row, hrow, rfl, rfl⟩ := h
  rw [mergeRow]
  split
  · rename_i index hi
    obtain ⟨hlt, hp, -⟩ := List.findIdx?_eq_some_iff_getElem.mp hi
    obtain ⟨i, hi', hget⟩ := List.mem_iff_getElem.mp hrow
    have hne : index ≠ i := by
      rintro rfl
      rw [hget] at hp
      exact hx (by simpa using hp)
    refine ⟨row, List.mem_of_getElem? (i := i) ?_, rfl, rfl⟩
    simp [hne, hi', hget]
  · exact ⟨row, by simp [hrow], rfl, rfl⟩

/-- Every saved row ends up in the table with its saved amount. -/
theorem lists_foldl (hsaved : (organisationIds saved).Nodup) {row : OrganisationWithAmount}
    (hrow : row ∈ saved) : Lists (saved.foldl mergeRow rows) row.organisation.id row.amount := by
  have hkeep : ∀ (saved rows : List OrganisationWithAmount) (x : String) (amount : Int),
      x ∉ organisationIds saved → Lists rows x amount → Lists (saved.foldl mergeRow rows) x amount := by
    intro saved
    induction saved with
    | nil => exact fun rows x amount _ h => h
    | cons cdItem saved ih =>
      intro rows x amount hx h
      simp only [organisationIds, List.map_cons, List.mem_cons, not_or] at hx
      exact ih _ x amount hx.2 (lists_mergeRow_of_ne hx.1 h)
  induction saved generalizing rows with
  | nil => cases hrow
  | cons cdItem saved ih =>
    obtain ⟨hnot, hrest⟩ := List.nodup_cons.mp hsaved
    rcases List.mem_cons.mp hrow with rfl | hrow
    · exact hkeep saved _ _ _ hnot (lists_mergeRow_self rows row)
    · exact ih hrest hrow

end Merge

end MyBucket

end Pledge
