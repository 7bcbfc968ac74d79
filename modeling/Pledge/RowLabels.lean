import Pledge.BucketMerge
import Pledge.SavedBucket

/-!
# What a row says about the store

The document of a row, if it has one, and its organisation. Loading, merging and editing treat
both alike, whatever the amounts are.
-/

namespace Pledge

open EventLoop

/-- What a row says about the store: its document, if it has one, and its organisation. -/
def labels (rows : List OrganisationWithAmount) : List (Option String × String) :=
  rows.map fun row => (row.donateId, row.organisation.id)

section Labels

variable {rows rows' saved : List OrganisationWithAmount} {cdItem : OrganisationWithAmount}

theorem unpledged_eq_labels (rows : List OrganisationWithAmount) :
    unpledged rows = (labels rows).filterMap fun label => if label.1.isNone then some label.2 else none := by
  unfold unpledged labels
  rw [List.filterMap_map]
  rfl

theorem carried_eq_labels (rows : List OrganisationWithAmount) :
    carried rows = (labels rows).filterMap fun label => label.1.map fun id => (id, label.2) := by
  unfold carried labels
  rw [List.filterMap_map]
  rfl

theorem unpledged_sublist (h : (labels rows').Sublist (labels rows)) :
    (unpledged rows').Sublist (unpledged rows) := by
  rw [unpledged_eq_labels, unpledged_eq_labels]
  exact h.filterMap _

theorem carried_sublist (h : (labels rows').Sublist (labels rows)) :
    (carried rows').Sublist (carried rows) := by
  rw [carried_eq_labels, carried_eq_labels]
  exact h.filterMap _

theorem labels_sublist (h : rows'.Sublist rows) : (labels rows').Sublist (labels rows) := h.map _

namespace MyBucket

theorem labels_mergeRow (rows : List OrganisationWithAmount) (cdItem : OrganisationWithAmount) :
    labels (mergeRow rows cdItem) =
      if cdItem.organisation.id ∈ organisationIds rows then labels rows
      else labels rows ++ [(cdItem.donateId, cdItem.organisation.id)] :=
  map_mergeRow (fun _ _ => rfl) rows cdItem

/-- A saved row without a document is added for an organisation that has no row yet. -/
theorem nodup_unpledged_foldl_mergeRow (saved : List OrganisationWithAmount) (h : (unpledged rows).Nodup) :
    (unpledged (saved.foldl mergeRow rows)).Nodup := by
  induction saved generalizing rows with
  | nil => exact h
  | cons cdItem saved ih =>
    apply ih
    rw [unpledged_eq_labels, labels_mergeRow]
    split
    · rw [← unpledged_eq_labels]
      exact h
    · rename_i hnot
      rw [List.filterMap_append, ← unpledged_eq_labels]
      refine List.nodup_append.mpr ⟨h, ?_, ?_⟩
      · cases hid : cdItem.donateId <;> simp
      · intro a ha b hb hab
        obtain ⟨row, hrow, hsome⟩ := List.mem_filterMap.mp ha
        have hb' : b = cdItem.organisation.id := by
          cases hid : cdItem.donateId <;> simp [hid] at hb
          exact hb
        have ha' : row.organisation.id = a := by
          split at hsome
          · exact Option.some.inj hsome
          · cases hsome
        exact hnot (List.mem_map.mpr ⟨row, hrow, ha'.trans (hab.trans hb')⟩)

theorem labels_mergeSaved_none (donateAmount : Int) (rows : List OrganisationWithAmount) :
    labels (mergeSaved none donateAmount rows) = labels rows := by
  rcases mergeSaved_none donateAmount rows with ⟨-, h⟩ | ⟨-, h⟩
  · rw [h, labels, List.map_map]
    rfl
  · rw [h]

theorem unpledged_pledgedRows_sublist (orgs : List OrganisationItem) (donates : List DonateItem) :
    (unpledged (pledgedRows orgs donates)).Sublist (orgs.map (·.id)) := by
  rw [pledgedRows, unpledged_append, unpledged_map_ofDonate, List.append_nil]
  exact unpledged_organizationRows_sublist orgs donates

end MyBucket

end Labels

/-- `R` holds of rows whatever their amounts are: of loaded rows, merged ones and fewer rows. `Read`
holds of pledges as they are read. -/
structure RowRule (Read : List DonateItem → Prop) (R : List OrganisationWithAmount → Prop) : Prop where
  nil : R []
  unread : Read []
  sublist : ∀ {rows rows'}, (labels rows').Sublist (labels rows) → R rows → R rows'
  loaded : ∀ {orgs donates}, (orgs.map OrganisationItem.id).Nodup → Read donates →
    R (MyBucket.pledgedRows orgs donates)
  merged : ∀ {rows saved}, R rows → R saved → R (saved.foldl MyBucket.mergeRow rows)

/-- `R` holds of the rows and of the loaded pledges of a bucket screen; the confirmation in front of
it is its own. -/
structure OfScreen (R : List OrganisationWithAmount → Prop) (b : BucketScreen) : Prop where
  rows : R b.vc.tableData
  donates : R (b.vc.donates.map MyBucket.ofDonate)
  pushed : ∀ c, b.front = .confirmation c → ∃ tips, c = b.vc.showDonateConfirmation tips

/-- What a bucket has on its way through its load. -/
structure MyBucket.Ready (Read : List DonateItem → Prop) (R : List OrganisationWithAmount → Prop)
    (vc : MyBucket) : Prop where
  tableData : R vc.tableData
  donates : Read vc.donates
  organizations : ∀ os, vc.organizations = some os → (os.map (·.id)).Nodup

/-- A bucket before it is shown. -/
structure MyBucket.Fresh (Read : List DonateItem → Prop) (R : List OrganisationWithAmount → Prop)
    (vc : MyBucket) : Prop extends vc.Ready Read R where
  myImpactDonates : ∀ ds, vc.myImpactDonates = some ds → R (ds.map MyBucket.ofDonate)

section Screen

variable {Read : List DonateItem → Prop} {R : List OrganisationWithAmount → Prop}
  {u u' : UserManager} {b b' : BucketScreen} {vc : MyBucket} {rows : List OrganisationWithAmount}
  {donates : List DonateItem}

theorem RowRule.of_labels {rows' : List OrganisationWithAmount} (hR : RowRule Read R)
    (he : labels rows' = labels rows) (hrows : R rows) : R rows' :=
  hR.sublist (he ▸ List.Sublist.refl _) hrows

/-- The rows of My Impacts, and the pledges a screen has loaded. -/
theorem RowRule.read (hR : RowRule Read R) (hd : Read donates) : R (donates.map MyBucket.ofDonate) := by
  have hnodup : (([] : List OrganisationItem).map (·.id)).Nodup := List.nodup_nil
  exact hR.loaded hnodup hd

theorem exists_saved {type : DonateType} (h : u.savedRows type = some rows) :
    ∃ saved, u.completeDonation = some saved ∧ saved.donatedOrganisations = rows := by
  unfold UserManager.savedRows at h
  split at h
  · rename_i saved hsaved
    obtain ⟨-, he⟩ := Option.ite_none_right_eq_some.mp h
    exact ⟨saved, hsaved, Option.some.inj he⟩
  · cases h

theorem labels_sliderMoved (rows : List OrganisationWithAmount) (index : ℕ) (value : Int) :
    labels (rows.modify index fun row => { row with amount := value }) = labels rows :=
  map_modify_of_eq (f := fun row : OrganisationWithAmount => { row with amount := value })
    (g := fun row => (row.donateId, row.organisation.id)) (fun _ => rfl) rows index

/-- Once the screen has its rows, an event only takes rows away or changes amounts. -/
theorem labels_step {e : BucketEvent} (hl : b.front ≠ .loading)
    (hs : BucketScreen.step e (u, b) = some (u', b')) :
    (labels b'.vc.tableData).Sublist (labels b.vc.tableData) ∧ b'.vc.donates = b.vc.donates ∧
      ∀ c, b'.front = .confirmation c → ∃ tips, c = b'.vc.showDonateConfirmation tips := by
  obtain ⟨vc, front⟩ := b
  cases e <;> cases front <;>
    simp only [BucketScreen.step, reduceCtorEq, Option.some.injEq, Prod.mk.injEq,
      Option.ite_none_right_eq_some] at hs
  case loaded.loading | loadFailed.loading => exact absurd rfl hl
  case sliderMoved.rows index value =>
    obtain ⟨-, rfl⟩ := hs
    refine ⟨?_, rfl, by simp⟩
    show (labels (vc.tableData.modify index fun row => { row with amount := value })).Sublist _
    rw [labels_sliderMoved]
  case rowDeleted.rows index =>
    obtain ⟨-, rfl⟩ := hs
    exact ⟨labels_sublist (List.eraseIdx_sublist vc.tableData index), rfl, by simp⟩
  case completeButtonPressed.rows | adjustSliderChanged.adjust =>
    obtain ⟨-, -, rfl⟩ := hs
    exact ⟨.refl _, rfl, by simp⟩
  case keepBrowsingButtonPressed.rows | backButtonPressed.rows | editButtonPressed.rows |
      tipsClosed.tipsPopup =>
    obtain ⟨-, rfl⟩ := hs
    exact ⟨.refl _, rfl, by simp⟩
  case donateTips.tipsPopup tips =>
    obtain ⟨-, rfl⟩ := hs
    refine ⟨.refl _, rfl, ?_⟩
    rintro _ ⟨rfl⟩
    exact ⟨tips, rfl⟩
  case adjustContinuePressed.adjust a =>
    obtain ⟨-, rfl⟩ := hs
    have hsame : labels (vc.editContinued a.donateAmount).tableData = labels vc.tableData := by
      unfold labels MyBucket.editContinued
      simp
    rw [BucketScreen.viewWillAppear_vc, hsame]
    exact ⟨.refl _, rfl, fun _ hc => absurd hc BucketScreen.viewWillAppear_front⟩
  case adjustBackPressed.adjust | confirmationBackPressed.confirmation =>
    obtain ⟨-, rfl⟩ := hs
    rw [BucketScreen.viewWillAppear_vc]
    exact ⟨.refl _, rfl, fun _ hc => absurd hc BucketScreen.viewWillAppear_front⟩

theorem ofScreen_step (hR : RowRule Read R) {e : BucketEvent} (h : OfScreen R b) (hl : b.front ≠ .loading)
    (hs : BucketScreen.step e (u, b) = some (u', b')) : OfScreen R b' := by
  obtain ⟨hsub, hdonates, hpushed⟩ := labels_step hl hs
  refine ⟨hR.sublist hsub h.rows, ?_, hpushed⟩
  rw [hdonates]
  exact h.donates

theorem ofScreen_ready (hR : RowRule Read R) (h : vc.Ready Read R) {front : Front}
    (hf : ∀ c, front ≠ .confirmation c) : OfScreen R ⟨vc, front⟩ :=
  ⟨h.tableData, hR.read h.donates, fun c hc => absurd hc (hf c)⟩

theorem tableData_once (u : UserManager) (hmode : vc.isOneTimePaymentMode = true) :
    (BucketScreen.viewDidLoad u vc).vc.tableData = (u.savedRows .once).getD vc.tableData := by
  unfold BucketScreen.viewDidLoad
  rw [if_pos hmode]
  unfold MyBucket.setupOneTimePaymentUI
  cases u.savedRows .once <;> rfl

/-- The set-up takes the rows of My Impacts, or saved ones. -/
theorem ready_viewDidLoad (hvc : vc.Fresh Read R)
    (hsaved : ∀ saved, u.completeDonation = some saved → R saved.donatedOrganisations) :
    (BucketScreen.viewDidLoad u vc).vc.Ready Read R := by
  obtain ⟨-, -, horgs, hdonates⟩ := MyBucket.viewDidLoad_fields u vc
  have hkept : ∀ type rows, u.savedRows type = some rows → R rows := by
    intro type rows hrows
    obtain ⟨saved, hu, rfl⟩ := exists_saved hrows
    exact hsaved saved hu
  refine ⟨?_, hdonates ▸ hvc.donates, horgs ▸ hvc.organizations⟩
  cases honce : vc.isOneTimePaymentMode with
  | true =>
    rw [tableData_once u honce]
    cases hs : u.savedRows .once with
    | none => exact hvc.tableData
    | some rows => exact hkept _ rows hs
  | false =>
    have hset := MyBucket.viewDidLoad_monthly u honce
    cases hm : vc.myImpactDonates with
    | some ds =>
      rw [hm] at hset
      rw [hset.2]
      exact hvc.myImpactDonates ds hm
    | none =>
      cases hs : u.savedRows .monthly with
      | some rows =>
        rw [hm, hs] at hset
        rw [hset.2]
        exact hkept _ rows hs
      | none =>
        rw [hm, hs] at hset
        rw [hset.2]
        exact hvc.tableData

theorem viewDidLoad_front (u : UserManager) (vc : MyBucket) (c : DonateConfirmation) :
    (BucketScreen.viewDidLoad u vc).front ≠ .confirmation c := by
  unfold BucketScreen.viewDidLoad
  split
  · exact nofun
  · dsimp only
    split <;> exact nofun

/-- A load that went through puts the rows of what it has loaded on the screen. -/
theorem ready_loaded (hR : RowRule Read R) (h : vc.Ready Read R)
    (hsaved : ∀ saved, u.completeDonation = some saved → R saved.donatedOrganisations) :
    (vc.loaded u).Ready Read R := by
  have hnodup : ((vc.organizations.getD []).map (·.id)).Nodup := by
    cases hos : vc.organizations with
    | none => exact List.nodup_nil
    | some os => exact h.organizations os hos
  have hmerged : ∀ type {rows}, R rows → R (MyBucket.mergeSaved (u.savedRows type) vc.donateAmount rows) := by
    intro type rows hrows
    cases hs : u.savedRows type with
    | none => exact hR.of_labels (MyBucket.labels_mergeSaved_none _ _) hrows
    | some saved =>
      obtain ⟨b, hu, rfl⟩ := exists_saved hs
      exact hR.merged hrows (hsaved b hu)
  have hrows := hR.loaded hnodup h.donates
  refine ⟨?_, h.donates, h.organizations⟩
  show R (vc.loadedRows u)
  unfold MyBucket.loadedRows
  dsimp only
  split
  · refine hmerged _ (hR.sublist ?_ hrows)
    exact labels_sublist (List.sublist_append_left _ _)
  · exact hmerged _ hrows

end Screen

end Pledge
