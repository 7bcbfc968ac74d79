import Pledge.BucketRows

/-!
# Merging into the table

What `loadDataCompletionHandler(true)` leaves in the table, row by row: the chosen
organisations, the loaded pledges and the rows of a saved bucket.
-/

namespace Pledge

def DonateItem.ref (donate : DonateItem) : DonateItemRef :=
  { id := donate.id, amount := donate.amount, organisationId := donate.organisation.id }

/-- The pledges that the rows with a document stand for. -/
def placed (rows : List OrganisationWithAmount) : List DonateItemRef :=
  rows.filterMap fun row => row.donateId.map fun id =>
    { id, amount := row.amount, organisationId := row.organisation.id }

@[simp] theorem placed_cons (row : OrganisationWithAmount) (rows : List OrganisationWithAmount) :
    placed (row :: rows) = (row.donateId.map fun id =>
      ({ id, amount := row.amount, organisationId := row.organisation.id } : DonateItemRef)).toList ++
        placed rows := by
  cases h : row.donateId <;> simp [placed, h]

@[simp] theorem placed_append (rows rows' : List OrganisationWithAmount) :
    placed (rows ++ rows') = placed rows ++ placed rows' := by
  simp [placed]

/-- Rows without a document take nothing. -/
def ZeroUnlessPlaced (rows : List OrganisationWithAmount) : Prop :=
  ∀ row ∈ rows, row.donateId = none → row.amount = 0

theorem totalSum_eq_placed {rows : List OrganisationWithAmount} (h : ZeroUnlessPlaced rows) :
    totalSum rows = ((placed rows).map (·.amount)).sum := by
  induction rows with
  | nil => rfl
  | cons row rows ih =>
    have hrest := ih fun r hr => h r (List.mem_cons_of_mem _ hr)
    have hsum : totalSum (row :: rows) = row.amount + totalSum rows := rfl
    cases hid : row.donateId with
    | none =>
      have hrow := h row List.mem_cons_self hid
      simp [hsum, hrest, hrow, hid]
    | some id => simp [hsum, hrest, hid]

theorem countP_donateId (rows : List OrganisationWithAmount) (id : String) :
    rows.countP (·.donateId == some id) = ((carried rows).map Prod.fst).count id := by
  induction rows with
  | nil => rfl
  | cons row rows ih =>
    cases hid : row.donateId with
    | none => simp [hid, ih]
    | some id' => simp [hid, ih, List.count_cons, List.countP_cons, add_comm]

theorem mem_carried {rows : List OrganisationWithAmount} {row : OrganisationWithAmount} {id : String}
    (hrow : row ∈ rows) (hid : row.donateId = some id) : (id, row.organisation.id) ∈ carried rows :=
  List.mem_filterMap.mpr ⟨row, hrow, by simp [hid]⟩

namespace MyBucket

/-! ## Chosen organisations and pledges -/

section Monthly

variable {orgs : List OrganisationItem} {donates : List DonateItem}

/-- The rows that a monthly bucket loads, before the case of a single row. -/
def pledgedRows (orgs : List OrganisationItem) (donates : List DonateItem) :
    List OrganisationWithAmount :=
  (organizationRows orgs donates).1 ++ (organizationRows orgs donates).2.map ofDonate

theorem organisations_organizationRows (orgs : List OrganisationItem) (donates : List DonateItem) :
    (organizationRows orgs donates).1.map (·.organisation) = orgs := by
  induction orgs generalizing donates with
  | nil => rfl
  | cons o orgs ih =>
    unfold organizationRows
    split
    · simpa using ih _
    · simpa using ih _

theorem placed_organizationRows (orgs : List OrganisationItem) (donates : List DonateItem) :
    (placed (organizationRows orgs donates).1 ++
      (organizationRows orgs donates).2.map DonateItem.ref).Perm (donates.map DonateItem.ref) := by
  induction orgs generalizing donates with
  | nil => exact .refl _
  | cons o orgs ih =>
    unfold organizationRows
    split
    · rename_i d hd
      have hid : d.organisation.id = o.id := by simpa using List.find?_some hd
      have href : DonateItem.ref d = ⟨d.id, d.amount, o.id⟩ := by simp [DonateItem.ref, hid]
      refine .trans ?_ ((cons_eraseP_perm hd).map DonateItem.ref)
      simpa [href] using ih _
    · simpa using ih donates

theorem placed_map_ofDonate (donates : List DonateItem) :
    placed (donates.map ofDonate) = donates.map DonateItem.ref := by
  induction donates with
  | nil => rfl
  | cons d donates ih => simp [ih, ofDonate, DonateItem.ref]

theorem placed_pledgedRows (orgs : List OrganisationItem) (donates : List DonateItem) :
    (placed (pledgedRows orgs donates)).Perm (donates.map DonateItem.ref) := by
  simpa [pledgedRows, placed_map_ofDonate] using placed_organizationRows orgs donates

theorem carried_pledgedRows (orgs : List OrganisationItem) (donates : List DonateItem) :
    (carried (pledgedRows orgs donates)).Perm (donates.map DonateItem.key) := by
  simpa [pledgedRows, carried_map_ofDonate] using perm_organizationRows orgs donates

theorem zeroUnlessPlaced_organizationRows (orgs : List OrganisationItem)
    (donates : List DonateItem) : ZeroUnlessPlaced (organizationRows orgs donates).1 := by
  induction orgs generalizing donates with
  | nil => simp [organizationRows, ZeroUnlessPlaced]
  | cons o orgs ih =>
    intro row hrow hid
    unfold organizationRows at hrow
    split at hrow
    · rcases List.mem_cons.mp hrow with rfl | hrow
      · cases hid
      · exact ih _ row hrow hid
    · rcases List.mem_cons.mp hrow with rfl | hrow
      · rfl
      · exact ih _ row hrow hid

theorem zeroUnlessPlaced_pledgedRows (orgs : List OrganisationItem) (donates : List DonateItem) :
    ZeroUnlessPlaced (pledgedRows orgs donates) := by
  intro row hrow hid
  rcases List.mem_append.mp hrow with hrow | hrow
  · exact zeroUnlessPlaced_organizationRows orgs donates row hrow hid
  · obtain ⟨d, -, rfl⟩ := List.mem_map.mp hrow
    cases hid

/-- The pledge of a row that has a document. -/
theorem exists_pledge {row : OrganisationWithAmount} (hrow : row ∈ pledgedRows orgs donates)
    {id : String} (hid : row.donateId = some id) :
    ∃ donate ∈ donates, donate.id = id ∧ donate.amount = row.amount ∧
      donate.organisation.id = row.organisation.id := by
  have hmem : ⟨id, row.amount, row.organisation.id⟩ ∈ placed (pledgedRows orgs donates) :=
    List.mem_filterMap.mpr ⟨row, hrow, by simp [hid]⟩
  obtain ⟨donate, hdonate, he⟩ := List.mem_map.mp ((placed_pledgedRows orgs donates).mem_iff.mp hmem)
  simp only [DonateItem.ref, DonateItemRef.mk.injEq] at he
  exact ⟨donate, hdonate, he⟩

theorem pledge_or_none {row : OrganisationWithAmount} (hrow : row ∈ pledgedRows orgs donates) :
    row.donateId = none ∨
      ∃ donate ∈ donates, row.donateId = some donate.id ∧ row.amount = donate.amount := by
  cases hid : row.donateId with
  | none => exact .inl rfl
  | some id =>
    obtain ⟨donate, hdonate, rfl, hamount, -⟩ := exists_pledge hrow hid
    exact .inr ⟨donate, hdonate, rfl, hamount.symm⟩

/-- Each pledge is on one row, and on that of its organisation. -/
theorem countP_pledgedRows (hdonates : (donates.map (·.id)).Nodup) {donate : DonateItem}
    (hdonate : donate ∈ donates) :
    (pledgedRows orgs donates).countP (·.donateId == some donate.id) = 1 := by
  have hperm := ((carried_pledgedRows orgs donates).map Prod.fst).count_eq donate.id
  have hfst : (donates.map DonateItem.key).map Prod.fst = donates.map (·.id) := by simp [DonateItem.key]
  rw [countP_donateId, hperm, hfst]
  exact List.count_eq_one_of_mem hdonates (List.mem_map.mpr ⟨donate, hdonate, rfl⟩)

theorem organisation_pledgedRows (hdonates : (donates.map (·.id)).Nodup) {donate : DonateItem}
    (hdonate : donate ∈ donates) {row : OrganisationWithAmount} (hrow : row ∈ pledgedRows orgs donates)
    (hid : row.donateId = some donate.id) : row.organisation.id = donate.organisation.id := by
  obtain ⟨donate', hdonate', hid', -, horg⟩ := exists_pledge hrow hid
  obtain rfl := List.inj_on_of_nodup_map hdonates hdonate' hdonate hid'
  exact horg.symm

theorem prefix_pledgedRows (orgs : List OrganisationItem) (donates : List DonateItem) :
    orgs <+: (pledgedRows orgs donates).map (·.organisation) := by
  refine ⟨((organizationRows orgs donates).2.map ofDonate).map (·.organisation), ?_⟩
  rw [pledgedRows, List.map_append, organisations_organizationRows]

/-- Taking it all changes the amount of a single row and nothing else. -/
theorem mergeSaved_none (donateAmount : Int) (rows : List OrganisationWithAmount) :
    (rows.length = 1 ∧ mergeSaved none donateAmount rows =
      rows.map fun row => { row with amount := donateAmount }) ∨
    (rows.length ≠ 1 ∧ mergeSaved none donateAmount rows = rows) := by
  rcases rows with _ | ⟨row, _ | ⟨row', rows⟩⟩
  · exact .inr ⟨by simp, rfl⟩
  · exact .inl ⟨rfl, rfl⟩
  · exact .inr ⟨by simp, rfl⟩

end Monthly

/-! ## Chosen organisations and a saved bucket -/

section OneTime

variable {rows saved : List OrganisationWithAmount} {cdItem : OrganisationWithAmount}

/-- The amount that a saved bucket has for an organisation. -/
def savedAmount (saved : List OrganisationWithAmount) (organisationId : String) (amount : Int) : Int :=
  ((saved.find? (·.organisation.id == organisationId)).map (·.amount)).getD amount

/-- The saved rows of the other organisations. -/
def savedElsewhere (saved : List OrganisationWithAmount) (ids : List String) :
    List OrganisationWithAmount :=
  saved.filter (·.organisation.id ∉ ids)

theorem savedAmount_cons_self (cdItem : OrganisationWithAmount) (saved : List OrganisationWithAmount)
    (amount : Int) : savedAmount (cdItem :: saved) cdItem.organisation.id amount = cdItem.amount := by
  simp [savedAmount]

theorem savedAmount_cons_of_ne {organisationId : String} (h : organisationId ≠ cdItem.organisation.id)
    (amount : Int) :
    savedAmount (cdItem :: saved) organisationId amount = savedAmount saved organisationId amount := by
  simp [savedAmount, h.symm]

theorem savedAmount_of_not_mem {organisationId : String} (h : organisationId ∉ organisationIds saved)
    (amount : Int) : savedAmount saved organisationId amount = amount := by
  have hnone : saved.find? (·.organisation.id == organisationId) = none := by
    apply List.find?_eq_none.mpr
    intro row hrow he
    exact h (List.mem_map.mpr ⟨row, hrow, by simpa using he⟩)
  simp [savedAmount, hnone]

theorem mergeRow_of_not_mem (h : cdItem.organisation.id ∉ organisationIds rows) :
    mergeRow rows cdItem = rows ++ [cdItem] := by
  have hnone : rows.findIdx? (·.organisation.id == cdItem.organisation.id) = none := by
    apply List.findIdx?_eq_none_iff.mpr
    intro row hrow
    apply beq_false_of_ne
    intro he
    exact h (List.mem_map.mpr ⟨row, hrow, he⟩)
  simp [mergeRow, hnone]

/-- The first row of the organisation is its only one. -/
theorem mergeRow_of_mem (hrows : (organisationIds rows).Nodup)
    (h : cdItem.organisation.id ∈ organisationIds rows) :
    mergeRow rows cdItem = rows.map fun row =>
      if row.organisation.id = cdItem.organisation.id then { row with amount := cdItem.amount }
      else row := by
  unfold mergeRow
  cases hi : rows.findIdx? (·.organisation.id == cdItem.organisation.id) with
  | none =>
    obtain ⟨row, hrow, he⟩ := List.mem_map.mp h
    simpa [he] using List.findIdx?_eq_none_iff.mp hi row hrow
  | some index =>
    obtain ⟨hlt, hp, -⟩ := List.findIdx?_eq_some_iff_getElem.mp hi
    have hid : rows[index].organisation.id = cdItem.organisation.id := by simpa using hp
    apply List.ext_getElem (by simp)
    intro j hj hj'
    have hj : j < rows.length := by simpa using hj'
    rcases eq_or_ne index j with rfl | hne
    · simp [hid]
    · have hother : rows[j].organisation.id ≠ cdItem.organisation.id := by
        intro he
        apply hne
        have hi : index < (organisationIds rows).length := by simpa [organisationIds] using hlt
        have hj : j < (organisationIds rows).length := by simpa [organisationIds] using hj
        have hsame : (organisationIds rows)[index] = (organisationIds rows)[j] := by
          simp [organisationIds, hid, he]
        exact (List.Nodup.getElem_inj_iff hrows).mp hsame
      simp [hne, hother]

/-- The whole loop over a saved bucket: known rows take its amounts, its other rows follow. -/
theorem foldl_mergeRow (hrows : (organisationIds rows).Nodup) (hsaved : (organisationIds saved).Nodup) :
    saved.foldl mergeRow rows =
      (rows.map fun row => { row with amount := savedAmount saved row.organisation.id row.amount }) ++
        savedElsewhere saved (organisationIds rows) := by
  induction saved generalizing rows with
  | nil => simp [savedAmount, savedElsewhere]
  | cons cdItem saved ih =>
    obtain ⟨hnot, hrest⟩ := List.nodup_cons.mp hsaved
    have hids := organisationIds_mergeRow rows cdItem
    have hnodup : (organisationIds (mergeRow rows cdItem)).Nodup := by
      have hone : (organisationIds ([cdItem].foldl mergeRow rows)).Nodup :=
        nodup_organisationIds_foldl hrows
      exact hone
    simp only [List.foldl_cons]
    rw [ih hnodup hrest]
    by_cases hmem : cdItem.organisation.id ∈ organisationIds rows
    · have hskip : savedElsewhere (cdItem :: saved) (organisationIds rows) =
          savedElsewhere saved (organisationIds rows) := by
        simp [savedElsewhere, hmem]
      rw [hids, if_pos hmem, hskip, mergeRow_of_mem hrows hmem, List.map_map]
      congr 1
      apply List.map_congr_left
      intro row hrow
      simp only [Function.comp_apply]
      by_cases he : row.organisation.id = cdItem.organisation.id
      · rw [if_pos he]
        simp only [he, savedAmount_cons_self]
        rw [savedAmount_of_not_mem hnot]
      · rw [if_neg he, savedAmount_cons_of_ne he]
    · have hlast : savedAmount saved cdItem.organisation.id cdItem.amount = cdItem.amount :=
        savedAmount_of_not_mem hnot _
      have hrows' : (rows.map fun row =>
          { row with amount := savedAmount saved row.organisation.id row.amount }) =
          rows.map fun row =>
            { row with amount := savedAmount (cdItem :: saved) row.organisation.id row.amount } := by
        apply List.map_congr_left
        intro row hrow
        have hne : row.organisation.id ≠ cdItem.organisation.id := by
          intro he
          exact hmem (List.mem_map.mpr ⟨row, hrow, he⟩)
        rw [savedAmount_cons_of_ne hne]
      have hrest' : savedElsewhere saved (organisationIds rows ++ [cdItem.organisation.id]) =
          savedElsewhere saved (organisationIds rows) := by
        apply List.filter_congr
        intro row hrow
        have hne : row.organisation.id ≠ cdItem.organisation.id := by
          intro he
          exact hnot (List.mem_map.mpr ⟨row, hrow, he⟩)
        simp [hne]
      have hkeep : savedElsewhere (cdItem :: saved) (organisationIds rows) =
          cdItem :: savedElsewhere saved (organisationIds rows) := by
        simp [savedElsewhere, hmem]
      rw [hids, if_neg hmem, mergeRow_of_not_mem hmem, hrest', hkeep, ← hrows']
      simp [hlast]

/-- Merging a bucket into an empty table gives the bucket back. -/
theorem mergeSaved_some_nil (hsaved : (organisationIds saved).Nodup) (donateAmount : Int) :
    mergeSaved (some saved) donateAmount [] = saved := by
  have hnil : (organisationIds []).Nodup := List.nodup_nil
  have h := foldl_mergeRow hnil hsaved
  simpa [mergeSaved, savedElsewhere, organisationIds] using h

end OneTime

/-! ## Nothing lost, nothing twice -/

/-- The rows of a monthly bucket that was not saved before. -/
structure MonthlyRows (chosen : List OrganisationItem) (donates : List DonateItem)
    (donateAmount : Int) (rows : List OrganisationWithAmount) : Prop where
  starts : chosen <+: rows.map (·.organisation)
  once : ∀ donate ∈ donates, rows.countP (·.donateId == some donate.id) = 1
  own : ∀ donate ∈ donates, ∀ row ∈ rows, row.donateId = some donate.id →
    row.organisation.id = donate.organisation.id
  others : ∀ row ∈ rows, row.donateId = none ∨ ∃ donate ∈ donates, row.donateId = some donate.id
  amounts : rows.length ≠ 1 → ∀ row ∈ rows, (row.donateId = none ∧ row.amount = 0) ∨
    ∃ donate ∈ donates, row.donateId = some donate.id ∧ row.amount = donate.amount
  total : rows.length ≠ 1 → totalSum rows = (donates.map (·.amount)).sum
  single : rows.length = 1 → ∀ row ∈ rows, row.amount = donateAmount

/-- The rows of a one-time bucket that was saved before. -/
structure OneTimeRows (chosen : List OrganisationItem) (saved rows : List OrganisationWithAmount) :
    Prop where
  rows_eq : rows = (chosen.map fun organisation =>
      { amount := savedAmount saved organisation.id 0, organisation }) ++
    savedElsewhere saved (chosen.map (·.id))
  distinct : (organisationIds rows).Nodup

/-- The single row changes its amount only, so all that concerns documents stays. -/
theorem monthlyRows_mergeSaved_none (chosen : List OrganisationItem) {donates : List DonateItem}
    (hdonates : (donates.map (·.id)).Nodup) (donateAmount : Int) :
    MonthlyRows chosen donates donateAmount
      (mergeSaved none donateAmount (pledgedRows chosen donates)) := by
  have hlinked : ∀ row ∈ pledgedRows chosen donates, row.donateId = none ∨
      ∃ donate ∈ donates, row.donateId = some donate.id :=
    fun row hrow => (pledge_or_none hrow).imp_right fun ⟨donate, hdonate, hid, _⟩ => ⟨donate, hdonate, hid⟩
  rcases mergeSaved_none donateAmount (pledgedRows chosen donates) with ⟨hone, he⟩ | ⟨hmany, he⟩ <;> rw [he]
  · constructor
    case starts =>
      rw [List.map_map]
      exact prefix_pledgedRows chosen donates
    case once =>
      intro donate hdonate
      rw [List.countP_map]
      exact countP_pledgedRows hdonates hdonate
    case own =>
      intro donate hdonate row hrow hid
      obtain ⟨row', hrow', rfl⟩ := List.mem_map.mp hrow
      have hsame : row'.organisation.id = donate.organisation.id :=
        organisation_pledgedRows hdonates hdonate hrow' hid
      exact hsame
    case others =>
      intro row hrow
      obtain ⟨row', hrow', rfl⟩ := List.mem_map.mp hrow
      exact hlinked row' hrow'
    case amounts =>
      intro hne
      exact absurd (by simpa using hone) hne
    case total =>
      intro hne
      exact absurd (by simpa using hone) hne
    case single =>
      intro _ row hrow
      obtain ⟨row, -, rfl⟩ := List.mem_map.mp hrow
      rfl
  · constructor
    case starts => exact prefix_pledgedRows chosen donates
    case once => exact fun donate hdonate => countP_pledgedRows hdonates hdonate
    case own => exact fun donate hdonate row hrow hid => organisation_pledgedRows hdonates hdonate hrow hid
    case others => exact hlinked
    case amounts =>
      intro _ row hrow
      rcases pledge_or_none hrow with hid | hpledge
      · exact .inl ⟨hid, zeroUnlessPlaced_pledgedRows chosen donates row hrow hid⟩
      · exact .inr hpledge
    case total =>
      intro _
      have hsum := ((placed_pledgedRows chosen donates).map (·.amount)).sum_eq
      rw [totalSum_eq_placed (zeroUnlessPlaced_pledgedRows chosen donates), hsum, List.map_map]
      rfl
    case single =>
      intro hone
      exact absurd hone hmany

/-! ## One-time buckets -/

/-- Without pledges each chosen organisation has an empty row. -/
theorem organizationRows_nil (chosen : List OrganisationItem) :
    (organizationRows chosen []).1 = chosen.map fun organisation => { amount := 0, organisation } := by
  induction chosen with
  | nil => rfl
  | cons o chosen ih => simp [organizationRows, ih]

theorem oneTimeRows_mergeSaved_some {chosen : List OrganisationItem}
    {saved : List OrganisationWithAmount} (hchosen : (chosen.map (·.id)).Nodup)
    (hsaved : (organisationIds saved).Nodup) (donateAmount : Int) :
    OneTimeRows chosen saved (mergeSaved (some saved) donateAmount (organizationRows chosen []).1) := by
  have hids := organisationIds_organizationRows chosen []
  have hrows : (organisationIds (organizationRows chosen []).1).Nodup := by rwa [hids]
  constructor
  case rows_eq =>
    have h := foldl_mergeRow hrows hsaved
    rw [hids, organizationRows_nil, List.map_map] at h
    rw [organizationRows_nil]
    exact h
  case distinct => exact nodup_organisationIds_foldl hrows

/-- Loading a bucket neither loses nor duplicates a pledge, in either mode. -/
theorem loaded_tableData (u : UserManager) (vc : MyBucket)
    (hchosen : ((vc.organizations.getD []).map (·.id)).Nodup) :
    (vc.isOneTimePaymentMode = false → u.savedRows .monthly = none →
      (vc.donates.map (·.id)).Nodup →
      MonthlyRows (vc.organizations.getD []) vc.donates vc.donateAmount (vc.loaded u).tableData) ∧
    (∀ saved, vc.isOneTimePaymentMode = true → vc.donates = [] → u.savedRows .once = some saved →
      (organisationIds saved).Nodup →
      OneTimeRows (vc.organizations.getD []) saved (vc.loaded u).tableData) := by
  constructor
  · intro hmode hsaved hdonates
    have h := monthlyRows_mergeSaved_none (vc.organizations.getD []) hdonates vc.donateAmount
    simpa [loaded, loadedRows, hmode, hsaved, pledgedRows] using h
  · intro saved hmode hnone hsaved hnodup
    have h := oneTimeRows_mergeSaved_some hchosen hnodup vc.donateAmount
    simpa [loaded, loadedRows, hmode, hsaved, hnone] using h

/-- Two pledges of one organisation, a saved row: what a bucket with both loads. -/
def pledgedBucket (isOneTimePaymentMode : Bool) : MyBucket :=
  { isOneTimePaymentMode
    organizations := some [{ id := "shelter" }]
    donates := if isOneTimePaymentMode then [] else
      [⟨"p1", 5, { id := "food" }⟩, ⟨"p2", 7, { id := "food" }⟩]
    donateAmount := 12 }

theorem loaded_tableData_pledgedBucket :
    MonthlyRows [{ id := "shelter" }] [⟨"p1", 5, { id := "food" }⟩, ⟨"p2", 7, { id := "food" }⟩] 12
      ((pledgedBucket false).loaded {}).tableData ∧
    OneTimeRows [{ id := "shelter" }] [⟨4, { id := "food" }, none⟩, ⟨3, { id := "shelter" }, none⟩]
      ((pledgedBucket true).loaded
        { completeDonation :=
            some ⟨[⟨4, { id := "food" }, none⟩, ⟨3, { id := "shelter" }, none⟩], .once⟩ }).tableData := by
  constructor
  · exact (loaded_tableData {} (pledgedBucket false) (by decide)).1 rfl rfl (by decide)
  · exact (loaded_tableData _ (pledgedBucket true) (by decide)).2 _ rfl rfl rfl (by decide)

end MyBucket

end Pledge
