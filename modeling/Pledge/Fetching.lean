import Pledge.FirestoreManager

/-!
# What the fetches report

The fetches behind a bucket, answered by the services: which organisations and pledges
their completions are handed, whatever fails on the way.
-/

namespace Pledge

open EventLoop

variable {w w' w₁ w₂ : World} {h : List Frame} {l : List Effect} {uid causeId : String}

/-! ## Snapshots -/

namespace Collection

variable {α : Type} {c : Collection α} {documents : List (Document α)}

theorem Snapshot.mem_iff (hs : c.Snapshot documents) {id : String} {data : Option α} :
    (⟨id, data⟩ : Document α) ∈ documents ↔ data ≠ none ∧ c.lookup id = data := by
  rw [List.Perm.mem_iff hs, List.mem_map]
  constructor
  · rintro ⟨⟨id', x⟩, hmem, he⟩
    cases he
    exact ⟨by simp, AList.mem_lookup_iff.mpr hmem⟩
  · rintro ⟨hne, hl⟩
    obtain ⟨x, rfl⟩ := Option.ne_none_iff_exists'.mp hne
    exact ⟨⟨id, x⟩, AList.mem_lookup_iff.mp hl, rfl⟩

theorem Snapshot.nodup (hs : c.Snapshot documents) : (documents.map (·.documentID)).Nodup := by
  have hkeys : ((c.entries.map fun e => (⟨e.1, some e.2⟩ : Document α)).map (·.documentID)).Nodup := by
    rw [List.map_map]
    exact c.nodupKeys
  exact (List.Perm.nodup_iff (hs.map _)).mpr hkeys

/-- Some snapshot always exists. -/
theorem exists_snapshot (c : Collection α) : c.Snapshot (c.entries.map fun e => ⟨e.1, some e.2⟩) :=
  .refl _

end Collection

/-! ## The session stays -/

/-- Between `w` and `w'` only caches of the device have changed. -/
structure SameSession (w w' : World) : Prop where
  server : w'.2 = w.2
  userManager : w'.1.userManager = w.1.userManager
  currentUser : w'.1.currentUser = w.1.currentUser

theorem SameSession.refl (w : World) : SameSession w w := ⟨rfl, rfl, rfl⟩

theorem SameSession.trans (h₁ : SameSession w w₁) (h₂ : SameSession w₁ w₂) : SameSession w w₂ :=
  ⟨h₂.server.trans h₁.server, h₂.userManager.trans h₁.userManager, h₂.currentUser.trans h₁.currentUser⟩

theorem sameSession_filters (w : World) (filters : List FilterItem) :
    SameSession w (w.1.setFilters filters, w.2) := ⟨rfl, rfl, rfl⟩

theorem sameSession_donateRefs (w : World) (donateRefs : Option (List DonateItemRef)) :
    SameSession w ({ w.1 with donateRefs }, w.2) := ⟨rfl, rfl, rfl⟩

/-! ## Organisations -/

section Organisations

/-- The organisation `id` belongs to the cause. -/
def Server.InCause (s : Server) (causeId id : String) : Prop :=
  ∃ data, s.organisations.lookup id = some data ∧ causeId ∈ data.causes

/-- The organisations of the cause, each once. -/
structure OfCause (s : Server) (causeId : String) (organisations : List OrganisationItem) : Prop where
  nodup : (organisations.map (·.id)).Nodup
  mem_iff : ∀ id, id ∈ organisations.map (·.id) ↔ s.InCause causeId id

theorem map_id_addFiltersToOrganisations (d : Device) (organisations : List OrganisationItem) :
    (d.addFiltersToOrganisations organisations).map (·.id) = organisations.map (·.id) := by
  rw [Device.addFiltersToOrganisations, List.map_map]
  refine List.map_congr_left fun o _ => ?_
  simp only [Function.comp_apply]
  split <;> rfl

theorem map_id_organisations {documents : List (Document OrganisationDoc)}
    (hdata : ∀ d ∈ documents, d.data ≠ none) :
    (documents.filterMap OrganisationItem.init?).map (·.id) = documents.map (·.documentID) := by
  induction documents with
  | nil => rfl
  | cons d documents ih =>
    obtain ⟨data, hd⟩ := Option.ne_none_iff_exists'.mp (hdata d (by simp))
    simp [OrganisationItem.init?, hd] at ih ⊢
    exact ih fun d' hd' => hdata d' (by simp [hd'])

theorem yields_fetchFilters {usingCache : Bool} {k : Option (List FilterItem) → Prog}
    (hy : (FirestoreManager.fetchFilters usingCache k).Yields Answers w h w' l) :
    ∃ w₁ result, SameSession w w₁ ∧ (k result).Yields Answers w₁ h w' l := by
  rw [FirestoreManager.fetchFilters, yields_read] at hy
  split at hy
  · exact ⟨w, _, .refl w, hy⟩
  · obtain ⟨snapshot, w₁, ⟨rfl, -⟩, hy⟩ := yields_ask.mp hy
    cases snapshot with
    | none => exact ⟨w₁, none, .refl _, hy⟩
    | some documents =>
      dsimp only at hy
      split at hy
      · exact ⟨_, _, sameSession_filters w₁ _, yields_modify.mp hy⟩
      · exact ⟨w₁, _, .refl _, hy⟩

/-- Filters can always be fetched or done without. -/
theorem exists_yields_fetchFilters (usingCache : Bool) (w : World) :
    ∃ w₁ result, SameSession w w₁ ∧ ∀ h w' l (k : Option (List FilterItem) → Prog),
      (k result).Yields Answers w₁ h w' l →
        (FirestoreManager.fetchFilters usingCache k).Yields Answers w h w' l := by
  by_cases hc : (usingCache && !w.1.filters.isEmpty) = true
  · refine ⟨w, some w.1.filters, .refl w, fun h w' l k hk => ?_⟩
    rwa [FirestoreManager.fetchFilters, yields_read, if_pos hc]
  · refine ⟨w, none, .refl w, fun h w' l k hk => ?_⟩
    rw [FirestoreManager.fetchFilters, yields_read, if_neg hc]
    exact yields_ask.mpr ⟨none, w, ⟨rfl, by simp⟩, hk⟩

theorem ofCause_snapshot {s : Server} {documents : List (Document OrganisationDoc)}
    (hs : s.organisations.Snapshot documents) (causeId : String) :
    OfCause s causeId ((documents.filter fun d =>
      (d.data.map OrganisationDoc.causes).getD [] |>.contains causeId).filterMap
        OrganisationItem.init?) := by
  have hdata : ∀ d ∈ documents.filter fun d =>
      (d.data.map OrganisationDoc.causes).getD [] |>.contains causeId, d.data ≠ none :=
    fun d hd => (hs.mem_iff.mp (List.mem_of_mem_filter hd)).1
  constructor
  · rw [map_id_organisations hdata]
    exact hs.nodup.sublist (List.filter_sublist.map _)
  · intro id
    rw [map_id_organisations hdata, List.mem_map]
    constructor
    · rintro ⟨⟨_, data⟩, hd, rfl⟩
      obtain ⟨hmem, hc⟩ := List.mem_filter.mp hd
      obtain ⟨hne, hl⟩ := hs.mem_iff.mp hmem
      obtain ⟨data, rfl⟩ := Option.ne_none_iff_exists'.mp hne
      exact ⟨data, hl, by simpa using hc⟩
    · rintro ⟨data, hl, hc⟩
      exact ⟨⟨id, some data⟩, List.mem_filter.mpr
        ⟨hs.mem_iff.mpr ⟨by simp, hl⟩, by simpa using hc⟩, rfl⟩

theorem OfCause.filtered {s : Server} {organisations : List OrganisationItem}
    (ho : OfCause s causeId organisations) (d : Device) :
    OfCause s causeId (d.addFiltersToOrganisations organisations) := by
  refine ⟨?_, fun id => ?_⟩
  · rw [map_id_addFiltersToOrganisations]
    exact ho.nodup
  · rw [map_id_addFiltersToOrganisations]
    exact ho.mem_iff id

/-- A fetch by cause fails, or reports the organisations of the cause, or, where there is
nothing to report, never answers. -/
theorem yields_fetchOrganisationsByCause {k : Option (List OrganisationItem) → Prog}
    (hy : (FirestoreManager.fetchOrganisationsByCause causeId k).Yields Answers w h w' l) :
    SameSession w w' ∧ l = [] ∨
      ∃ w₁ result, SameSession w w₁ ∧ (k result).Yields Answers w₁ h w' l ∧
        ∀ organisations, result = some organisations →
          OfCause w.2 causeId organisations ∧ organisations ≠ [] := by
  obtain ⟨snapshot, w₁, ⟨rfl, hs⟩, hy⟩ := yields_ask.mp hy
  cases snapshot with
  | none => exact .inr ⟨w₁, none, .refl w₁, hy, by simp⟩
  | some documents =>
    obtain ⟨documents, hsnap, rfl⟩ := hs _ rfl
    rw [FirestoreManager.organisationsCallback] at hy
    split at hy
    · rename_i hne
      obtain ⟨w₂, _, hsame, hy⟩ := yields_fetchFilters hy
      refine .inr ⟨w₂, _, hsame, yields_read.mp hy, ?_⟩
      rintro _ ⟨⟩
      refine ⟨(ofCause_snapshot hsnap causeId).filtered _, ?_⟩
      simpa [Device.addFiltersToOrganisations] using hne
    · obtain ⟨rfl, rfl⟩ := yields_stop.mp hy
      exact .inl ⟨.refl _, rfl⟩

theorem OfCause.not_isEmpty {s : Server} {organisations : List OrganisationItem} {id : String}
    (ho : OfCause s causeId organisations) (hid : s.InCause causeId id) :
    (!organisations.isEmpty) = true := by
  have hmem := (ho.mem_iff id).mpr hid
  cases organisations with
  | nil => cases hmem
  | cons o organisations => rfl

/-- The organisations of a cause that has some can be reported. -/
theorem exists_yields_fetchOrganisationsByCause (w : World) {id : String} (hid : w.2.InCause causeId id) :
    ∃ w₁ organisations, SameSession w w₁ ∧ OfCause w.2 causeId organisations ∧
      ∀ h w' l (k : Option (List OrganisationItem) → Prog),
        (k (some organisations)).Yields Answers w₁ h w' l →
          (FirestoreManager.fetchOrganisationsByCause causeId k).Yields Answers w h w' l := by
  have hsnap := Collection.exists_snapshot w.2.organisations
  have hof := ofCause_snapshot hsnap causeId
  obtain ⟨w₁, _, hsame, hfilters⟩ := exists_yields_fetchFilters true w
  refine ⟨w₁, _, hsame, hof.filtered w₁.1, fun h w' l k hk => ?_⟩
  refine yields_ask.mpr ⟨some _, w, ⟨rfl, fun _ he => ⟨_, hsnap, (Option.some.inj he).symm⟩⟩, ?_⟩
  rw [FirestoreManager.organisationsCallback, if_pos (hof.not_isEmpty hid)]
  exact hfilters _ _ _ _ (yields_read.mpr hk)

/-! ## Organisations by their ids -/

/-- The shared callback of `fetchOrganisations(ids:)`. -/
def organisationsBranch (ids : List String) : Branch (List OrganisationItem) Request.Response :=
  ⟨.getOrganisationsIn ids, fun snapshot => (snapshot.getD []).filterMap OrganisationItem.init?⟩

theorem result_collectAll (answers : List (Answered (List OrganisationItem) Request.Response))
    (frame : Frame) :
    (collectAll (fun (frame : Frame) organisations =>
      { frame with queryCount := frame.queryCount + 1, result := frame.result ++ organisations })
      frame answers).result = frame.result ++ answers.flatMap Answered.value := by
  induction answers generalizing frame with
  | nil => simp [collectAll]
  | cons a answers ih =>
    rw [collectAll, List.map_cons, List.foldl_cons, ← collectAll, ih]
    simp

theorem organisationsBranch_injective : Function.Injective organisationsBranch := by
  intro ids ids' he
  have hr := congrArg Sigma.fst he
  simpa [organisationsBranch] using hr

/-- Every organisation in the answers exists and was asked for. -/
theorem servesAll_organisationsBranch
    {answers : List (Answered (List OrganisationItem) Request.Response)}
    (hb : ∀ a ∈ answers, ∃ ids, a.1 = organisationsBranch ids) (hs : ServesAll Answers w answers w') :
    w' = w ∧ ∀ o ∈ answers.flatMap Answered.value, o.id ∈ w.2.organisations ∧
      ∃ ids, organisationsBranch ids ∈ answers.map Sigma.fst ∧ o.id ∈ ids := by
  induction hs with
  | nil w => exact ⟨rfl, by simp⟩
  | @cons w w₁ w₂ a answers ha _ ih =>
    obtain ⟨⟨r, report⟩, snapshot⟩ := a
    obtain ⟨ids, he⟩ := hb _ List.mem_cons_self
    obtain ⟨rfl, hreport⟩ := Sigma.mk.inj he
    obtain rfl := eq_of_heq hreport
    obtain ⟨rfl, hsnap⟩ := ha
    obtain ⟨rfl, hrest⟩ := ih fun b hb' => hb b (List.mem_cons_of_mem _ hb')
    refine ⟨rfl, fun o ho => ?_⟩
    rw [List.flatMap_cons, List.mem_append] at ho
    rcases ho with ho | ho
    · cases snapshot with
      | none => cases ho
      | some documents =>
        obtain ⟨all, hall, rfl⟩ := hsnap _ rfl
        obtain ⟨d, hd, hinit⟩ := List.mem_filterMap.mp ho
        obtain ⟨data, hdata, rfl⟩ := Option.map_eq_some_iff.mp hinit
        obtain ⟨hmem, hasked⟩ := List.mem_filter.mp hd
        obtain ⟨hne, hl⟩ := hall.mem_iff.mp hmem
        refine ⟨AList.lookup_isSome.mp (by rw [hl, hdata]; rfl), ids, List.mem_cons_self, ?_⟩
        simpa using hasked
    · obtain ⟨hmem, ids', hids, hid⟩ := hrest o ho
      exact ⟨hmem, ids', List.mem_cons_of_mem _ hids, hid⟩

theorem forall_addFiltersToOrganisations {P : String → Prop} {d : Device} {organisations : List OrganisationItem}
    (hk : ∀ o ∈ organisations, P o.id) {o : OrganisationItem}
    (ho : o ∈ d.addFiltersToOrganisations organisations) : P o.id := by
  have hid := List.mem_map_of_mem (f := (·.id)) ho
  rw [map_id_addFiltersToOrganisations] at hid
  obtain ⟨o', ho', he⟩ := List.mem_map.mp hid
  rw [← he]
  exact hk o' ho'

/-- The chunks hold the ids that were asked for. -/
theorem mem_flatten_chunked {ids : List String} (setOrder : SetOrder) {id : String} :
    id ∈ (chunked (setOrder.1 ids) 10).flatten ↔ id ∈ ids := by
  rw [flatten_chunked _ (by decide), (setOrder.2 ids).mem_iff, List.mem_dedup]

/-- Whatever chunks fail, only existing organisations that were asked for are reported. -/
theorem yields_fetchOrganisationsIn {ids : List String} {k : List OrganisationItem → Prog}
    (hy : (FirestoreManager.fetchOrganisationsIn ids k).Yields Answers w h w' l) :
    ∃ h₁ organisations, (∀ o ∈ organisations, o.id ∈ w.2.organisations ∧ o.id ∈ ids) ∧
      (k organisations).Yields Answers w h₁ w' l := by
  rw [FirestoreManager.fetchOrganisationsIn] at hy
  split at hy
  · exact ⟨h, [], by simp, hy⟩
  · rename_i hids
    obtain ⟨answers, w₂, v, hperm, hserve, rfl, hk⟩ :=
      (yields_fanOut Frame.queryCount (fun _ _ => rfl) (fun _ => rfl) (Nat.zero_add _)
        (chunked_setOrder_ne_nil _ hids)).mp (yields_read.mp hy)
    have hb : ∀ b ∈ answers.map Sigma.fst, ∃ chunk ∈ chunked (w.1.setOrder.1 ids) 10,
        organisationsBranch chunk = b := fun b hb => List.mem_map.mp (hperm.subset hb)
    obtain ⟨rfl, hmem⟩ := servesAll_organisationsBranch (fun a ha => by
      obtain ⟨chunk, -, he⟩ := hb _ (List.mem_map_of_mem ha)
      exact ⟨chunk, he.symm⟩) hserve
    refine ⟨_, _, ?_, yields_read.mp hk⟩
    rw [result_collectAll]
    intro o ho
    refine forall_addFiltersToOrganisations
      (P := fun id => id ∈ w₂.2.organisations ∧ id ∈ ids) (fun o ho => ?_) ho
    obtain ⟨hknown, ids', hids', hid⟩ := hmem o ho
    obtain ⟨chunk, hchunk, he⟩ := hb _ hids'
    obtain rfl := organisationsBranch_injective he
    exact ⟨hknown, (mem_flatten_chunked w₂.1.setOrder).mp (List.mem_flatten.mpr ⟨_, hchunk, hid⟩)⟩

/-- The complete answer to the query for one chunk. -/
def completeAnswer (s : Server) (ids : List String) : Answered (List OrganisationItem) Request.Response :=
  ⟨organisationsBranch ids, some ((s.organisations.entries.map fun e =>
    (⟨e.1, some e.2⟩ : Document OrganisationDoc)).filter fun d => ids.contains d.documentID)⟩

theorem servesAll_completeAnswer (w : World) (chunks : List (List String)) :
    ServesAll Answers w (chunks.map (completeAnswer w.2)) w := by
  induction chunks with
  | nil => exact .nil w
  | cons ids chunks ih =>
    refine .cons ⟨rfl, fun l hl => ?_⟩ ih
    exact ⟨_, Collection.exists_snapshot _, (Option.some.inj hl).symm⟩

theorem exists_mem_completeAnswer {s : Server} {ids : List String} {id : String} (hid : id ∈ ids)
    (hs : id ∈ s.organisations) : ∃ o ∈ (completeAnswer s ids).value, o.id = id := by
  obtain ⟨data, hl⟩ := Option.isSome_iff_exists.mp (AList.lookup_isSome.mpr hs)
  have hmem : (⟨id, some data⟩ : Document OrganisationDoc) ∈
      s.organisations.entries.map fun e => ⟨e.1, some e.2⟩ :=
    (Collection.exists_snapshot s.organisations).mem_iff.mpr ⟨by simp, hl⟩
  exact ⟨_, List.mem_filterMap.mpr
    ⟨_, List.mem_filter.mpr ⟨hmem, by simpa using hid⟩, rfl⟩, rfl⟩

/-- Every existing organisation among the ids can be reported. -/
theorem exists_yields_fetchOrganisationsIn (w : World) (h : List Frame) (ids : List String) :
    ∃ h₁ organisations, (∀ id ∈ ids, id ∈ w.2.organisations → ∃ o ∈ organisations, o.id = id) ∧
      (∀ o ∈ organisations, o.id ∈ w.2.organisations) ∧
      ∀ w' l (k : List OrganisationItem → Prog), (k organisations).Yields Answers w h₁ w' l →
        (FirestoreManager.fetchOrganisationsIn ids k).Yields Answers w h w' l := by
  by_cases hids : ids.isEmpty = true
  · refine ⟨h, [], fun id hid => ?_, by simp, fun w' l k hk => ?_⟩
    · rw [List.isEmpty_iff.mp hids] at hid
      cases hid
    · rwa [FirestoreManager.fetchOrganisationsIn, if_pos hids]
  · obtain ⟨chunks, hchunks⟩ : ∃ chunks, chunks = chunked (w.1.setOrder.1 ids) 10 := ⟨_, rfl⟩
    refine ⟨h ++ [collectAll (fun (frame : Frame) organisations =>
        { frame with queryCount := frame.queryCount + 1, result := frame.result ++ organisations })
        {} (chunks.map (completeAnswer w.2))],
      w.1.addFiltersToOrganisations ((chunks.map (completeAnswer w.2)).flatMap Answered.value),
      fun id hid hs => ?_, fun o ho => ?_, fun w' l k hk => ?_⟩
    · have hmem : id ∈ chunks.flatten := by
        rw [hchunks]
        exact (mem_flatten_chunked w.1.setOrder).mpr hid
      obtain ⟨chunk, hchunk, hidc⟩ := List.mem_flatten.mp hmem
      obtain ⟨o, ho, rfl⟩ := exists_mem_completeAnswer hidc hs
      have hall : o.id ∈ ((chunks.map (completeAnswer w.2)).flatMap Answered.value).map (·.id) :=
        List.mem_map_of_mem (List.mem_flatMap.mpr ⟨_, List.mem_map_of_mem hchunk, ho⟩)
      rw [← map_id_addFiltersToOrganisations w.1] at hall
      exact List.mem_map.mp hall
    · have hb : ∀ a ∈ chunks.map (completeAnswer w.2), ∃ ids, a.1 = organisationsBranch ids := by
        intro a ha
        obtain ⟨chunk, -, rfl⟩ := List.mem_map.mp ha
        exact ⟨chunk, rfl⟩
      obtain ⟨-, hknown⟩ := servesAll_organisationsBranch hb (servesAll_completeAnswer w chunks)
      exact forall_addFiltersToOrganisations (P := (· ∈ w.2.organisations))
        (fun o ho => (hknown o ho).1) ho
    · rw [FirestoreManager.fetchOrganisationsIn, if_neg hids]
      refine yields_read.mpr ((yields_fanOut Frame.queryCount (fun _ _ => rfl) (fun _ => rfl)
        (Nat.zero_add _) (chunked_setOrder_ne_nil _ hids)).mpr
        ⟨chunks.map (completeAnswer w.2), w, _, ?_, servesAll_completeAnswer w chunks, rfl, ?_⟩)
      · rw [hchunks, List.map_map]
        exact .refl _
      · rw [yields_read, result_collectAll, List.nil_append]
        exact hk

end Organisations

/-! ## Pledges -/

section Pledges

variable {donateRefs : List DonateItemRef} {organisations : List OrganisationItem}
  {donates : List DonateItem}

/-- Decoding that keeps a field keeps the order of its values. -/
theorem map_filterMap_sublist {α β γ : Type} {f : α → Option β} {g : β → γ} {g' : α → γ}
    (h : ∀ a b, f a = some b → g b = g' a) (l : List α) :
    ((l.filterMap f).map g).Sublist (l.map g') := by
  induction l with
  | nil => exact .slnil
  | cons a l ih =>
    cases ha : f a with
    | none =>
      rw [List.filterMap_cons_none ha]
      exact ih.cons _
    | some b =>
      rw [List.filterMap_cons_some ha, List.map_cons, List.map_cons, h a b ha]
      exact ih.cons_cons _

theorem DonateItemRef.init?_eq_some {id : String} {data : Option DonateDoc} {ref : DonateItemRef} :
    DonateItemRef.init? ⟨id, data⟩ = some ref ↔ id = ref.id ∧
      data = some { amount := some ref.amount, organisation := some ref.organisationId } := by
  obtain ⟨id', amount', organisationId'⟩ := ref
  rcases data with _ | ⟨_ | amount, _ | organisation⟩ <;> simp [DonateItemRef.init?]

theorem mem_donateRefs {c : Collection DonateDoc} {documents : List (Document DonateDoc)}
    (hs : c.Snapshot documents) {ref : DonateItemRef} :
    ref ∈ documents.filterMap DonateItemRef.init? ↔ c.lookup ref.id =
      some { amount := some ref.amount, organisation := some ref.organisationId } := by
  rw [List.mem_filterMap]
  constructor
  · rintro ⟨⟨id, data⟩, hd, he⟩
    obtain ⟨rfl, rfl⟩ := DonateItemRef.init?_eq_some.mp he
    exact (hs.mem_iff.mp hd).2
  · intro hl
    exact ⟨⟨ref.id, _⟩, hs.mem_iff.mpr ⟨by simp, hl⟩, DonateItemRef.init?_eq_some.mpr ⟨rfl, rfl⟩⟩

theorem nodup_donateRefs {c : Collection DonateDoc} {documents : List (Document DonateDoc)}
    (hs : c.Snapshot documents) :
    ((documents.filterMap DonateItemRef.init?).map (·.id)).Nodup :=
  hs.nodup.sublist (map_filterMap_sublist
    (fun _ _ he => (DonateItemRef.init?_eq_some.mp he).1.symm) documents)

/-- A dictionary filled by a loop finds an element of the loop or an earlier one. -/
theorem lookup_dict {α : Type} {key : α → String} {xs : List α} {dict : Collection α} {id : String}
    {a : α} (hl : (xs.foldl (fun dict x => dict.insert (key x) x) dict).lookup id = some a) :
    a ∈ xs ∧ key a = id ∨ dict.lookup id = some a := by
  induction xs generalizing dict with
  | nil => exact .inr hl
  | cons x xs ih =>
    rcases ih hl with ⟨hmem, hid⟩ | hl
    · exact .inl ⟨List.mem_cons_of_mem _ hmem, hid⟩
    · by_cases hx : id = key x
      · subst hx
        rw [AList.lookup_insert] at hl
        cases hl
        exact .inl ⟨List.mem_cons_self, rfl⟩
      · rw [AList.lookup_insert_ne hx] at hl
        exact .inr hl

theorem mem_dict {α : Type} {key : α → String} {xs : List α} {dict : Collection α} {id : String}
    (hid : id ∈ xs.map key ∨ id ∈ dict) : id ∈ xs.foldl (fun dict x => dict.insert (key x) x) dict := by
  induction xs generalizing dict with
  | nil => simpa using hid
  | cons x xs ih =>
    refine ih ?_
    rw [AList.mem_insert]
    simpa [or_assoc, or_comm, or_left_comm] using hid

theorem mem_joinDonates {d : DonateItem}
    (hd : d ∈ FirestoreManager.joinDonates donateRefs organisations) :
    ∃ ref ∈ donateRefs, d.id = ref.id ∧ d.amount = ref.amount ∧
      d.organisation.id = ref.organisationId ∧ d.organisation ∈ organisations := by
  obtain ⟨ref, href, he⟩ := List.mem_filterMap.mp hd
  obtain ⟨o, hl, rfl⟩ := Option.map_eq_some_iff.mp he
  rcases lookup_dict hl with ⟨hmem, hid⟩ | hl
  · exact ⟨ref, href, rfl, rfl, hid, hmem⟩
  · cases hl

theorem exists_mem_joinDonates {ref : DonateItemRef} (href : ref ∈ donateRefs)
    (ho : ∃ o ∈ organisations, o.id = ref.organisationId) :
    ∃ d ∈ FirestoreManager.joinDonates donateRefs organisations, d.id = ref.id := by
  obtain ⟨o, hmem, hid⟩ := ho
  have hdict : ref.organisationId ∈ organisations.foldl
      (fun (dict : Collection OrganisationItem) o => dict.insert o.id o) ∅ :=
    mem_dict (.inl (List.mem_map.mpr ⟨o, hmem, hid⟩))
  obtain ⟨o', hl⟩ := Option.isSome_iff_exists.mp (AList.lookup_isSome.mpr hdict)
  exact ⟨_, List.mem_filterMap.mpr ⟨ref, href, Option.map_eq_some_iff.mpr ⟨o', hl, rfl⟩⟩, rfl⟩

theorem nodup_joinDonates (hn : (donateRefs.map (·.id)).Nodup) (organisations : List OrganisationItem) :
    ((FirestoreManager.joinDonates donateRefs organisations).map (·.id)).Nodup := by
  refine hn.sublist (map_filterMap_sublist (fun ref d he => ?_) donateRefs)
  obtain ⟨o, -, rfl⟩ := Option.map_eq_some_iff.mp he
  rfl

/-- The pledges are stored ones of user `uid`, each once, to organisations that exist. -/
structure Reports (s : Server) (uid : String) (donates : List DonateItem) : Prop where
  nodup : (donates.map (·.id)).Nodup
  stored : ∀ d ∈ donates, (s.account uid).donates.lookup d.id =
    some { amount := some d.amount, organisation := some d.organisation.id }
  known : ∀ d ∈ donates, d.organisation.id ∈ s.organisations

/-- No stored pledge to an existing organisation is missing. -/
def Complete (s : Server) (uid : String) (donates : List DonateItem) : Prop :=
  ∀ id amount organisationId, (s.account uid).donates.lookup id =
      some { amount := some amount, organisation := some organisationId } →
    organisationId ∈ s.organisations → ∃ d ∈ donates, d.id = id

theorem reports_nil (s : Server) (uid : String) : Reports s uid [] := by
  constructor <;> simp

theorem yields_fetchDonateRefs (hu : w.1.currentUser = some uid)
    {k : Option (List DonateItemRef) → Prog}
    (hy : (FirestoreManager.fetchDonateRefs k).Yields Answers w h w' l) :
    ∃ w₁ result, SameSession w w₁ ∧ (k result).Yields Answers w₁ h w' l ∧
      ∀ refs, result = some refs → ∃ documents, (w.2.account uid).donates.Snapshot documents ∧
        refs = documents.filterMap DonateItemRef.init? := by
  rw [FirestoreManager.fetchDonateRefs, yields_withUid_signedIn hu] at hy
  obtain ⟨snapshot, w₁, ⟨rfl, hs⟩, hy⟩ := yields_ask.mp hy
  cases snapshot with
  | none => exact ⟨w₁, none, .refl w₁, hy, by simp⟩
  | some documents =>
    refine ⟨_, _, sameSession_donateRefs w₁ _, yields_modify.mp hy, ?_⟩
    rintro _ ⟨⟩
    exact ⟨documents, hs _ rfl, rfl⟩

/-- A fetch of the pledges fails, or reports stored ones. -/
theorem yields_fetchDonates (hu : w.1.currentUser = some uid) {k : Option (List DonateItem) → Prog}
    (hy : (FirestoreManager.fetchDonates k).Yields Answers w h w' l) :
    ∃ w₁ h₁ result, SameSession w w₁ ∧ (k result).Yields Answers w₁ h₁ w' l ∧
      ∀ donates, result = some donates → Reports w.2 uid donates := by
  obtain ⟨w₁, refs, hsame, hy, hrefs⟩ := yields_fetchDonateRefs hu hy
  cases refs with
  | none => exact ⟨w₁, h, none, hsame, hy, by simp⟩
  | some refs =>
    obtain ⟨documents, hs, rfl⟩ := hrefs _ rfl
    dsimp only at hy
    split at hy
    · refine ⟨w₁, h, some [], hsame, hy, ?_⟩
      rintro _ ⟨⟩
      exact reports_nil w.2 uid
    · obtain ⟨h₁, organisations, hknown, hy⟩ := yields_fetchOrganisationsIn hy
      refine ⟨w₁, h₁, _, hsame, hy, ?_⟩
      rintro _ ⟨⟩
      refine ⟨nodup_joinDonates (nodup_donateRefs hs) _, fun d hd => ?_, fun d hd => ?_⟩
      · obtain ⟨ref, href, hid, hamount, ho, -⟩ := mem_joinDonates hd
        rw [hid, hamount, ho]
        exact (mem_donateRefs hs).mp href
      · obtain ⟨-, -, -, -, -, ho⟩ := mem_joinDonates hd
        rw [← hsame.server]
        exact (hknown _ ho).1

/-- All stored pledges can be reported at once. -/
theorem exists_yields_fetchDonates (hu : w.1.currentUser = some uid) (h : List Frame) :
    ∃ w₁ h₁ donates, SameSession w w₁ ∧ Reports w.2 uid donates ∧ Complete w.2 uid donates ∧
      ∀ w' l (k : Option (List DonateItem) → Prog), (k (some donates)).Yields Answers w₁ h₁ w' l →
        (FirestoreManager.fetchDonates k).Yields Answers w h w' l := by
  have hs := Collection.exists_snapshot (w.2.account uid).donates
  generalize (w.2.account uid).donates.entries.map
    (fun e => (⟨e.1, some e.2⟩ : Document DonateDoc)) = documents at hs
  have hsame := sameSession_donateRefs w (some (documents.filterMap DonateItemRef.init?))
  have hrefs : ∀ w' l h₁ (k : Option (List DonateItemRef) → Prog),
      (k (some (documents.filterMap DonateItemRef.init?))).Yields Answers
        ({ w.1 with donateRefs := some (documents.filterMap DonateItemRef.init?) }, w.2) h₁ w' l →
      (FirestoreManager.fetchDonateRefs k).Yields Answers w h₁ w' l := by
    intro w' l h₁ k hk
    rw [FirestoreManager.fetchDonateRefs, yields_withUid_signedIn hu]
    refine yields_ask.mpr ⟨some documents, w, ⟨rfl, ?_⟩, yields_modify.mpr hk⟩
    rintro _ ⟨⟩
    exact hs
  by_cases hempty : (documents.filterMap DonateItemRef.init?).isEmpty = true
  · refine ⟨_, h, [], hsame, reports_nil _ _, fun id amount organisationId hl _ => ?_, fun w' l k hk => ?_⟩
    · have hmem : ⟨id, amount, organisationId⟩ ∈ documents.filterMap DonateItemRef.init? :=
        (mem_donateRefs hs).mpr hl
      rw [List.isEmpty_iff.mp hempty] at hmem
      cases hmem
    · refine hrefs _ _ _ _ ?_
      dsimp only
      rwa [if_pos hempty]
  · obtain ⟨h₁, organisations, hall, hknown, hy⟩ := exists_yields_fetchOrganisationsIn
      ({ w.1 with donateRefs := some (documents.filterMap DonateItemRef.init?) }, w.2) h
      ((documents.filterMap DonateItemRef.init?).map DonateItemRef.organisationId)
    refine ⟨_, h₁, _, hsame, ⟨nodup_joinDonates (nodup_donateRefs hs) organisations, fun d hd => ?_,
      fun d hd => ?_⟩, fun id amount organisationId hl ho => ?_, fun w' l k hk => ?_⟩
    · obtain ⟨ref, href, hid, hamount, ho, -⟩ := mem_joinDonates hd
      rw [hid, hamount, ho]
      exact (mem_donateRefs hs).mp href
    · obtain ⟨-, -, -, -, -, ho⟩ := mem_joinDonates hd
      exact hknown _ ho
    · have hmem : ⟨id, amount, organisationId⟩ ∈ documents.filterMap DonateItemRef.init? :=
        (mem_donateRefs hs).mpr hl
      have hid := List.mem_map_of_mem (f := DonateItemRef.organisationId) hmem
      exact exists_mem_joinDonates hmem (hall organisationId hid ho)
    · refine hrefs _ _ _ _ ?_
      dsimp only
      rw [if_neg hempty]
      exact hy _ _ _ hk

end Pledges

end Pledge
