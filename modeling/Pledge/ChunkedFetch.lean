import Pledge.Fetching
import Pledge.FirestoreSDK

/-!
# Organisations in chunks

`fetchOrganisations(ids:)` under every pattern of failing queries and every order of answers:
what it asks for, when it completes, and what it reports.
-/

namespace Pledge

open EventLoop

/-- The services answer every request but the failing ones. -/
def FailsOn (failing : Request → Prop) (w : World) (r : Request) (a : r.Response) (w' : World) : Prop :=
  Answers w r a w' ∧ (a = r.rejected ↔ failing r)

/-! ## Chunks -/

section Chunks

variable {α : Type} {xs : List α} {size : ℕ}

end Chunks

/-- The chunks of the distinct ids, as the device's set lists them. -/
def idChunks (d : Device) (ids : List String) : List (List String) := chunked (d.setOrder.1 ids) 10

section IdChunks

variable {d : Device} {ids : List String}

theorem perm_flatten_idChunks (d : Device) (ids : List String) :
    (idChunks d ids).flatten.Perm ids.dedup := by
  rw [idChunks, flatten_chunked _ (by decide)]
  exact d.setOrder.2 ids

theorem nodup_flatten_idChunks (d : Device) (ids : List String) : (idChunks d ids).flatten.Nodup :=
  (perm_flatten_idChunks d ids).nodup_iff.mpr (List.nodup_dedup ids)

theorem idChunks_of_isEmpty (h : ids.isEmpty = true) : idChunks d ids = [] := by
  obtain rfl := List.isEmpty_iff.mp h
  have hnil : d.setOrder.1 [] = [] := List.perm_nil.mp (d.setOrder.2 [])
  rw [idChunks, hnil]
  rfl

end IdChunks

/-! ## What a query returns -/

/-- The organisation that a document decodes to. -/
def Server.organisation? (s : Server) (id : String) : Option OrganisationItem :=
  (s.organisations.lookup id).bind fun data => OrganisationItem.init? ⟨id, some data⟩

/-- `addFiltersToOrganisations` on one organisation. -/
def Device.addFilter (d : Device) (organisation : OrganisationItem) : OrganisationItem :=
  match organisation.fieldId with
  | some filterId => { organisation with filterName := (d.filtersDict.lookup filterId).map FilterItem.name }
  | none => organisation

/-- The organisation as a fetch hands it on. -/
def World.organisation? (w : World) (id : String) : Option OrganisationItem :=
  (w.2.organisation? id).map w.1.addFilter

section Query

variable {s : Server} {w w' : World} {id : String} {o : OrganisationItem} {failing : Request → Prop}

theorem addFiltersToOrganisations_eq_map (d : Device) (organisations : List OrganisationItem) :
    d.addFiltersToOrganisations organisations = organisations.map d.addFilter := rfl

@[simp] theorem addFilter_id (d : Device) (o : OrganisationItem) : (d.addFilter o).id = o.id := by
  unfold Device.addFilter
  split <;> rfl

theorem id_of_organisation? (h : s.organisation? id = some o) : o.id = id := by
  obtain ⟨data, -, ho⟩ := Option.bind_eq_some_iff.mp h
  cases ho
  rfl

theorem exists_organisation?_iff : (∃ o, s.organisation? id = some o) ↔ id ∈ s.organisations := by
  rw [← AList.lookup_isSome, Server.organisation?]
  cases s.organisations.lookup id with
  | none => simp
  | some data => simp [OrganisationItem.init?]

/-- A snapshot decodes to the organisations on the server, each once. -/
theorem decoded_snapshot {documents : List (Document OrganisationDoc)}
    (hs : s.organisations.Snapshot documents) (p : Document OrganisationDoc → Bool) :
    (((documents.filter p).filterMap OrganisationItem.init?).map (·.id)).Nodup ∧
    ∀ o, o ∈ (documents.filter p).filterMap OrganisationItem.init? ↔
      s.organisation? o.id = some o ∧ p ⟨o.id, s.organisations.lookup o.id⟩ = true := by
  have hdata : ∀ d ∈ documents.filter p, d.data ≠ none :=
    fun d hd => (hs.mem_iff.mp (List.mem_of_mem_filter hd)).1
  constructor
  · rw [map_id_organisations hdata]
    exact hs.nodup.sublist (List.filter_sublist.map _)
  · intro o
    rw [List.mem_filterMap]
    constructor
    · rintro ⟨⟨id, data⟩, hd, ho⟩
      obtain ⟨hmem, hp⟩ := List.mem_filter.mp hd
      obtain ⟨hne, hl⟩ := hs.mem_iff.mp hmem
      obtain ⟨data, rfl⟩ := Option.ne_none_iff_exists'.mp hne
      have hid : id = o.id := by
        cases ho
        rfl
      subst hid
      rw [Server.organisation?, hl]
      exact ⟨ho, hp⟩
    · rintro ⟨ho, hp⟩
      obtain ⟨data, hl, ho⟩ := Option.bind_eq_some_iff.mp ho
      rw [hl] at hp
      exact ⟨_, List.mem_filter.mpr ⟨hs.mem_iff.mpr ⟨by simp, hl⟩, hp⟩, ho⟩

/-- The ids that a query asked for. -/
def Request.ids : Request → List String
  | .getOrganisationsIn ids => ids
  | _ => []

/-- What the queries for organisations bring: `found ids o` when one for `ids` brings `o`. -/
def Finds (serve : World → (r : Request) → r.Response → World → Prop) (w : World)
    (found : List String → OrganisationItem → Prop) : Prop :=
  ∀ (ids : List String) (snapshot : Option (List (Document OrganisationDoc))) (w' : World),
    serve w (.getOrganisationsIn ids) snapshot w' → w' = w ∧
    (((snapshot.getD []).filterMap OrganisationItem.init?).map (·.id)).Nodup ∧
    ∀ o, o ∈ (snapshot.getD []).filterMap OrganisationItem.init? ↔ o.id ∈ ids ∧ found ids o

/-- A snapshot of the organisations among the ids. -/
theorem decoded_getOrganisationsIn {d : Device} {ids : List String} {documents : List (Document OrganisationDoc)}
    {w' : World} (h : Answers (d, s) (.getOrganisationsIn ids) (some documents) w') :
    ((documents.filterMap OrganisationItem.init?).map (·.id)).Nodup ∧
    ∀ o, o ∈ documents.filterMap OrganisationItem.init? ↔ o.id ∈ ids ∧ s.organisation? o.id = some o := by
  obtain ⟨all, hall, rfl⟩ := h.2 documents rfl
  obtain ⟨hnodup, hmem⟩ := decoded_snapshot hall fun d => ids.contains d.documentID
  refine ⟨hnodup, fun o => ?_⟩
  rw [hmem]
  simp [and_comm]

theorem finds_failsOn : Finds (FailsOn failing) w fun ids o =>
    w.2.organisation? o.id = some o ∧ ¬ failing (.getOrganisationsIn ids) := by
  rintro ids snapshot w' ⟨hanswer, hfail⟩
  refine ⟨hanswer.1, ?_⟩
  cases snapshot with
  | none =>
    have hf : failing (.getOrganisationsIn ids) := hfail.mp rfl
    exact ⟨by simp, fun o => by simp [hf]⟩
  | some documents =>
    have hf : ¬ failing (.getOrganisationsIn ids) := fun hf => by cases hfail.mpr hf
    obtain ⟨hnodup, hmem⟩ := decoded_getOrganisationsIn hanswer
    exact ⟨hnodup, fun o => by simp [hmem, hf]⟩

/-- All the answered queries together, when no id was asked for twice. -/
theorem values_of_finds {serve : World → (r : Request) → r.Response → World → Prop}
    {found : List String → OrganisationItem → Prop}
    {answers : List (Answered (List OrganisationItem) Request.Response)} (hfinds : Finds serve w found)
    (hb : ∀ a ∈ answers, ∃ ids, a.1 = organisationsBranch ids)
    (hids : (answers.flatMap fun a => a.1.1.ids).Nodup) (hs : ServesAll serve w answers w') :
    w' = w ∧ ((answers.flatMap Answered.value).map (·.id)).Nodup ∧
    ∀ o, o ∈ answers.flatMap Answered.value ↔
      ∃ a ∈ answers, o.id ∈ a.1.1.ids ∧ found a.1.1.ids o := by
  induction hs with
  | nil w => exact ⟨rfl, by simp, by simp⟩
  | @cons w w₁ w₂ a answers ha _ ih =>
    rw [List.flatMap_cons, List.nodup_append'] at hids
    obtain ⟨⟨r, report⟩, snapshot⟩ := a
    obtain ⟨ids, he⟩ := hb _ List.mem_cons_self
    obtain ⟨rfl, hreport⟩ := Sigma.mk.inj he
    obtain rfl := eq_of_heq hreport
    obtain ⟨rfl, hnodup, hmem⟩ := hfinds ids snapshot _ ha
    obtain ⟨rfl, hnodup', hmem'⟩ := ih hfinds (fun b hb' => hb b (List.mem_cons_of_mem _ hb')) hids.2.1
    refine ⟨rfl, ?_, fun o => ?_⟩
    · rw [List.flatMap_cons, List.map_append, List.nodup_append']
      refine ⟨hnodup, hnodup', ?_⟩
      intro id hid hid'
      obtain ⟨o, ho, rfl⟩ := List.mem_map.mp hid
      obtain ⟨o', ho', hsame⟩ := List.mem_map.mp hid'
      obtain ⟨b, hb', hidb, -⟩ := (hmem' o').mp ho'
      have hido : o.id ∈ ids := ((hmem o).mp ho).1
      exact hids.2.2 hido (List.mem_flatMap.mpr ⟨b, hb', hsame ▸ hidb⟩)
    · rw [List.flatMap_cons, List.mem_append]
      constructor
      · rintro (ho | ho)
        · obtain ⟨hid, hf⟩ := (hmem o).mp ho
          exact ⟨_, List.mem_cons_self, hid, hf⟩
        · obtain ⟨b, hb', hid, hf⟩ := (hmem' o).mp ho
          exact ⟨b, List.mem_cons_of_mem _ hb', hid, hf⟩
      · rintro ⟨b, hb', hid, hf⟩
        rcases List.mem_cons.mp hb' with rfl | hb'
        · exact .inl ((hmem o).mpr ⟨hid, hf⟩)
        · exact .inr ((hmem' o).mpr ⟨b, hb', hid, hf⟩)

end Query

/-! ## What the fetch reports -/

/-- What the queries for the ids have brought, each organisation once. -/
structure FetchedBy (d : Device) (found : List String → OrganisationItem → Prop) (ids : List String)
    (organisations : List OrganisationItem) : Prop where
  nodup : (organisations.map (·.id)).Nodup
  mem_iff : ∀ o, o ∈ organisations ↔ ∃ item, d.addFilter item = o ∧
    ∃ chunk ∈ idChunks d ids, item.id ∈ chunk ∧ found chunk item

/-- The organisations of the ids whose chunk was answered, each once. -/
structure Fetched (w : World) (failing : Request → Prop) (ids : List String)
    (organisations : List OrganisationItem) : Prop where
  nodup : (organisations.map (·.id)).Nodup
  mem_iff : ∀ o, o ∈ organisations ↔ w.organisation? o.id = some o ∧
    ∃ chunk ∈ idChunks w.1 ids, o.id ∈ chunk ∧ ¬ failing (.getOrganisationsIn chunk)

section Fetch

variable {w w' : World} {h : List Frame} {l : List Effect} {ids : List String} {d : Device}
  {failing : Request → Prop} {found : List String → OrganisationItem → Prop}
  {organisations organisations' : List OrganisationItem} {k : List OrganisationItem → Prog}
  {serve : World → (r : Request) → r.Response → World → Prop}

theorem fetchedBy_of_isEmpty (hids : ids.isEmpty = true) : FetchedBy d found ids [] := by
  refine ⟨by simp, fun o => ?_⟩
  simp [idChunks_of_isEmpty hids]

theorem fetched_of_fetchedBy (h : FetchedBy w.1 (fun ids o => w.2.organisation? o.id = some o ∧
    ¬ failing (.getOrganisationsIn ids)) ids organisations) : Fetched w failing ids organisations := by
  refine ⟨h.nodup, fun o => ?_⟩
  rw [h.mem_iff, World.organisation?]
  constructor
  · rintro ⟨item, rfl, chunk, hchunk, hid, hitem, hf⟩
    simp only [addFilter_id]
    exact ⟨by rw [hitem]; rfl, chunk, hchunk, hid, hf⟩
  · rintro ⟨ho, chunk, hchunk, hid, hf⟩
    obtain ⟨item, hitem, he⟩ := Option.map_eq_some_iff.mp ho
    have hsame : item.id = o.id := id_of_organisation? hitem
    exact ⟨item, he, chunk, hchunk, hsame ▸ hid, hsame ▸ hitem, hf⟩

theorem fetchedBy_of_answers {answers : List (Answered (List OrganisationItem) Request.Response)}
    (hfinds : Finds serve w found)
    (hperm : (answers.map Sigma.fst).Perm ((idChunks w.1 ids).map organisationsBranch))
    (hs : ServesAll serve w answers w') : w' = w ∧
      FetchedBy w.1 found ids (w.1.addFiltersToOrganisations (answers.flatMap Answered.value)) := by
  have hchunks : (answers.map fun a => a.1.1.ids).Perm (idChunks w.1 ids) := by
    have hmap := hperm.map fun b => b.1.ids
    rw [List.map_map, List.map_map] at hmap
    simpa [Function.comp_def, organisationsBranch, Request.ids] using hmap
  have hbranch : ∀ a ∈ answers, ∃ chunk, a.1 = organisationsBranch chunk := by
    intro a ha
    obtain ⟨chunk, -, he⟩ := List.mem_map.mp (hperm.subset (List.mem_map_of_mem ha))
    exact ⟨chunk, he.symm⟩
  have hnodup : (answers.flatMap fun a => a.1.1.ids).Nodup := by
    rw [List.flatMap_def]
    exact hchunks.flatten.nodup_iff.mpr (nodup_flatten_idChunks w.1 ids)
  obtain ⟨rfl, hvalues, hmem⟩ := values_of_finds hfinds hbranch hnodup hs
  refine ⟨rfl, ?_, fun o => ?_⟩
  · rw [map_id_addFiltersToOrganisations]
    exact hvalues
  · rw [addFiltersToOrganisations_eq_map, List.mem_map]
    constructor
    · rintro ⟨item, hitem, rfl⟩
      obtain ⟨a, ha, hid, hf⟩ := (hmem item).mp hitem
      exact ⟨item, rfl, _, hchunks.subset (List.mem_map_of_mem ha), hid, hf⟩
    · rintro ⟨item, rfl, chunk, hchunk, hid, hf⟩
      obtain ⟨a, ha, rfl⟩ := List.mem_map.mp (hchunks.symm.subset hchunk)
      exact ⟨item, (hmem item).mpr ⟨a, ha, hid, hf⟩, rfl⟩

/-- A fetch that is over has been answered for every chunk, and has completed on the result. -/
theorem fetchedBy_of_yields (hfinds : Finds serve w found)
    (hy : (FirestoreManager.fetchOrganisationsIn ids k).Yields serve w h w' l) :
    ∃ h₁ organisations, FetchedBy w.1 found ids organisations ∧
      (k organisations).Yields serve w h₁ w' l := by
  rw [FirestoreManager.fetchOrganisationsIn] at hy
  split at hy
  · rename_i hids
    exact ⟨h, [], fetchedBy_of_isEmpty hids, hy⟩
  · rename_i hids
    obtain ⟨answers, w₂, v, hperm, hserve, rfl, hk⟩ :=
      (yields_fanOut Frame.queryCount (fun _ _ => rfl) (fun _ => rfl) (Nat.zero_add _)
        (chunked_setOrder_ne_nil _ hids)).mp (yields_read.mp hy)
    obtain ⟨rfl, hfetched⟩ := fetchedBy_of_answers hfinds hperm hserve
    rw [yields_read, result_collectAll, List.nil_append] at hk
    exact ⟨_, _, hfetched, hk⟩

theorem fetched_of_yields
    (hy : (FirestoreManager.fetchOrganisationsIn ids k).Yields (FailsOn failing) w h w' l) :
    ∃ h₁ organisations, Fetched w failing ids organisations ∧
      (k organisations).Yields (FailsOn failing) w h₁ w' l := by
  obtain ⟨h₁, organisations, hfetched, hk⟩ := fetchedBy_of_yields finds_failsOn hy
  exact ⟨h₁, organisations, fetched_of_fetchedBy hfetched, hk⟩

/-- Each query can be answered or fail, as the pattern has it. -/
theorem exists_failsOn (failing : Request → Prop) (w : World) (ids : List String) :
    ∃ a w', FailsOn failing w (.getOrganisationsIn ids) a w' := by
  by_cases hf : failing (.getOrganisationsIn ids)
  · exact ⟨none, w, answers_rejected w _, by simp [hf, Request.rejected]⟩
  · refine ⟨(completeAnswer w.2 ids).2, w, ⟨rfl, fun l hl => ?_⟩, by
      simp [hf, Request.rejected, completeAnswer]⟩
    exact ⟨_, Collection.exists_snapshot w.2.organisations, (Option.some.inj hl).symm⟩

/-- When the queries can be answered the fetch can end, and it then completes on the result. -/
theorem exists_fetchedBy (h : List Frame) (ids : List String) (hfinds : Finds serve w found)
    (htotal : ∀ w chunk, ∃ a w', serve w (.getOrganisationsIn chunk) a w') :
    ∃ h₁ organisations, FetchedBy w.1 found ids organisations ∧
      ∀ w' l (k : List OrganisationItem → Prog), (k organisations).Yields serve w h₁ w' l →
        (FirestoreManager.fetchOrganisationsIn ids k).Yields serve w h w' l := by
  by_cases hids : ids.isEmpty = true
  · refine ⟨h, [], fetchedBy_of_isEmpty hids, fun w' l k hk => ?_⟩
    rwa [FirestoreManager.fetchOrganisationsIn, if_pos hids]
  · have hanswered : ∀ (w : World) r, (∃ chunk, r = .getOrganisationsIn chunk) →
        ∃ a w', serve w r a w' := by
      rintro w _ ⟨chunk, rfl⟩
      exact htotal w chunk
    obtain ⟨answers, w₂, hanswers, hserve⟩ := exists_servesAll hanswered
      ((idChunks w.1 ids).map organisationsBranch)
      (fun b hb => by obtain ⟨chunk, -, rfl⟩ := List.mem_map.mp hb; exact ⟨chunk, rfl⟩) w
    have hperm : (answers.map Sigma.fst).Perm ((idChunks w.1 ids).map organisationsBranch) := by
      rw [hanswers]
    obtain ⟨rfl, hfetched⟩ := fetchedBy_of_answers hfinds hperm hserve
    refine ⟨h ++ [collectAll (fun (frame : Frame) organisations =>
        { frame with queryCount := frame.queryCount + 1, result := frame.result ++ organisations })
        {} answers], _, hfetched, fun w' l k hk => ?_⟩
    rw [FirestoreManager.fetchOrganisationsIn, if_neg hids]
    refine yields_read.mpr ((yields_fanOut Frame.queryCount (fun _ _ => rfl) (fun _ => rfl)
      (Nat.zero_add _) (chunked_setOrder_ne_nil _ hids)).mpr ⟨answers, _, _, hperm, hserve, rfl, ?_⟩)
    rw [yields_read, result_collectAll, List.nil_append]
    exact hk

theorem exists_fetched (w : World) (h : List Frame) (ids : List String) (failing : Request → Prop) :
    ∃ h₁ organisations, Fetched w failing ids organisations ∧
      ∀ w' l (k : List OrganisationItem → Prog), (k organisations).Yields (FailsOn failing) w h₁ w' l →
        (FirestoreManager.fetchOrganisationsIn ids k).Yields (FailsOn failing) w h w' l := by
  obtain ⟨h₁, organisations, hfetched, hk⟩ :=
    exists_fetchedBy h ids finds_failsOn (exists_failsOn failing)
  exact ⟨h₁, organisations, fetched_of_fetchedBy hfetched, hk⟩

end Fetch

/-! ## Ids that the SDK refuses -/

section Raises

variable {w : World} {h : List Frame} {ids : List String} {id : String}
  {k : List OrganisationItem → Prog} {serve : World → (r : Request) → r.Response → World → Prop}

theorem raises_chunk_iff {d : Device} {chunk : List String} (hchunk : chunk ∈ idChunks d ids) :
    (Request.getOrganisationsIn chunk).raises = true ↔ ∃ id ∈ chunk, isDocumentID id = false := by
  have hchunking : Chunking (d.setOrder.1 ids) 10 (idChunks d ids) := chunking_chunked _ (by decide)
  have hne := hchunking.ne_nil chunk hchunk
  have hle := hchunking.length_le chunk hchunk
  simp [Request.raises, hne, hle]

theorem mem_idChunks_iff {d : Device} : (∃ chunk ∈ idChunks d ids, id ∈ chunk) ↔ id ∈ ids := by
  rw [← List.mem_flatten, (perm_flatten_idChunks d ids).mem_iff, List.mem_dedup]

/-- With ids of documents the SDK lets the fetch run. -/
theorem running_fetchOrganisationsIn (hids : ∀ id ∈ ids, isDocumentID id = true) :
    running (FirestoreManager.fetchOrganisationsIn ids k) =
      FirestoreManager.fetchOrganisationsIn ids fun organisations => running (k organisations) := by
  unfold FirestoreManager.fetchOrganisationsIn
  split
  · rfl
  · show Program.read _ = Program.read _
    congr
    funext d
    have hraises : ∀ chunk ∈ chunked (d.setOrder.1 ids) 10,
        (Request.getOrganisationsIn chunk).raises = false := by
      intro chunk hchunk
      refine Bool.eq_false_iff.mpr fun hr => ?_
      obtain ⟨id, hid, hno⟩ := (raises_chunk_iff hchunk).mp hr
      simp [hids id (mem_idChunks_iff.mp ⟨chunk, hchunk, hid⟩)] at hno
    rw [upTo_fanOut, takeWhile_of_not_raises hraises]
    rfl

/-- With any other id among them the completion is never called. -/
theorem runs_fetchOrganisationsIn_of_raises (hid : id ∈ ids) (hno : isDocumentID id = false)
    {d : Loop} {o : List Effect}
    (hd : Runs serve ((running (FirestoreManager.fetchOrganisationsIn ids k)).exec ⟨w, h, [], o⟩) d) :
    d.out = o := by
  have hne : ¬ ids.isEmpty = true := by
    intro hempty
    rw [List.isEmpty_iff.mp hempty] at hid
    cases hid
  obtain ⟨chunk, hchunk, hmem⟩ := mem_idChunks_iff.mpr hid
  unfold FirestoreManager.fetchOrganisationsIn at hd
  rw [if_neg hne] at hd
  exact runs_fanOut_of_raises Frame.queryCount (fun _ _ => rfl) (fun _ => rfl) (Nat.zero_add _) hchunk
    ((raises_chunk_iff hchunk).mpr ⟨id, hmem, hno⟩) hd

end Raises

/-! ## Every run of the fetch -/

section Runs

variable {w : World} {ids : List String} {source : Request → Source} {kept : Server} {d : Loop}

end Runs

end Pledge
