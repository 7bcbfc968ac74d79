import Pledge.Browsing
import Pledge.ChunkedFetch

/-!
# The category names of fetched organisations

The three fetches of organisations take the names of the filters from one dictionary, which only
two of them fill first.
-/

namespace Pledge

open EventLoop

/-- The fetches of organisations. -/
inductive OrganisationFetch
  | all
  | byCause (causeId : String)
  | byIds (ids : List String)
deriving DecidableEq, Repr

/-- The completion that a fetch is given. -/
def showFetched : Option (List OrganisationItem) → Prog
  | none => .emit .networkErrorAlert .stop
  | some organisations => .emit (.showPrevSupported organisations) .stop

namespace OrganisationFetch

def call : OrganisationFetch → Prog
  | all => FirestoreManager.fetchOrganisations fun result _ => showFetched result
  | byCause causeId => FirestoreManager.fetchOrganisationsByCause causeId showFetched
  | byIds ids => FirestoreManager.fetchOrganisationsIn ids fun result => showFetched (some result)

/-- The fetch has the filters loaded where none are cached. -/
def loadsFilters : OrganisationFetch → Bool
  | all | byCause _ => true
  | byIds _ => false

/-- The organisation is one that the fetch asks for. -/
def Asks (s : Server) (id : String) : OrganisationFetch → Prop
  | all => id ∈ s.organisations
  | byCause causeId => s.InCause causeId id
  | byIds ids => id ∈ s.organisations ∧ id ∈ ids

end OrganisationFetch

/-- The filter that a document decodes to. -/
def Server.filter? (s : Server) (id : String) : Option FilterItem :=
  (s.filters.lookup id).bind fun data => FilterItem.init? ⟨id, some data⟩

/-- No request fails. -/
abbrev Succeed : World → (r : Request) → r.Response → World → Prop := FailsOn fun _ => False

/-- The name is that of a known filter whose id is the field, and missing only without one. -/
def Named (known : FilterItem → Prop) (o : OrganisationItem) : Prop :=
  match o.fieldId with
  | none => o.filterName = none
  | some fieldId =>
    (∃ filter, known filter ∧ filter.id = fieldId ∧ o.filterName = some filter.name) ∨
      (o.filterName = none ∧ ∀ filter, known filter → filter.id ≠ fieldId)

/-! ## The cache and its dictionary -/

/-- `filtersDict` is what `didSet` makes of `filters`. -/
def Device.Kept (d : Device) : Prop := d.filtersDict = (d.setFilters d.filters).filtersDict

section Cache

variable {d : Device} {cache filters : List FilterItem} {o : OrganisationItem}
  {known known' : FilterItem → Prop} {w w' : World} {h : List Frame} {l : List Effect}

theorem Named.congr (hn : Named known o) (hk : ∀ filter, known filter ↔ known' filter) : Named known' o := by
  have hsame : known = known' := funext fun filter => propext (hk filter)
  rwa [← hsame]

/-- An organisation takes its name from the filters that are set. -/
theorem named_addFilter (d : Device) (filters : List FilterItem) (ho : o.filterName = none) :
    Named (· ∈ filters) ((d.setFilters filters).addFilter o) := by
  cases hfield : o.fieldId with
  | none =>
    have hsame : (d.setFilters filters).addFilter o = o := by
      unfold Device.addFilter
      rw [hfield]
    rw [hsame, Named, hfield]
    exact ho
  | some fieldId =>
    have hadd : (d.setFilters filters).addFilter o = { o with
        filterName := ((d.setFilters filters).filtersDict.lookup fieldId).map FilterItem.name } := by
      unfold Device.addFilter
      rw [hfield]
    rw [hadd, Named]
    dsimp only
    rw [hfield]
    dsimp only
    cases hl : (d.setFilters filters).filtersDict.lookup fieldId with
    | some filter =>
      rcases lookup_dict hl with ⟨hmem, hid⟩ | hnone
      · exact .inl ⟨filter, hmem, hid, rfl⟩
      · cases hnone
    | none =>
      refine .inr ⟨rfl, fun filter hmem hid => ?_⟩
      have hkey : fieldId ∈ filters.map FilterItem.id := List.mem_map.mpr ⟨filter, hmem, hid⟩
      have hdict : fieldId ∈ (d.setFilters filters).filtersDict := mem_dict (.inl hkey)
      rw [← AList.lookup_isSome, hl] at hdict
      cases hdict

theorem kept_setFilters (d : Device) (filters : List FilterItem) : (d.setFilters filters).Kept := rfl

/-- What every fetch leaves of the cache. -/
def keeping : Footprint Device Effect Request where
  asks := Request.Reads
  modifies f := ∀ d : Device, d.Kept → (f d).Kept
  emits := fun _ => True

theorem keeping_fetchFilters {usingCache : Bool} {k : Option (List FilterItem) → Prog}
    (hk : ∀ r, (k r).Within keeping) : (FirestoreManager.fetchFilters usingCache k).Within keeping := by
  intro d
  dsimp only
  split
  · exact hk _
  · refine within_ask.mpr ⟨trivial, fun snapshot => ?_⟩
    cases snapshot with
    | none => exact hk _
    | some documents =>
      dsimp only
      split
      · exact ⟨fun d _ => kept_setFilters d _, hk _⟩
      · exact hk _

theorem keeping_showFetched (r : Option (List OrganisationItem)) : (showFetched r).Within keeping := by
  cases r <;> exact ⟨trivial, trivial⟩

theorem keeping_organisationsCallback {k : Option (List OrganisationItem) → Prog}
    (hk : ∀ r, (k r).Within keeping) (snapshot : Option (List (Document OrganisationDoc))) :
    (FirestoreManager.organisationsCallback k snapshot).Within keeping := by
  unfold FirestoreManager.organisationsCallback
  cases snapshot with
  | none => exact hk _
  | some documents =>
    dsimp only
    split
    · exact keeping_fetchFilters fun _ d => hk _
    · exact trivial

theorem keeping_call (fetch : OrganisationFetch) : fetch.call.Within keeping := by
  cases fetch with
  | all =>
    exact within_ask.mpr ⟨trivial, fun snapshot =>
      keeping_organisationsCallback (fun r => keeping_showFetched r) snapshot⟩
  | byCause causeId =>
    exact within_ask.mpr ⟨trivial, fun snapshot =>
      keeping_organisationsCallback keeping_showFetched snapshot⟩
  | byIds ids =>
    unfold OrganisationFetch.call FirestoreManager.fetchOrganisationsIn
    dsimp only
    split
    · exact keeping_showFetched _
    · exact fun d => within_fanOut (fun _ _ => trivial) fun frame d => keeping_showFetched _

/-- One fetch after the other, whatever they are answered. -/
def FetchStep (w : World) (fetch : OrganisationFetch) (w' : World) : Prop :=
  ∃ l, fetch.call.Yields Answers w [] w' l

theorem respects_kept : Respects keeping Answers fun w w' : World => w.1.Kept → w'.1.Kept where
  refl _ := id
  trans _ _ _ h h' := h' ∘ h
  modify s f hf := hf s.1
  answer s r a s' hr ha := by
    rw [answers_reads hr ha]
    exact id

/-- Over all sequences of fetches the dictionary is the one of the cached filters. -/
theorem kept_of_fetches {Ok : World → OrganisationFetch → Prop} (h : History FetchStep Ok w w')
    (hw : w.1.Kept) : w'.1.Kept := by
  refine h.invariant (I := fun w => w.1.Kept) ?_ hw
  rintro w fetch w' hkept - ⟨l, hy⟩
  exact (within_yields respects_kept (keeping_call fetch) hy).1 hkept

end Cache

/-! ## A fetch in which no request fails -/

/-- The filters whose names a fetch takes when it first sees to it that some are cached. -/
def Loaded (s : Server) (cache filters : List FilterItem) : Prop :=
  if cache.isEmpty then
    ∃ documents, s.filters.Snapshot documents ∧ filters = documents.filterMap FilterItem.init?
  else filters = cache

/-- The filters whose names a fetch takes. -/
def OrganisationFetch.Uses (s : Server) (cache filters : List FilterItem) (fetch : OrganisationFetch) :
    Prop :=
  if fetch.loadsFilters then Loaded s cache filters else filters = cache

/-- The organisations that a fetch asks for, named by `filters`. -/
def OrganisationFetch.Returns (d : Device) (s : Server) (filters : List FilterItem)
    (fetch : OrganisationFetch) (organisations : List OrganisationItem) : Prop :=
  ∀ o, o ∈ organisations ↔ ∃ item, s.organisation? item.id = some item ∧ fetch.Asks s item.id ∧
    o = (d.setFilters filters).addFilter item

section Succeed

variable {d : Device} {s : Server} {cache filters : List FilterItem} {fetch : OrganisationFetch}
  {w w' : World} {h : List Frame} {l : List Effect} {organisations : List OrganisationItem}
  {known : FilterItem → Prop} {o : OrganisationItem} {id : String}

theorem yields_fetchFilters_succeed {k : Option (List FilterItem) → Prog} :
    (FirestoreManager.fetchFilters true k).Yields Succeed (d.setFilters cache, s) h w' l ↔
      ∃ filters, Loaded s cache filters ∧
        (k (some filters)).Yields Succeed (d.setFilters filters, s) h w' l := by
  unfold FirestoreManager.fetchFilters Loaded
  rw [yields_read]
  cases hcache : cache.isEmpty with
  | false =>
    have hfilters : (true && !(d.setFilters cache).filters.isEmpty) = true := by
      show (true && !cache.isEmpty) = true
      rw [hcache]
      rfl
    rw [if_pos hfilters]
    constructor
    · intro hk
      exact ⟨cache, rfl, hk⟩
    · rintro ⟨_, rfl, hk⟩
      exact hk
  | true =>
    obtain rfl := List.isEmpty_iff.mp hcache
    have hfilters : ¬ (true && !(d.setFilters []).filters.isEmpty) = true := by
      show ¬ (true && !([] : List FilterItem).isEmpty) = true
      simp
    rw [if_neg hfilters, yields_ask]
    have hset : ∀ documents : List (Document FilterDoc),
        (if (!(documents.filterMap FilterItem.init?).isEmpty) = true then
          Program.modify (·.setFilters (documents.filterMap FilterItem.init?))
            (k (some (documents.filterMap FilterItem.init?)))
        else k (some (documents.filterMap FilterItem.init?))).Yields Succeed (d.setFilters [], s) h w' l ↔
        (k (some (documents.filterMap FilterItem.init?))).Yields Succeed
          (d.setFilters (documents.filterMap FilterItem.init?), s) h w' l := by
      intro documents
      cases hresult : documents.filterMap FilterItem.init? with
      | nil => exact .rfl
      | cons filter rest => exact .rfl
    constructor
    · rintro ⟨snapshot, w₁, ⟨⟨rfl, hsnap⟩, hfail⟩, hk⟩
      cases snapshot with
      | none => exact (hfail.mp rfl).elim
      | some documents => exact ⟨_, ⟨documents, hsnap _ rfl, rfl⟩, (hset documents).mp hk⟩
    · rintro ⟨_, ⟨documents, hsnap, rfl⟩, hk⟩
      refine ⟨some documents, _, ⟨⟨rfl, fun l hl => ?_⟩, by simp [Request.rejected]⟩, (hset documents).mpr hk⟩
      exact Option.some.inj hl ▸ hsnap

/-- The callback of the fetches that load the filters; it completes unless nothing was found. -/
theorem yields_organisationsCallback {k : Option (List OrganisationItem) → Prog}
    {documents : List (Document OrganisationDoc)} :
    (FirestoreManager.organisationsCallback k (some documents)).Yields Succeed (d.setFilters cache, s) h w' l ↔
      if (documents.filterMap OrganisationItem.init?).isEmpty then w' = (d.setFilters cache, s) ∧ l = []
      else ∃ filters, Loaded s cache filters ∧
        (k (some ((d.setFilters filters).addFiltersToOrganisations
          (documents.filterMap OrganisationItem.init?)))).Yields Succeed (d.setFilters filters, s) h w' l := by
  unfold FirestoreManager.organisationsCallback
  dsimp only
  cases hresult : documents.filterMap OrganisationItem.init? with
  | nil => exact yields_stop
  | cons o rest =>
    rw [if_pos (by rfl), if_neg (by simp)]
    exact yields_fetchFilters_succeed

theorem returns_map {documents : List (Document OrganisationDoc)} {p : Document OrganisationDoc → Bool}
    (hs : s.organisations.Snapshot documents)
    (hasks : ∀ id, fetch.Asks s id ↔ id ∈ s.organisations ∧ p ⟨id, s.organisations.lookup id⟩ = true) :
    fetch.Returns d s filters ((d.setFilters filters).addFiltersToOrganisations
      ((documents.filter p).filterMap OrganisationItem.init?)) := by
  intro o
  rw [addFiltersToOrganisations_eq_map, List.mem_map]
  constructor
  · rintro ⟨item, hitem, rfl⟩
    obtain ⟨hdecoded, hp⟩ := ((decoded_snapshot hs p).2 item).mp hitem
    exact ⟨item, hdecoded, (hasks _).mpr ⟨exists_organisation?_iff.mp ⟨item, hdecoded⟩, hp⟩, rfl⟩
  · rintro ⟨item, hdecoded, hask, rfl⟩
    exact ⟨item, ((decoded_snapshot hs p).2 item).mpr ⟨hdecoded, ((hasks _).mp hask).2⟩, rfl⟩

theorem asks_all (id : String) : OrganisationFetch.all.Asks s id ↔
    id ∈ s.organisations ∧ (fun _ : Document OrganisationDoc => true) ⟨id, s.organisations.lookup id⟩ = true := by
  simp [OrganisationFetch.Asks]

theorem asks_byCause (causeId id : String) : (OrganisationFetch.byCause causeId).Asks s id ↔
    id ∈ s.organisations ∧ (fun d : Document OrganisationDoc =>
      (d.data.map OrganisationDoc.causes).getD [] |>.contains causeId) ⟨id, s.organisations.lookup id⟩ = true := by
  unfold OrganisationFetch.Asks Server.InCause
  rw [← AList.lookup_isSome]
  cases s.organisations.lookup id with
  | none => simp
  | some data => simp

theorem returns_byIds {ids : List String}
    (hf : Fetched (d.setFilters cache, s) (fun _ => False) ids organisations) :
    (OrganisationFetch.byIds ids).Returns d s cache organisations := by
  intro o
  rw [hf.mem_iff]
  constructor
  · rintro ⟨ho, chunk, hchunk, hid, -⟩
    obtain ⟨item, hdecoded, rfl⟩ := Option.map_eq_some_iff.mp ho
    have hitem := id_of_organisation? hdecoded
    rw [← hitem] at hdecoded
    have hasked : item.id ∈ ids := by
      rw [hitem]
      exact (mem_flatten_chunked d.setOrder).mp (List.mem_flatten.mpr ⟨chunk, hchunk, hid⟩)
    exact ⟨item, hdecoded, ⟨exists_organisation?_iff.mp ⟨item, hdecoded⟩, hasked⟩, rfl⟩
  · rintro ⟨item, hdecoded, ⟨-, hasked⟩, rfl⟩
    obtain ⟨chunk, hchunk, hid⟩ :=
      List.mem_flatten.mp ((mem_flatten_chunked (d.setFilters cache).setOrder).mpr hasked)
    rw [addFilter_id]
    exact ⟨Option.map_eq_some_iff.mpr ⟨item, hdecoded, rfl⟩, chunk, hchunk, hid, not_false⟩

/-- What a fetch has shown when it is over. -/
theorem returns_of_yields (hy : fetch.call.Yields Succeed (d.setFilters cache, s) [] w' l) :
    l = [] ∨ ∃ filters organisations, fetch.Uses s cache filters ∧
      l = [.showPrevSupported organisations] ∧ fetch.Returns d s filters organisations := by
  have hcallback : ∀ {k : Option (List OrganisationItem) → Prog} {documents : List (Document OrganisationDoc)}
      {p : Document OrganisationDoc → Bool}, (∀ os, k (some os) = showFetched (some os)) →
      s.organisations.Snapshot documents → fetch.loadsFilters = true →
      (∀ id, fetch.Asks s id ↔ id ∈ s.organisations ∧ p ⟨id, s.organisations.lookup id⟩ = true) →
      (FirestoreManager.organisationsCallback k (some (documents.filter p))).Yields Succeed
        (d.setFilters cache, s) [] w' l →
      l = [] ∨ ∃ filters organisations, fetch.Uses s cache filters ∧
        l = [.showPrevSupported organisations] ∧ fetch.Returns d s filters organisations := by
    intro k documents p hk hs hloads hasks hy
    have hend := yields_organisationsCallback.mp hy
    split at hend
    · exact .inl hend.2
    · obtain ⟨filters, hloaded, hk'⟩ := hend
      rw [hk] at hk'
      obtain ⟨-, rfl⟩ := yields_emit_stop.mp hk'
      have huses : fetch.Uses s cache filters := by
        rwa [OrganisationFetch.Uses, if_pos hloads]
      exact .inr ⟨filters, _, huses, rfl, returns_map hs hasks⟩
  cases fetch with
  | all =>
    obtain ⟨snapshot, w₁, ⟨⟨rfl, hsnap⟩, hfail⟩, hk⟩ := yields_ask.mp hy
    cases snapshot with
    | none => exact (hfail.mp rfl).elim
    | some documents =>
      rw [← List.filter_true documents] at hk
      exact hcallback (fun _ => rfl) (hsnap documents rfl) rfl asks_all hk
  | byCause causeId =>
    obtain ⟨snapshot, w₁, ⟨⟨rfl, hsnap⟩, hfail⟩, hk⟩ := yields_ask.mp hy
    cases snapshot with
    | none => exact (hfail.mp rfl).elim
    | some documents =>
      obtain ⟨documents, hs, rfl⟩ := hsnap _ rfl
      exact hcallback (fun _ => rfl) hs rfl (asks_byCause causeId) hk
  | byIds ids =>
    have hfetch : (FirestoreManager.fetchOrganisationsIn ids fun result =>
        showFetched (some result)).Yields (FailsOn fun _ => False) (d.setFilters cache, s) [] w' l := hy
    obtain ⟨h₁, organisations, hfetched, hk⟩ := fetched_of_yields hfetch
    obtain ⟨-, rfl⟩ := yields_emit_stop.mp hk
    exact .inr ⟨cache, organisations, rfl, rfl, returns_byIds hfetched⟩

theorem exists_loaded (s : Server) (cache : List FilterItem) : ∃ filters, Loaded s cache filters := by
  unfold Loaded
  split
  · exact ⟨_, _, Collection.exists_snapshot s.filters, rfl⟩
  · exact ⟨cache, rfl⟩

/-- A fetch that finds something may show it. -/
theorem exists_yields_call (d : Device) (cache : List FilterItem) (hask : fetch.Asks s id) :
    ∃ w' filters organisations, fetch.Uses s cache filters ∧
      fetch.call.Yields Succeed (d.setFilters cache, s) [] w' [.showPrevSupported organisations] ∧
      fetch.Returns d s filters organisations := by
  obtain ⟨filters, hloaded⟩ := exists_loaded s cache
  have hs := Collection.exists_snapshot s.organisations
  generalize s.organisations.entries.map (fun e => (⟨e.1, some e.2⟩ : Document OrganisationDoc)) =
    documents at hs
  have hcallback : ∀ {k : Option (List OrganisationItem) → Prog} {p : Document OrganisationDoc → Bool},
      (∀ os, k (some os) = showFetched (some os)) →
      (∀ id, fetch.Asks s id ↔ id ∈ s.organisations ∧ p ⟨id, s.organisations.lookup id⟩ = true) →
      (FirestoreManager.organisationsCallback k (some (documents.filter p))).Yields Succeed
        (d.setFilters cache, s) [] (d.setFilters filters, s) [.showPrevSupported
          ((d.setFilters filters).addFiltersToOrganisations
            ((documents.filter p).filterMap OrganisationItem.init?))] := by
    intro k p hk hasks
    obtain ⟨hexists, hp⟩ := (hasks id).mp hask
    obtain ⟨o, ho⟩ := exists_organisation?_iff.mpr hexists
    have hid := id_of_organisation? ho
    have hmem : o ∈ (documents.filter p).filterMap OrganisationItem.init? :=
      ((decoded_snapshot hs p).2 o).mpr ⟨hid.symm ▸ ho, hid.symm ▸ hp⟩
    have hne : ¬ ((documents.filter p).filterMap OrganisationItem.init?).isEmpty = true := by
      intro hempty
      rw [List.isEmpty_iff.mp hempty] at hmem
      cases hmem
    refine yields_organisationsCallback.mpr ?_
    rw [if_neg hne]
    refine ⟨filters, hloaded, ?_⟩
    rw [hk]
    exact yields_emit_stop.mpr ⟨rfl, rfl⟩
  cases fetch with
  | all =>
    refine ⟨_, filters, _, hloaded, yields_ask.mpr ⟨some (documents.filter fun _ => true), _,
      ⟨⟨rfl, fun l hl => ?_⟩, by simp [Request.rejected]⟩, hcallback (fun _ => rfl) asks_all⟩,
      returns_map hs asks_all⟩
    rw [← Option.some.inj hl, List.filter_true]
    exact hs
  | byCause causeId =>
    refine ⟨_, filters, _, hloaded, yields_ask.mpr ⟨some _, _,
      ⟨⟨rfl, fun l hl => ⟨documents, hs, (Option.some.inj hl).symm⟩⟩, by simp [Request.rejected]⟩,
      hcallback (fun _ => rfl) (asks_byCause causeId)⟩, returns_map hs (asks_byCause causeId)⟩
  | byIds ids =>
    obtain ⟨h₁, organisations, hfetched, hfetch⟩ :=
      exists_fetched (d.setFilters cache, s) [] ids fun _ => False
    have hy := hfetch _ _ (fun result => showFetched (some result)) (yields_emit_stop.mpr ⟨rfl, rfl⟩)
    exact ⟨_, cache, organisations, rfl, hy,
      returns_byIds hfetched⟩

/-! ## Which names are there -/

/-- The filters whose names the fetch takes. -/
def OrganisationFetch.Takes (s : Server) (cache : List FilterItem) (fetch : OrganisationFetch)
    (filter : FilterItem) : Prop :=
  if fetch.loadsFilters && cache.isEmpty then s.filter? filter.id = some filter else filter ∈ cache

/-- The cached filters, or those of the server where none are cached. -/
def KnownFilter (s : Server) (cache : List FilterItem) (filter : FilterItem) : Prop :=
  if cache.isEmpty then s.filter? filter.id = some filter else filter ∈ cache

/-- The cached filters, and those of the server as well. -/
def CachedOrStored (s : Server) (cache : List FilterItem) (filter : FilterItem) : Prop :=
  filter ∈ cache ∨ s.filter? filter.id = some filter

/-- Whatever the fetch shows is named. -/
def NamesAll (known : FilterItem → Prop) (d : Device) (s : Server) (cache : List FilterItem)
    (fetch : OrganisationFetch) : Prop :=
  ∀ e : Loop, Settles Succeed (fetch.call.exec (.fresh _ (d.setFilters cache, s))) e →
    ∀ organisations, .showPrevSupported organisations ∈ e.out → ∀ o ∈ organisations, Named known o

/-- Where an organisation that is asked for is in the field of a filter of the server, a filter of
that id is cached. -/
def FieldsCached (s : Server) (cache : List FilterItem) (fetch : OrganisationFetch) : Prop :=
  ∀ item filter, s.organisation? item.id = some item → fetch.Asks s item.id →
    s.filter? filter.id = some filter → item.fieldId = some filter.id → filter.id ∈ cache.map (·.id)

theorem mem_decoded_filters {documents : List (Document FilterDoc)} (hs : s.filters.Snapshot documents)
    {filter : FilterItem} :
    filter ∈ documents.filterMap FilterItem.init? ↔ s.filter? filter.id = some filter := by
  rw [List.mem_filterMap]
  constructor
  · rintro ⟨⟨id, data⟩, hd, hf⟩
    obtain ⟨hne, hl⟩ := hs.mem_iff.mp hd
    obtain ⟨data, rfl⟩ := Option.ne_none_iff_exists'.mp hne
    have hid : id = filter.id := by
      obtain ⟨imageUrl, -, rfl⟩ := Option.map_eq_some_iff.mp hf
      rfl
    rw [Server.filter?, ← hid, hl]
    exact hf
  · intro hf
    obtain ⟨data, hl, hf⟩ := Option.bind_eq_some_iff.mp hf
    exact ⟨_, hs.mem_iff.mpr ⟨by simp, hl⟩, hf⟩

theorem mem_of_uses (h : fetch.Uses s cache filters) (filter : FilterItem) :
    filter ∈ filters ↔ fetch.Takes s cache filter := by
  unfold OrganisationFetch.Uses Loaded at h
  unfold OrganisationFetch.Takes
  cases hloads : fetch.loadsFilters <;> cases hcache : cache.isEmpty <;>
    simp only [hloads, hcache, Bool.false_eq_true, if_false, if_true, Bool.and_true, Bool.and_false] at h ⊢
  case true.true =>
    obtain ⟨documents, hs, rfl⟩ := h
    exact mem_decoded_filters hs
  all_goals rw [h]

/-- Among more filters than a name was taken from, it is missing where one of them has the id. -/
theorem named_iff_of_subset (hsub : ∀ filter ∈ filters, known filter) (ho : Named (· ∈ filters) o) :
    Named known o ↔ ∀ filter, known filter → o.fieldId = some filter.id →
      ∃ filter' ∈ filters, filter'.id = filter.id := by
  unfold Named at *
  cases hfield : o.fieldId with
  | none =>
    rw [hfield] at ho
    constructor
    · intro _ filter _ he
      cases he
    · intro _
      exact ho
  | some fieldId =>
    rw [hfield] at ho
    dsimp only at ho ⊢
    constructor
    · rintro hnamed filter hknown he
      obtain rfl := Option.some.inj he
      rcases ho with ⟨filter', hmem, hid, -⟩ | ⟨hnone, -⟩
      · exact ⟨filter', hmem, hid⟩
      · rcases hnamed with ⟨filter', -, -, hname⟩ | ⟨-, hall⟩
        · rw [hnone] at hname
          cases hname
        · exact absurd rfl (hall filter hknown)
    · intro hall
      rcases ho with ⟨filter, hmem, hid, hname⟩ | ⟨hnone, hmissing⟩
      · exact .inl ⟨filter, hsub filter hmem, hid, hname⟩
      · refine .inr ⟨hnone, fun filter hknown hid => ?_⟩
        obtain ⟨filter', hmem, hid'⟩ := hall filter hknown (by rw [hid])
        exact hmissing filter' hmem (hid'.trans hid)

theorem addFilter_fieldId (d : Device) (o : OrganisationItem) : (d.addFilter o).fieldId = o.fieldId := by
  unfold Device.addFilter
  split <;> rfl

theorem filterName_of_organisation? (h : s.organisation? id = some o) : o.filterName = none := by
  obtain ⟨data, -, ho⟩ := Option.bind_eq_some_iff.mp h
  cases ho
  rfl

/-- What is shown is named by all known filters exactly when a fetch takes a name wherever there
is one to take. -/
theorem namesAll_iff_takes (d : Device) (hsub : ∀ filter, fetch.Takes s cache filter → known filter) :
    NamesAll known d s cache fetch ↔ ∀ item filter, s.organisation? item.id = some item →
      fetch.Asks s item.id → known filter → item.fieldId = some filter.id →
      ∃ filter', fetch.Takes s cache filter' ∧ filter'.id = filter.id := by
  have hnamed : ∀ filters item, fetch.Uses s cache filters → s.organisation? item.id = some item →
      (Named known ((d.setFilters filters).addFilter item) ↔ ∀ filter, known filter →
        item.fieldId = some filter.id → ∃ filter', fetch.Takes s cache filter' ∧ filter'.id = filter.id) := by
    intro filters item huses hdecoded
    have htaken := named_addFilter d filters (filterName_of_organisation? hdecoded)
    rw [named_iff_of_subset (fun filter hmem => hsub filter ((mem_of_uses huses filter).mp hmem)) htaken,
      addFilter_fieldId]
    simp only [mem_of_uses huses]
  constructor
  · intro hall item filter hdecoded hask hknown hfield
    obtain ⟨w', filters, organisations, huses, hy, hreturns⟩ := exists_yields_call d cache hask
    obtain ⟨h', hd⟩ := hy
    have hmem := (hreturns _).mpr ⟨item, hdecoded, hask, rfl⟩
    have hitem := hall _ hd organisations (List.mem_singleton_self _) _ hmem
    exact (hnamed filters item huses hdecoded).mp hitem filter hknown hfield
  · intro htakes e he organisations hout o ho
    obtain ⟨l, hl, hy⟩ := yields_of_settles (c := .fresh _ (d.setFilters cache, s)) rfl he
    have hl : e.out = l := hl
    rw [hl] at hout
    rcases returns_of_yields hy with rfl | ⟨filters, shown, huses, rfl, hreturns⟩
    · cases hout
    · obtain rfl : organisations = shown := by simpa using hout
      obtain ⟨item, hdecoded, hask, rfl⟩ := (hreturns o).mp ho
      exact (hnamed filters item huses hdecoded).mpr fun filter hknown hfield =>
        htakes item filter hdecoded hask hknown hfield

/-- A fetch that does not load the filters, or finds some cached, takes the cached names. -/
theorem takes_iff_mem (h : ¬ (fetch.loadsFilters = true ∧ cache = [])) (filter : FilterItem) :
    fetch.Takes s cache filter ↔ filter ∈ cache := by
  unfold OrganisationFetch.Takes
  have hcond : ¬ (fetch.loadsFilters && cache.isEmpty) = true := by
    intro hand
    rw [Bool.and_eq_true, List.isEmpty_iff] at hand
    exact h hand
  rw [if_neg hcond]

theorem takes_iff_stored (hloads : fetch.loadsFilters = true) (filter : FilterItem) :
    fetch.Takes s [] filter ↔ s.filter? filter.id = some filter := by
  unfold OrganisationFetch.Takes
  rw [hloads]
  exact .rfl

theorem knownFilter_iff_mem (h : cache ≠ []) (filter : FilterItem) :
    KnownFilter s cache filter ↔ filter ∈ cache := by
  unfold KnownFilter
  rw [if_neg fun hempty => h (List.isEmpty_iff.mp hempty)]

theorem known_of_takes (filter : FilterItem) (h : fetch.Takes s cache filter) : KnownFilter s cache filter := by
  by_cases hloads : fetch.loadsFilters = true ∧ cache = []
  · obtain ⟨hloads, rfl⟩ := hloads
    exact (takes_iff_stored hloads filter).mp h
  · have hmem := (takes_iff_mem hloads filter).mp h
    exact (knownFilter_iff_mem (List.ne_nil_of_mem hmem) filter).mpr hmem

theorem cachedOrStored_of_takes (filter : FilterItem) (h : fetch.Takes s cache filter) :
    CachedOrStored s cache filter := by
  by_cases hloads : fetch.loadsFilters = true ∧ cache = []
  · obtain ⟨hloads, rfl⟩ := hloads
    exact .inr ((takes_iff_stored hloads filter).mp h)
  · exact .inl ((takes_iff_mem hloads filter).mp h)

/-- The fetch takes a name of that id where it takes the cached ones. -/
theorem exists_takes_iff (h : ¬ (fetch.loadsFilters = true ∧ cache = [])) {filter : FilterItem} :
    (∃ filter', fetch.Takes s cache filter' ∧ filter'.id = filter.id) ↔
      filter.id ∈ cache.map (·.id) := by
  rw [List.mem_map]
  constructor
  · rintro ⟨filter', htakes, hid⟩
    exact ⟨filter', (takes_iff_mem h filter').mp htakes, hid⟩
  · rintro ⟨filter', hmem, hid⟩
    exact ⟨filter', (takes_iff_mem h filter').mpr hmem, hid⟩

/-- In a fetch without failures every organisation carries the name of its category exactly when
the fetch loads the filters, or some are cached, or none is missed. Names that the server alone
has are missed by a cache that lacks them, too. -/
theorem namesAll_iff (d : Device) (s : Server) (cache : List FilterItem) (fetch : OrganisationFetch) :
    (NamesAll (KnownFilter s cache) d s cache fetch ↔
      fetch.loadsFilters = true ∨ cache ≠ [] ∨ FieldsCached s cache fetch) ∧
    (NamesAll (CachedOrStored s cache) d s cache fetch ↔
      (fetch.loadsFilters = true ∧ cache = []) ∨ FieldsCached s cache fetch) := by
  rw [namesAll_iff_takes d known_of_takes, namesAll_iff_takes d cachedOrStored_of_takes]
  by_cases hloads : fetch.loadsFilters = true ∧ cache = []
  · -- Every stored name is taken, and no other is known.
    obtain ⟨hloads, rfl⟩ := hloads
    constructor
    · refine iff_of_true ?_ (.inl hloads)
      intro item filter _ _ hknown _
      exact ⟨filter, (takes_iff_stored hloads filter).mpr hknown, rfl⟩
    · refine iff_of_true ?_ (.inl ⟨hloads, rfl⟩)
      intro item filter _ _ hknown _
      rcases hknown with hmem | hstored
      · cases hmem
      · exact ⟨filter, (takes_iff_stored hloads filter).mpr hstored, rfl⟩
  · constructor
    · by_cases hcache : cache = []
      · subst hcache
        have hnone : ¬ fetch.loadsFilters = true := fun hl => hloads ⟨hl, rfl⟩
        constructor
        · intro htakes
          refine .inr (.inr fun item filter hdecoded hask hstored hfield => ?_)
          exact (exists_takes_iff hloads).mp (htakes item filter hdecoded hask hstored hfield)
        · rintro (hl | hne | hfields) item filter hdecoded hask hstored hfield
          · exact absurd hl hnone
          · exact absurd rfl hne
          · exact (exists_takes_iff hloads).mpr (hfields item filter hdecoded hask hstored hfield)
      · refine iff_of_true ?_ (.inr (.inl hcache))
        intro item filter _ _ hknown _
        have hmem := (knownFilter_iff_mem hcache filter).mp hknown
        exact ⟨filter, (takes_iff_mem hloads filter).mpr hmem, rfl⟩
    · constructor
      · intro htakes
        refine .inr fun item filter hdecoded hask hstored hfield => ?_
        exact (exists_takes_iff hloads).mp (htakes item filter hdecoded hask (.inr hstored) hfield)
      · rintro (hl | hfields) item filter hdecoded hask hknown hfield
        · exact absurd hl hloads
        · rcases hknown with hmem | hstored
          · exact ⟨filter, (takes_iff_mem hloads filter).mpr hmem, rfl⟩
          · exact (exists_takes_iff hloads).mpr (hfields item filter hdecoded hask hstored hfield)

end Succeed

/-- The shelter is in the field of the animals. -/
def shelterServer : Server where
  organisations := AList.singleton "shelter" { name := some "Shelter", field := some "animals" }
  filters := AList.singleton "animals" { name := some "Animals", imageUrl := some "animals.png" }

/-- Fetched by its id before any filter is cached, the shelter has no category. -/
theorem not_namesAll :
    ¬ (∀ (d : Device) (s : Server) (cache : List FilterItem) (fetch : OrganisationFetch),
        NamesAll (KnownFilter s cache) d s cache fetch) ∧
    ¬ (∀ (d : Device) (s : Server) (cache : List FilterItem) (fetch : OrganisationFetch),
        NamesAll (CachedOrStored s cache) d s cache fetch) := by
  have hasks : (OrganisationFetch.byIds ["shelter"]).Asks shelterServer "shelter" :=
    ⟨by decide, List.mem_singleton_self _⟩
  let shelter : OrganisationItem := { id := "shelter", name := "Shelter", fieldId := some "animals" }
  let animals : FilterItem := { id := "animals", name := "Animals", imageUrl := "animals.png" }
  have horganisation : shelterServer.organisation? shelter.id = some shelter := by decide
  have hfilter : shelterServer.filter? animals.id = some animals := by decide
  constructor
  · intro hall
    have hnames := hall {} shelterServer [] (.byIds ["shelter"])
    rw [namesAll_iff_takes {} known_of_takes] at hnames
    obtain ⟨filter, htakes, -⟩ := hnames shelter animals horganisation hasks hfilter rfl
    cases htakes
  · intro hall
    have hnames := hall {} shelterServer [] (.byIds ["shelter"])
    rw [namesAll_iff_takes {} cachedOrStored_of_takes] at hnames
    obtain ⟨filter, htakes, -⟩ := hnames shelter animals horganisation hasks (.inr hfilter) rfl
    cases htakes

end Pledge
