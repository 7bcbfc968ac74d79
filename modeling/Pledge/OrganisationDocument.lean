import Pledge.Fetching
import Pledge.Format.Fields
import Pledge.OrganisationDetails

/-!
# Documents of organisations

How an organisation is read from its document. Dictionaries come in no particular order, in the
document and within its fields; the parts of an organisation hardly depend on it.
-/

namespace Pledge

open Fields

/-- A dictionary within a document, in the order in which it happens to be iterated. -/
abbrev Entries : Type := List (String × Value)

structure ContactItem where
  name : String
  webUrl : String
  icon : String
deriving DecidableEq, Repr

structure OrganisationItem.FinanceMetric where
  name : String
  note : String
  unit : String
  value : ℚ
deriving DecidableEq

/-- An organisation with everything that its document holds. -/
structure OrganisationItem.Full (UIImage : Type) extends OrganisationItem.Detailed UIImage where
  desctiptionText : String
  imageUrl : Option String
  contacts : List ContactItem
  financialMetrics : List OrganisationItem.FinanceMetric
  monthDonors : Int
  monthPledged : Int

/-- What the app takes from Foundation: the URL of a text, the text of a value, lower case and
containment. -/
structure Foundation where
  url : String → Option String
  describe : Value → String
  lowercased : String → String
  contains : String → String → Bool

/-- The body of `for item in dataDict`. -/
def ContactItem.ofEntry? (f : Foundation) (entry : String × Value) : Option ContactItem :=
  (entry.2.asString?.bind f.url).map fun webUrl =>
    { name := entry.1
      webUrl
      icon :=
        if f.contains (f.lowercased entry.1) "instagram" then "Icon feather-instagram"
        else if f.contains (f.lowercased entry.1) "facebook" then "Icon awesome-facebook"
        else "Icon feather-globe" }

def ContactItem.fromData (f : Foundation) (data : Option Value) : List ContactItem :=
  ((data.bind Value.asDictionary?).getD []).filterMap (ContactItem.ofEntry? f)

/-- The fields of an organisation's document that the lists of the app are made of. -/
def OrganisationDoc.ofFields (data : Dictionary) : OrganisationDoc :=
  { about := data.read Value.asString? "about"
    name := data.read Value.asString? "name"
    field := data.read Value.asString? "field"
    causes := (data.read Value.asArray? "causes").getD [] |>.filterMap Value.asString? }

variable {UIImage : Type}

namespace OrganisationItem

/-- `data[key] as? String ?? ""`. -/
def text (entries : Entries) (key : String) : String :=
  ((entries.lookup key).bind Value.asString?).getD ""

/-- `data as? [[String: Any]]`, which fails as a whole. -/
def dictionaries (data : Option Value) : Option (List Entries) :=
  match data with
  | some (.array values) => values.mapM Value.asDictionary?
  | _ => none

def ScoreType.rawValue : ScoreType → String
  | overallScore => "overallScore"
  | atScore => "atScore"
  | financeScore => "financeScore"

def ScoreType.init? (rawValue : String) : Option ScoreType :=
  if rawValue = "overallScore" then some overallScore
  else if rawValue = "atScore" then some atScore
  else if rawValue = "financeScore" then some financeScore
  else none

def Score.sortIndex (score : Score) : ℕ :=
  match score.type with
  | .overallScore => 0
  | .atScore => 1
  | .financeScore => 2

section Init

variable (f : Foundation)

def Leader.init (data : Entries) : Leader UIImage :=
  { about := text data "about"
    avatarUrl := f.url (text data "avatar")
    infoImageUrl := f.url (text data "imageUrl") }

def Leader.itemsFromData (data : Option Value) : List (Leader UIImage) :=
  ((dictionaries data).getD []).map (Leader.init f)

def Program.init (data : Entries) : Program UIImage :=
  { name := text data "name"
    about := text data "description"
    infoImageUrl := f.url (text data "imageUrl") }

def Program.itemsFromData (data : Option Value) : List (Program UIImage) :=
  ((dictionaries data).getD []).map (Program.init f)

def Review.init (data : Entries) : Review :=
  { sourse := OrganisationItem.text data "sourse", text := OrganisationItem.text data "text" }

def Review.itemsFromData (data : Option Value) : List Review :=
  ((dictionaries data).getD []).map Review.init

def FinanceMetric.init (data : Entries) : FinanceMetric :=
  { name := text data "name"
    note := text data "note"
    unit := text data "unit"
    value := ((data.lookup "value").bind Value.asDouble?).getD 0 }

def FinanceMetric.itemsFromData (data : Option Value) : List FinanceMetric :=
  ((dictionaries data).getD []).map FinanceMetric.init

def Score.init? (key : String) (value : Value) : Option Score :=
  (ScoreType.init? key).map fun type => { type, value := f.describe value }

def Score.itemsFromData (data : Option Value) : List Score :=
  ((data.bind Value.asDictionary?).getD []).filterMap fun entry => Score.init? f entry.1 entry.2

/-- `sorted(by: { $0.sortIndex < $1.sortIndex })`. -/
def sortedScores (scores : List Score) : List Score :=
  scores.mergeSort fun a b => a.sortIndex ≤ b.sortIndex

/-- `OrganisationItem.init?(_ document:)`. -/
def Full.init? (document : Document Dictionary) : Option (Full UIImage) :=
  document.data.map fun data =>
    { id := document.documentID
      about := (data.read Value.asString? "about").getD ""
      desctiptionText := (data.read Value.asString? "description").getD ""
      fieldId := data.read Value.asString? "field"
      imageUrl := f.url ((data.read Value.asString? "imageUrl").getD "")
      name := (data.read Value.asString? "name").getD ""
      contacts := ContactItem.fromData f (data.lookup "contacts")
      scores := sortedScores (Score.itemsFromData f (data.lookup "scores"))
      leaders := Leader.itemsFromData f (data.lookup "leaders")
      programs := Program.itemsFromData f (data.lookup "programs")
      reviews := Review.itemsFromData (data.lookup "reviews")
      financialMetrics := FinanceMetric.itemsFromData (data.lookup "financeMetrics")
      monthDonors := (data.read Value.asInt? "monthDonors").getD 0
      monthPledged := (data.read Value.asInt? "monthPledged").getD 0 }

/-- The parts apart, it is the organisation of the lists. -/
theorem toOrganisationItem_init? (document : Document Dictionary) :
    (Full.init? f document : Option (Full UIImage)).map (·.toOrganisationItem) =
      OrganisationItem.init? ⟨document.documentID, document.data.map OrganisationDoc.ofFields⟩ := by
  obtain ⟨id, data⟩ := document
  cases data <;> rfl

end Init

/-! ## Scores -/

section Scores

variable (f : Foundation) {entries : Entries}

theorem ScoreType.init?_eq_some {key : String} {type : ScoreType} :
    ScoreType.init? key = some type ↔ key = type.rawValue := by
  constructor
  · intro h
    unfold ScoreType.init? at h
    split at h
    · obtain rfl := Option.some.inj h
      assumption
    split at h
    · obtain rfl := Option.some.inj h
      assumption
    split at h
    · obtain rfl := Option.some.inj h
      assumption
    · cases h
  · rintro rfl
    cases type <;> rfl

theorem Score.type_eq_of_sortIndex {a b : Score} (h : a.sortIndex = b.sortIndex) : a.type = b.type := by
  obtain ⟨s, v⟩ := a
  obtain ⟨t, w⟩ := b
  cases s <;> cases t <;> first | rfl | cases h

/-- The score of one type, if the dictionary has one. -/
def score? (entries : Entries) (type : ScoreType) : Option Score :=
  (entries.lookup type.rawValue).map fun value => { type, value := f.describe value }

theorem mem_itemsFromData (hn : (entries.map Prod.fst).Nodup) {score : Score} :
    score ∈ Score.itemsFromData f (some (.map entries)) ↔ score? f entries score.type = some score := by
  unfold Score.itemsFromData score?
  simp only [Option.bind_some, Value.asDictionary?, Option.getD_some, List.mem_filterMap,
    Option.map_eq_some_iff]
  constructor
  · rintro ⟨⟨key, value⟩, hmem, hs⟩
    obtain ⟨type, htype, rfl⟩ := Option.map_eq_some_iff.mp hs
    obtain rfl := ScoreType.init?_eq_some.mp htype
    exact ⟨value, (lookup_eq_some_iff_mem hn).mpr hmem, rfl⟩
  · rintro ⟨value, hl, hs⟩
    refine ⟨(score.type.rawValue, value), (lookup_eq_some_iff_mem hn).mp hl, ?_⟩
    simp only [Score.init?, ScoreType.init?_eq_some.mpr rfl, Option.map_some, hs]

/-- No type comes twice. -/
theorem nodup_itemsFromData (hn : (entries.map Prod.fst).Nodup) :
    ((Score.itemsFromData f (some (.map entries))).map fun score => score.type.rawValue).Nodup := by
  refine hn.sublist (map_filterMap_sublist (fun entry score he => ?_) entries)
  obtain ⟨type, htype, rfl⟩ := Option.map_eq_some_iff.mp he
  exact (ScoreType.init?_eq_some.mp htype).symm

/-- Overall, accountability, finance, each if the dictionary has it. -/
def scoresInOrder (entries : Entries) : List Score :=
  [ScoreType.overallScore, .atScore, .financeScore].filterMap (score? f entries)

theorem mem_scoresInOrder {score : Score} :
    score ∈ scoresInOrder f entries ↔ score? f entries score.type = some score := by
  rw [scoresInOrder, List.mem_filterMap]
  constructor
  · rintro ⟨type, -, hs⟩
    obtain ⟨value, -, rfl⟩ := Option.map_eq_some_iff.mp hs
    exact hs
  · intro hs
    exact ⟨score.type, by cases score.type <;> simp, hs⟩

theorem pairwise_scoresInOrder : (scoresInOrder f entries).Pairwise fun a b => a.sortIndex < b.sortIndex := by
  have htypes : [ScoreType.overallScore, .atScore, .financeScore].Pairwise fun s t =>
      ∀ a, score? f entries s = some a → ∀ b, score? f entries t = some b → a.sortIndex < b.sortIndex := by
    refine List.Pairwise.imp (R := fun s t => ∀ v w, (⟨s, v⟩ : Score).sortIndex < (⟨t, w⟩ : Score).sortIndex)
      (fun {s t} h a ha b hb => ?_) ?_
    · obtain ⟨v, -, rfl⟩ := Option.map_eq_some_iff.mp ha
      obtain ⟨w, -, rfl⟩ := Option.map_eq_some_iff.mp hb
      exact h _ _
    · simp [Score.sortIndex]
  exact htypes.filterMap _ fun s t h a ha b hb => h a ha b hb

/-- The scores of an organisation are the known ones of its dictionary, in a fixed order. -/
theorem sortedScores_eq (hn : (entries.map Prod.fst).Nodup) :
    sortedScores (Score.itemsFromData f (some (.map entries))) = scoresInOrder f entries := by
  have hperm : (sortedScores (Score.itemsFromData f (some (.map entries)))).Perm (scoresInOrder f entries) := by
    refine (List.mergeSort_perm _ _).trans ?_
    refine (List.perm_ext_iff_of_nodup (List.Nodup.of_map _ (nodup_itemsFromData f hn)) ?_).mpr fun score => ?_
    · exact (pairwise_scoresInOrder f).imp fun h => fun he => by simp [he] at h
    · rw [mem_itemsFromData f hn, mem_scoresInOrder]
  have hsorted : (sortedScores (Score.itemsFromData f (some (.map entries)))).Pairwise
      fun a b => a.sortIndex ≤ b.sortIndex := by
    refine (List.pairwise_mergeSort (fun a b c hab hbc => ?_) (fun a b => ?_) _).imp fun h => of_decide_eq_true h
    · exact decide_eq_true ((of_decide_eq_true hab).trans (of_decide_eq_true hbc))
    · simpa using le_total a.sortIndex b.sortIndex
  refine List.Perm.eq_of_pairwise ?_ hsorted ?_ hperm
  · intro a b ha hb hab hba
    have hsa := (mem_scoresInOrder f).mp (hperm.mem_iff.mp ha)
    have hsb := (mem_scoresInOrder f).mp hb
    rw [Score.type_eq_of_sortIndex (le_antisymm hab hba), hsb] at hsa
    exact (Option.some.inj hsa).symm
  · exact (pairwise_scoresInOrder f).imp fun h => h.le

end Scores

/-! ## The order of dictionaries -/

section Order

variable (f : Foundation) {entries entries' : Entries} {data data' : Option Value} {key : String}

theorem bind_reordered {α : Type} {cast : Value → Option α} (hcast : ∀ v v', Reordered v v' → cast v' = cast v)
    (h : Option.Rel Reordered data data') : data'.bind cast = data.bind cast := by
  cases h with
  | none => rfl
  | some h => exact hcast _ _ h

theorem text_sameEntries (h : SameEntries entries entries') (key : String) :
    text entries' key = text entries key := by
  unfold text
  rw [bind_reordered (fun _ _ => asString?_reordered) (lookup_sameEntries h key)]

theorem mapM_asDictionary?_reordered {values values' : List Value} (h : List.Forall₂ Reordered values values') :
    Option.Rel (List.Forall₂ SameEntries) (values.mapM Value.asDictionary?) (values'.mapM Value.asDictionary?) := by
  induction h with
  | nil => exact .some .nil
  | @cons v v' values values' h _ ih =>
    rw [List.mapM_cons, List.mapM_cons]
    cases hv : v.asDictionary? <;> cases hv' : v'.asDictionary? <;>
      have hhead := asDictionary?_reordered h <;> rw [hv, hv'] at hhead
    · exact .none
    · cases hhead
    · cases hhead
    · cases hhead with
      | some hhead =>
        cases ht : values.mapM Value.asDictionary? <;> cases ht' : values'.mapM Value.asDictionary? <;>
          rw [ht, ht'] at ih
        · exact .none
        · cases ih
        · cases ih
        · cases ih with
          | some ih => exact .some (.cons hhead ih)

theorem dictionaries_reordered (h : Option.Rel Reordered data data') :
    List.Forall₂ SameEntries ((dictionaries data).getD []) ((dictionaries data').getD []) := by
  cases h with
  | none => exact .nil
  | @some v v' h =>
    have hsame : Option.Rel (List.Forall₂ SameEntries) (dictionaries (some v)) (dictionaries (some v')) := by
      have hshape := sameShape_of_reordered h
      cases v with
      | map =>
        obtain ⟨entries', rfl, -⟩ := hshape
        exact .none
      | array values =>
        obtain ⟨values', rfl, hvalues⟩ := hshape
        exact mapM_asDictionary?_reordered hvalues
      | _ =>
        obtain rfl := hshape
        exact .none
    cases hd : dictionaries (some v) <;> cases hd' : dictionaries (some v') <;> rw [hd, hd'] at hsame
    · exact .nil
    · cases hsame
    · cases hsame
    · cases hsame with
      | some hsame => exact hsame

/-- Parts that are read by their keys are the same. -/
theorem map_reordered {α : Type} {init : Entries → α}
    (hinit : ∀ entries entries', SameEntries entries entries' → init entries' = init entries)
    (h : Option.Rel Reordered data data') :
    ((dictionaries data').getD []).map init = ((dictionaries data).getD []).map init := by
  have hsame := dictionaries_reordered h
  generalize (dictionaries data).getD [] = dicts at hsame ⊢
  generalize (dictionaries data').getD [] = dicts' at hsame ⊢
  induction hsame with
  | nil => rfl
  | cons h _ ih => rw [List.map_cons, List.map_cons, hinit _ _ h, ih]

theorem financeMetric_sameEntries (h : SameEntries entries entries') :
    FinanceMetric.init entries' = FinanceMetric.init entries := by
  simp only [FinanceMetric.init, text_sameEntries h,
    bind_reordered (fun _ _ => asDouble?_reordered) (lookup_sameEntries h "value")]

/-- The value of a field that is a dictionary. -/
theorem entries_reordered (h : Option.Rel Reordered data data') :
    SameEntries ((data.bind Value.asDictionary?).getD []) ((data'.bind Value.asDictionary?).getD []) := by
  cases h with
  | none => exact .inl rfl
  | @some v v' h =>
    have hentries := asDictionary?_reordered h
    rw [Option.bind_some, Option.bind_some]
    cases hd : v.asDictionary? <;> cases hd' : v'.asDictionary? <;> rw [hd, hd'] at hentries <;>
      cases hentries
    · exact .inl rfl
    · assumption

theorem read_reordered {α : Type} {cast : Value → Option α} {data data' : Dictionary} {key : String}
    (hcast : ∀ v v', Reordered v v' → cast v' = cast v)
    (h : Option.Rel Reordered (data.lookup key) (data'.lookup key)) :
    data'.read cast key = data.read cast key := bind_reordered hcast h

theorem contacts_reordered (h : Option.Rel Reordered data data') :
    (ContactItem.fromData f data').Perm (ContactItem.fromData f data) := by
  unfold ContactItem.fromData
  rcases entries_reordered h with he | ⟨-, entries₁, hentries, hperm⟩
  · rw [he]
  · generalize (data.bind Value.asDictionary?).getD [] = entries at hentries ⊢
    have hcontacts : entries₁.filterMap (ContactItem.ofEntry? f) =
        entries.filterMap (ContactItem.ofEntry? f) := by
      clear hperm
      induction hentries with
      | nil => rfl
      | cons he _ ih =>
        obtain ⟨hkey, hvalue⟩ := he
        rw [List.filterMap_cons, List.filterMap_cons, ih, ContactItem.ofEntry?, ContactItem.ofEntry?, hkey,
          asString?_reordered hvalue]
    rw [← hcontacts]
    exact (hperm.filterMap _).symm

/-- Neither a dictionary nor an array. -/
def Plain (v : Value) : Prop := v.asDictionary? = none ∧ v.asArray? = none

/-- No score of the document is itself a dictionary or an array. -/
def PlainScores (data : Option Value) : Prop :=
  ∀ entry ∈ (data.bind Value.asDictionary?).getD [], Plain entry.2

theorem eq_of_plain {v v' : Value} (hv : Plain v) (h : Reordered v v') : v' = v := by
  have hshape := sameShape_of_reordered h
  cases v with
  | map => cases hv.1
  | array => cases hv.2
  | _ => exact hshape

theorem score?_sameEntries (h : SameEntries entries entries') (hplain : ∀ entry ∈ entries, Plain entry.2)
    (type : ScoreType) : score? f entries' type = score? f entries type := by
  have hvalue := lookup_sameEntries h type.rawValue
  unfold score?
  cases hl : entries.lookup type.rawValue with
  | none =>
    rw [hl] at hvalue
    cases hl' : entries'.lookup type.rawValue with
    | none => rfl
    | some v' =>
      rw [hl'] at hvalue
      cases hvalue
  | some v =>
    obtain ⟨front, back, rfl, -⟩ := List.lookup_eq_some_iff.mp hl
    have hv : Plain v := hplain (type.rawValue, v) (by simp)
    rw [hl] at hvalue
    cases hl' : List.lookup type.rawValue entries' with
    | none =>
      rw [hl'] at hvalue
      cases hvalue
    | some v' =>
      rw [hl'] at hvalue
      cases hvalue with
      | some hvalue => rw [eq_of_plain hv hvalue]

theorem types_scoresInOrder (entries : Entries) : (scoresInOrder f entries).map Score.type =
    [ScoreType.overallScore, .atScore, .financeScore].filterMap fun type =>
      (entries.lookup type.rawValue).map fun _ => type := by
  unfold scoresInOrder score?
  rw [List.map_filterMap]
  refine List.filterMap_congr fun type _ => ?_
  rw [Option.map_map]
  rfl

/-- The scores are of the same types in the same order, and the same when their values are plain. -/
theorem scores_reordered (h : Option.Rel Reordered data data') :
    (sortedScores (Score.itemsFromData f data')).map Score.type =
        (sortedScores (Score.itemsFromData f data)).map Score.type ∧
      (PlainScores data →
        sortedScores (Score.itemsFromData f data') = sortedScores (Score.itemsFromData f data)) := by
  have hitems : ∀ data : Option Value, Score.itemsFromData f data =
      Score.itemsFromData f (some (.map ((data.bind Value.asDictionary?).getD []))) := fun _ => rfl
  rw [hitems data, hitems data']
  have hsame := entries_reordered h
  unfold PlainScores
  generalize (data.bind Value.asDictionary?).getD [] = entries at hsame ⊢
  generalize (data'.bind Value.asDictionary?).getD [] = entries' at hsame ⊢
  by_cases hn : (entries.map Prod.fst).Nodup
  · rw [sortedScores_eq f hn, sortedScores_eq f (hsame.nodup hn)]
    constructor
    · rw [types_scoresInOrder, types_scoresInOrder]
      refine List.filterMap_congr fun type _ => ?_
      have hvalue := lookup_sameEntries hsame type.rawValue
      generalize entries.lookup type.rawValue = value at hvalue ⊢
      generalize entries'.lookup type.rawValue = value' at hvalue ⊢
      cases hvalue <;> rfl
    · intro hplain
      exact List.filterMap_congr fun type _ => score?_sameEntries f hsame hplain type
  · rcases hsame with rfl | ⟨hn', -⟩
    · exact ⟨rfl, fun _ => rfl⟩
    · exact absurd hn' hn

/-- Documents that differ in the order of their dictionaries only, on whatever level. -/
def SameDocument (data data' : Dictionary) : Prop :=
  ∀ key, Option.Rel Reordered (data.lookup key) (data'.lookup key)

/-- An organisation does not depend on the order in which the dictionaries of its document are
iterated, but for the order of its contacts and the text of a score that is itself a dictionary or
an array. -/
theorem init?_reordered (id : String) {data data' : Dictionary} (h : SameDocument data data') :
    ∃ o o' : Full UIImage, Full.init? f ⟨id, some data⟩ = some o ∧ Full.init? f ⟨id, some data'⟩ = some o' ∧
      o' = { o with contacts := o'.contacts, scores := o'.scores } ∧ o'.contacts.Perm o.contacts ∧
      o'.scores.map Score.type = o.scores.map Score.type ∧
      (PlainScores (data.lookup "scores") → o'.scores = o.scores) := by
  refine ⟨_, _, rfl, rfl, ?_, contacts_reordered f (h "contacts"), scores_reordered f (h "scores")⟩
  have htext := fun key => read_reordered (fun _ _ => asString?_reordered) (h key)
  have hint := fun key => read_reordered (fun _ _ => asInt?_reordered) (h key)
  have hleaders : (Leader.itemsFromData f (data'.lookup "leaders") : List (Leader UIImage)) = _ :=
    map_reordered (fun _ _ he => by simp only [Leader.init, text_sameEntries he]) (h "leaders")
  have hprograms : (Program.itemsFromData f (data'.lookup "programs") : List (Program UIImage)) = _ :=
    map_reordered (fun _ _ he => by simp only [Program.init, text_sameEntries he]) (h "programs")
  have hreviews : Review.itemsFromData (data'.lookup "reviews") = _ :=
    map_reordered (fun _ _ he => by simp only [Review.init, text_sameEntries he]) (h "reviews")
  have hmetrics : FinanceMetric.itemsFromData (data'.lookup "financeMetrics") = _ :=
    map_reordered (fun _ _ => financeMetric_sameEntries) (h "financeMetrics")
  simp only [htext, hint, hleaders, hprograms, hreviews, hmetrics]
  rfl

/-- A document with a name and these scores. -/
def scoredFields (scores : Entries) : Dictionary :=
  (AList.singleton "name" (.string "Kitchen")).insert "scores" (.map scores)

theorem sameDocument_scoredFields {scores scores' : Entries} (hn : (scores.map Prod.fst).Nodup)
    (h : scores.Perm scores') : SameDocument (scoredFields scores) (scoredFields scores') := by
  intro key
  unfold scoredFields
  by_cases hkey : key = "scores"
  · subst hkey
    rw [AList.lookup_insert, AList.lookup_insert]
    exact .some (.map hn h)
  · rw [AList.lookup_insert_ne hkey, AList.lookup_insert_ne hkey]
    generalize AList.lookup key (AList.singleton "name" _) = value
    cases value with
    | none => exact .none
    | some value => exact .some (.refl value)

/-- Every text is a URL, and texts are compared as they are. -/
def plainFoundation : Foundation where
  url := some
  describe value := value.asString?.getD ""
  lowercased := String.toLower
  contains text part := text == part

def kitchenScores : Entries := [("overallScore", .string "4"), ("atScore", .string "3")]

/-- Two scores, iterated both ways round. -/
theorem init?_reordered_kitchen : ∃ o o' : Full Unit,
    Full.init? plainFoundation ⟨"kitchen", some (scoredFields kitchenScores)⟩ = some o ∧
    Full.init? plainFoundation ⟨"kitchen", some (scoredFields kitchenScores.reverse)⟩ = some o' ∧
    o'.scores = o.scores := by
  have hsame : SameDocument (scoredFields kitchenScores) (scoredFields kitchenScores.reverse) :=
    sameDocument_scoredFields (by decide) (.swap _ _ [])
  refine (init?_reordered plainFoundation "kitchen" hsame).imp fun o h => ?_
  obtain ⟨o', ho, ho', -, -, -, hscores⟩ := h
  refine ⟨o', ho, ho', hscores fun entry hentry => ?_⟩
  have hentry : entry = ("overallScore", .string "4") ∨ entry = ("atScore", .string "3") := by
    simpa [scoredFields, kitchenScores, AList.lookup_insert, Value.asDictionary?] using hentry
  rcases hentry with rfl | rfl <;> exact ⟨rfl, rfl⟩

end Order

end OrganisationItem

end Pledge
