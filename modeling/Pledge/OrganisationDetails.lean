import Pledge.EventLoop.Histories
import Pledge.Model

/-!
# OrganisationDetailsViewController

The images of an organisation are loaded one by one. The rows are copies of its parts, built anew
when all images that were asked for so far have come.
-/

namespace Pledge

open EventLoop

inductive OrganisationItem.ScoreType
  | overallScore
  | atScore
  | financeScore
deriving DecidableEq, Repr

structure OrganisationItem.Score where
  type : OrganisationItem.ScoreType
  value : String
deriving DecidableEq, Repr

structure OrganisationItem.Review where
  sourse : String
  text : String
deriving DecidableEq, Repr

structure OrganisationItem.Program (UIImage : Type) where
  name : String
  about : String
  infoImageUrl : Option String := none
  infoImage : Option UIImage := none
deriving DecidableEq, Repr

structure OrganisationItem.Leader (UIImage : Type) where
  avatarUrl : Option String := none
  about : String
  infoImageUrl : Option String := none
  infoImage : Option UIImage := none
deriving DecidableEq, Repr

/-- An organisation with the parts that have rows of their own. -/
structure OrganisationItem.Detailed (UIImage : Type) extends OrganisationItem where
  scores : List OrganisationItem.Score := []
  programs : List (OrganisationItem.Program UIImage) := []
  leaders : List (OrganisationItem.Leader UIImage) := []
  reviews : List OrganisationItem.Review := []
deriving DecidableEq, Repr

/-- Whose image a callback brings: a program's or a leader's, by its index. -/
inductive ImageSlot
  | program (index : ℕ)
  | leader (index : ℕ)
deriving DecidableEq, Repr

inductive SectionHeader
  | scores
  | programs
  | boardLeaderships
  | communityReviews
deriving DecidableEq, Repr

/-- The rows. That of the organisation is the object itself, the others are copies. -/
inductive DetailsRow (UIImage : Type)
  | organisation
  | keySectionHeader (header : SectionHeader)
  | score (score : OrganisationItem.Score)
  | program (program : OrganisationItem.Program UIImage)
  | leader (leader : OrganisationItem.Leader UIImage)
  | review (review : OrganisationItem.Review)
deriving DecidableEq, Repr

variable {UIImage : Type}

namespace OrganisationItem.Detailed

/-- The slots that `loadImages` asks an image for, in the order of its two loops. -/
def imageSlots (o : Detailed UIImage) : List ImageSlot :=
  (o.programs.zipIdx.filterMap fun (program, index) => program.infoImageUrl.map fun _ => .program index) ++
    o.leaders.zipIdx.filterMap fun (leader, index) => leader.infoImageUrl.map fun _ => .leader index

/-- `none` is an index out of range. -/
def setInfoImage (o : Detailed UIImage) (image : Option UIImage) : ImageSlot → Option (Detailed UIImage)
  | .program index =>
    if index < o.programs.length then
      some { o with programs := o.programs.modify index fun program => { program with infoImage := image } }
    else none
  | .leader index =>
    if index < o.leaders.length then
      some { o with leaders := o.leaders.modify index fun leader => { leader with infoImage := image } }
    else none

/-- A section has a header only if it has rows. -/
def sectionRows (header : SectionHeader) (rows : List (DetailsRow UIImage)) : List (DetailsRow UIImage) :=
  if rows.isEmpty then [] else .keySectionHeader header :: rows

def setupTableData (o : Detailed UIImage) : List (DetailsRow UIImage) :=
  [.organisation] ++ sectionRows .scores (o.scores.map .score) ++ sectionRows .programs (o.programs.map .program) ++
    sectionRows .boardLeaderships (o.leaders.map .leader) ++ sectionRows .communityReviews (o.reviews.map .review)

/-- Some slots have got their images. -/
def withImages (o : Detailed UIImage) (image : ImageSlot → Option UIImage) (got : ImageSlot → Bool) :
    Detailed UIImage :=
  { o with
    programs := o.programs.mapIdx fun index program =>
      if got (.program index) then { program with infoImage := image (.program index) } else program
    leaders := o.leaders.mapIdx fun index leader =>
      if got (.leader index) then { leader with infoImage := image (.leader index) } else leader }

/-- Every program and every leader with an image URL has got its image. -/
def complete (o : Detailed UIImage) (image : ImageSlot → Option UIImage) : Detailed UIImage :=
  { o with
    programs := o.programs.mapIdx fun index program =>
      if program.infoImageUrl.isSome then { program with infoImage := image (.program index) } else program
    leaders := o.leaders.mapIdx fun index leader =>
      if leader.infoImageUrl.isSome then { leader with infoImage := image (.leader index) } else leader }

end OrganisationItem.Detailed

open OrganisationItem

structure OrganisationDetailsViewController (UIImage : Type) where
  organisation : Detailed UIImage
  tableData : List (DetailsRow UIImage)
  /-- The images that the loops of `loadImages` have still to ask for. -/
  requests : List ImageSlot
  queryCount : ℕ := 0
  queryFinishedCount : ℕ := 0
  /-- The images that were asked for and whose callback has not fired. -/
  pending : List ImageSlot := []

inductive LoadEvent
  | loadImage
  | callback (slot : ImageSlot)
deriving DecidableEq, Repr

namespace OrganisationDetailsViewController

def viewDidLoad (o : Detailed UIImage) : OrganisationDetailsViewController UIImage where
  organisation := o
  tableData := o.setupTableData
  requests := o.imageSlots

def queryFinishedHandler (vc : OrganisationDetailsViewController UIImage) :
    OrganisationDetailsViewController UIImage :=
  let vc := { vc with queryFinishedCount := vc.queryFinishedCount + 1 }
  if vc.queryCount = vc.queryFinishedCount then { vc with tableData := vc.organisation.setupTableData } else vc

/-- One turn of a loop, or one callback. A callback that is fired synchronously is one that follows
its request at once. -/
def step (image : ImageSlot → Option UIImage) (vc : OrganisationDetailsViewController UIImage) :
    LoadEvent → Option (OrganisationDetailsViewController UIImage)
  | .loadImage =>
    match vc.requests with
    | [] => some vc
    | slot :: rest =>
      some { vc with requests := rest, queryCount := vc.queryCount + 1, pending := slot :: vc.pending }
  | .callback slot =>
    (vc.organisation.setInfoImage (image slot) slot).map fun o =>
      { vc with organisation := o, pending := vc.pending.erase slot }.queryFinishedHandler

def Enabled (vc : OrganisationDetailsViewController UIImage) : LoadEvent → Prop
  | .loadImage => vc.requests ≠ []
  | .callback slot => slot ∈ vc.pending

/-- Any interleaving of the loops and the callbacks. -/
abbrev Reached (image : ImageSlot → Option UIImage) (o : Detailed UIImage)
    (vc : OrganisationDetailsViewController UIImage) : Prop :=
  History (fun vc e vc' => vc.step image e = some vc') Enabled (viewDidLoad o) vc

/-- The last callback has fired. -/
def Finished (vc : OrganisationDetailsViewController UIImage) : Prop := vc.requests = [] ∧ vc.pending = []

/-- How many events are to come. -/
def left (vc : OrganisationDetailsViewController UIImage) : ℕ := 2 * vc.requests.length + vc.pending.length

variable {o : Detailed UIImage} {image : ImageSlot → Option UIImage} {slot : ImageSlot} {e : LoadEvent}
  {vc vc' : OrganisationDetailsViewController UIImage} {got got' : ImageSlot → Bool}

/-! ## Images and their slots -/

theorem mem_imageSlots_program {index : ℕ} :
    .program index ∈ o.imageSlots ↔ ∃ program, o.programs[index]? = some program ∧ program.infoImageUrl.isSome := by
  simp only [Detailed.imageSlots, List.mem_append, List.mem_filterMap, Option.map_eq_some_iff, Prod.exists,
    List.mem_zipIdx_iff_getElem?, reduceCtorEq, and_false, exists_false, or_false, ImageSlot.program.injEq,
    Option.isSome_iff_exists]
  constructor
  · rintro ⟨program, _, hget, url, hurl, rfl⟩
    exact ⟨program, hget, url, hurl⟩
  · rintro ⟨program, hget, url, hurl⟩
    exact ⟨program, index, hget, url, hurl, rfl⟩

theorem mem_imageSlots_leader {index : ℕ} :
    .leader index ∈ o.imageSlots ↔ ∃ leader, o.leaders[index]? = some leader ∧ leader.infoImageUrl.isSome := by
  simp only [Detailed.imageSlots, List.mem_append, List.mem_filterMap, Option.map_eq_some_iff, Prod.exists,
    List.mem_zipIdx_iff_getElem?, reduceCtorEq, and_false, exists_false, false_or, ImageSlot.leader.injEq,
    Option.isSome_iff_exists]
  constructor
  · rintro ⟨leader, _, hget, url, hurl, rfl⟩
    exact ⟨leader, hget, url, hurl⟩
  · rintro ⟨leader, hget, url, hurl⟩
    exact ⟨leader, index, hget, url, hurl, rfl⟩

/-- Storing at one more index, where storing twice is storing once. -/
theorem modify_mapIdx {α : Type} {l : List α} {f : ℕ → α → α} {p q : ℕ → Bool} {i : ℕ}
    (hf : ∀ a, f i (f i a) = f i a) (hq : ∀ j, q j = true ↔ p j = true ∨ j = i) :
    (l.mapIdx fun j a => if p j then f j a else a).modify i (f i) =
      l.mapIdx fun j a => if q j then f j a else a := by
  apply List.ext_getElem?
  intro j
  rw [List.getElem?_modify, List.getElem?_mapIdx, List.getElem?_mapIdx]
  cases hl : l[j]? with
  | none => rfl
  | some a =>
    by_cases hj : i = j
    · subst hj
      have hqi : q i = true := (hq i).mpr (.inr rfl)
      cases p i <;> simp [hqi, hf]
    · have hsame : q j = p j := by
        have hiff := hq j
        cases hp : p j <;> cases hqj : q j <;> simp_all
      simp [hj, hsame]

/-- A callback for a slot of the organisation stores its image. -/
theorem setInfoImage_withImages (hslot : slot ∈ o.imageSlots)
    (hgot : ∀ slot', got' slot' = true ↔ got slot' = true ∨ slot' = slot) :
    (o.withImages image got).setInfoImage (image slot) slot = some (o.withImages image got') := by
  cases slot with
  | program index =>
    obtain ⟨program, hget, -⟩ := mem_imageSlots_program.mp hslot
    have hlt : index < o.programs.length := (List.getElem?_eq_some_iff.mp hget).1
    have hleaders : ∀ j, got' (.leader j) = got (.leader j) := by
      intro j
      have hiff := hgot (.leader j)
      cases hp : got (.leader j) <;> cases hq : got' (.leader j) <;> simp_all
    have hprograms := modify_mapIdx (l := o.programs) (i := index)
      (f := fun j program => { program with infoImage := image (.program j) })
      (p := fun j => got (.program j)) (q := fun j => got' (.program j)) (fun _ => rfl)
      (fun j => (hgot (.program j)).trans (by simp))
    simp only [Detailed.setInfoImage, Detailed.withImages, List.length_mapIdx, if_pos hlt, hprograms, hleaders]
  | leader index =>
    obtain ⟨leader, hget, -⟩ := mem_imageSlots_leader.mp hslot
    have hlt : index < o.leaders.length := (List.getElem?_eq_some_iff.mp hget).1
    have hprograms : ∀ j, got' (.program j) = got (.program j) := by
      intro j
      have hiff := hgot (.program j)
      cases hp : got (.program j) <;> cases hq : got' (.program j) <;> simp_all
    have hleaders := modify_mapIdx (l := o.leaders) (i := index)
      (f := fun j leader => { leader with infoImage := image (.leader j) })
      (p := fun j => got (.leader j)) (q := fun j => got' (.leader j)) (fun _ => rfl)
      (fun j => (hgot (.leader j)).trans (by simp))
    simp only [Detailed.setInfoImage, Detailed.withImages, List.length_mapIdx, if_pos hlt, hprograms, hleaders]

theorem withImages_none (h : ∀ slot, got slot = false) : o.withImages image got = o := by
  have hsame : ∀ {α : Type} (l : List α), (l.mapIdx fun _ a => a) = l := by
    intro α l
    apply List.ext_getElem?
    intro index
    simp
  simp only [Detailed.withImages, h, Bool.false_eq_true, if_false, hsame]

/-- With all slots served the organisation is complete. -/
theorem withImages_all (h : ∀ slot, got slot = true ↔ slot ∈ o.imageSlots) :
    o.withImages image got = o.complete image := by
  have hprograms : ∀ index program, o.programs[index]? = some program →
      got (.program index) = program.infoImageUrl.isSome := by
    intro index program hget
    have hiff := (h (.program index)).trans mem_imageSlots_program
    cases hurl : program.infoImageUrl <;> cases hg : got (.program index) <;> simp_all
  have hleaders : ∀ index leader, o.leaders[index]? = some leader →
      got (.leader index) = leader.infoImageUrl.isSome := by
    intro index leader hget
    have hiff := (h (.leader index)).trans mem_imageSlots_leader
    cases hurl : leader.infoImageUrl <;> cases hg : got (.leader index) <;> simp_all
  unfold Detailed.withImages Detailed.complete
  congr 1
  · apply List.ext_getElem?
    intro index
    rw [List.getElem?_mapIdx, List.getElem?_mapIdx]
    cases hget : o.programs[index]? with
    | none => rfl
    | some program => rw [Option.map_some, Option.map_some, hprograms index program hget]
  · apply List.ext_getElem?
    intro index
    rw [List.getElem?_mapIdx, List.getElem?_mapIdx]
    cases hget : o.leaders[index]? with
    | none => rfl
    | some leader => rw [Option.map_some, Option.map_some, hleaders index leader hget]

/-! ## The join -/

/-- What holds whatever has happened: the counters differ by the callbacks to come, and without any
to come the rows are up to date. -/
structure Invariant (image : ImageSlot → Option UIImage) (o : Detailed UIImage)
    (vc : OrganisationDetailsViewController UIImage) : Prop where
  count : vc.queryCount = vc.queryFinishedCount + vc.pending.length
  rows : vc.pending = [] → vc.tableData = vc.organisation.setupTableData
  images : ∃ delivered, o.imageSlots.Perm (vc.requests ++ vc.pending ++ delivered) ∧
    vc.organisation = o.withImages image fun slot => decide (slot ∈ delivered)

theorem invariant_viewDidLoad (image : ImageSlot → Option UIImage) (o : Detailed UIImage) :
    Invariant image o (viewDidLoad o) where
  count := rfl
  rows _ := rfl
  images := ⟨[], by simp [viewDidLoad], (withImages_none fun _ => by simp).symm⟩

theorem invariant_loadImage (h : Invariant image o vc) (he : vc.Enabled .loadImage)
    (hs : vc.step image .loadImage = some vc') : Invariant image o vc' := by
  obtain ⟨hcount, -, delivered, hperm, himages⟩ := h
  unfold step at hs
  cases hrequests : vc.requests with
  | nil => exact absurd hrequests he
  | cons slot rest =>
    rw [hrequests] at hs hperm
    obtain rfl := Option.some.inj hs
    refine ⟨?_, ?_, delivered, ?_, himages⟩
    · simp only [List.length_cons]
      omega
    · intro hnone
      cases hnone
    · have hmove : (slot :: (rest ++ vc.pending)).Perm (rest ++ slot :: vc.pending) := List.perm_middle.symm
      exact hperm.trans (hmove.append_right delivered)

theorem invariant_callback (h : Invariant image o vc) (hmem : slot ∈ vc.pending) :
    ∃ vc', vc.step image (.callback slot) = some vc' ∧ Invariant image o vc' ∧
      vc'.requests = vc.requests ∧ vc'.pending = vc.pending.erase slot := by
  obtain ⟨hcount, -, delivered, hperm, himages⟩ := h
  have hslot : slot ∈ o.imageSlots := by
    apply hperm.symm.subset
    simp [hmem]
  have hset : vc.organisation.setInfoImage (image slot) slot =
      some (o.withImages image fun slot' => decide (slot' ∈ slot :: delivered)) := by
    rw [himages]
    exact setInfoImage_withImages hslot fun slot' => by simp [or_comm]
  have hlength := List.length_erase_of_mem hmem
  have hpos : 0 < vc.pending.length := List.length_pos_of_mem hmem
  have hmoved : o.imageSlots.Perm (vc.requests ++ vc.pending.erase slot ++ slot :: delivered) := by
    have hpending : (vc.pending ++ delivered).Perm (vc.pending.erase slot ++ slot :: delivered) :=
      ((List.perm_cons_erase hmem).append_right delivered).trans List.perm_middle.symm
    rw [List.append_assoc] at hperm ⊢
    exact hperm.trans (hpending.append_left vc.requests)
  refine ⟨_, by rw [step, hset]; rfl, ?_, ?_, ?_⟩ <;> unfold queryFinishedHandler <;> dsimp only <;>
    split
  case refine_1.isTrue =>
    refine ⟨?_, fun _ => rfl, slot :: delivered, hmoved, rfl⟩
    dsimp only
    omega
  case refine_1.isFalse hnot =>
    refine ⟨?_, ?_, slot :: delivered, hmoved, rfl⟩
    · dsimp only
      omega
    · intro hnone
      have hnone : vc.pending.erase slot = [] := hnone
      rw [hnone, List.length_nil] at hlength
      exact absurd (by omega) hnot
  all_goals rfl

theorem invariant_of_reached (h : Reached image o vc) : Invariant image o vc := by
  refine h.invariant (I := Invariant image o) ?_ (invariant_viewDidLoad image o)
  intro vc e vc' hinv he hs
  cases e with
  | loadImage => exact invariant_loadImage hinv he hs
  | callback slot =>
    obtain ⟨vc₁, hstep, hinv₁, -, -⟩ := invariant_callback hinv he
    rw [hs] at hstep
    obtain rfl := Option.some.inj hstep
    exact hinv₁

/-- Every event that may happen can, and brings the end nearer. -/
theorem left_step (h : Invariant image o vc) (he : vc.Enabled e) :
    ∃ vc', vc.step image e = some vc' ∧ vc'.left < vc.left := by
  cases e with
  | loadImage =>
    cases hrequests : vc.requests with
    | nil => exact absurd hrequests he
    | cons slot rest =>
      unfold step
      rw [hrequests]
      refine ⟨_, rfl, ?_⟩
      simp only [left, hrequests, List.length_cons]
      omega
  | callback slot =>
    have hmem : slot ∈ vc.pending := he
    obtain ⟨vc', hstep, -, hrequests, hpending⟩ := invariant_callback h hmem
    refine ⟨vc', hstep, ?_⟩
    have hlength := List.length_erase_of_mem hmem
    have hpos : 0 < vc.pending.length := List.length_pos_of_mem hmem
    rw [left, left, hrequests, hpending]
    omega

theorem exists_enabled (h : ¬ vc.Finished) : ∃ e, vc.Enabled e := by
  by_cases hrequests : vc.requests = []
  · cases hpending : vc.pending with
    | nil => exact absurd ⟨hrequests, hpending⟩ h
    | cons slot rest => exact ⟨.callback slot, by simp [Enabled, hpending]⟩
  · exact ⟨.loadImage, hrequests⟩

/-- Loading cannot get stuck or go on for ever, and after the last callback the table shows every
delivered image with its own program or leader. -/
theorem loadImages_complete (o : Detailed UIImage) (image : ImageSlot → Option UIImage)
    (vc : OrganisationDetailsViewController UIImage) (h : Reached image o vc) :
    (vc.Finished → vc.organisation = o.complete image ∧ vc.tableData = (o.complete image).setupTableData) ∧
      (¬ vc.Finished → ∃ e, vc.Enabled e) ∧
      ∀ e, vc.Enabled e → ∃ vc', vc.step image e = some vc' ∧ vc'.left < vc.left := by
  have hinv := invariant_of_reached h
  refine ⟨?_, exists_enabled, fun e he => left_step hinv he⟩
  rintro ⟨hrequests, hpending⟩
  obtain ⟨-, hrows, delivered, hperm, himages⟩ := hinv
  rw [hrequests, hpending] at hperm
  have hall : vc.organisation = o.complete image := by
    rw [himages]
    apply withImages_all
    intro slot
    rw [decide_eq_true_iff]
    exact hperm.symm.mem_iff
  exact ⟨hall, hall ▸ hrows hpending⟩

/-- A shelter with a picture of its walks. -/
def walks : Detailed String where
  id := "shelter"
  programs := [{ name := "Walks", about := "", infoImageUrl := some "walks.png" }, { name := "Meals", about := "" }]

theorem loadImages_complete_walks :
    ∃ vc : OrganisationDetailsViewController String, Reached (fun _ => some "dogs") walks vc ∧ vc.Finished ∧
      vc.tableData = (walks.complete fun _ => some "dogs").setupTableData := by
  have hasked : Reached (fun _ => some "dogs") walks
      { viewDidLoad walks with requests := [], queryCount := 1, pending := [.program 0] } :=
    .tail (e := .loadImage) .refl (List.cons_ne_nil _ _) rfl
  obtain ⟨vc, hstep, -⟩ :=
    (loadImages_complete walks _ _ hasked).2.2 (.callback (.program 0)) (List.mem_singleton_self _)
  have hcame : Reached (fun _ => some "dogs") walks vc :=
    .tail (e := .callback (.program 0)) hasked (List.mem_singleton_self _) hstep
  have hfinished : vc.Finished := by
    obtain rfl := Option.some.inj hstep
    exact ⟨rfl, rfl⟩
  exact ⟨vc, hcame, hfinished, ((loadImages_complete walks _ vc hcame).1 hfinished).2⟩

end OrganisationDetailsViewController

end Pledge
