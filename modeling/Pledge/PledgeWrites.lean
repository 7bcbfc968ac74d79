import Pledge.Browsing

/-!
# The writes of a checkout

What a press of Complete Checkout does to the stored pledges: nothing, or the writes of its rows,
answered one after the other.
-/

namespace Pledge

open EventLoop

/-- Pledge `id` of the user is for the organisation. -/
def Server.Stores (s : Server) (uid id organisationId : String) : Prop :=
  ∃ data, (s.account uid).donates.lookup id = some data ∧ data.organisation = some organisationId

/-- A pledge with this id is there, or was there. -/
def Server.Used (s : Server) (uid id : String) : Prop :=
  id ∈ (s.account uid).donates ∨ id ∈ (s.account uid).deletedDonates

/-- The organisation for which a request adds a pledge of the user. -/
def Request.addedFor (uid : String) : Request → Option String
  | .addDonate v data => if v = uid then data.organisation else none
  | _ => none

/-- Between `w` and `w'` no user's pledges were touched. -/
def SamePledges (w w' : World) : Prop :=
  ∀ uid, (w'.2.account uid).donates = (w.2.account uid).donates ∧
    (w'.2.account uid).deletedDonates = (w.2.account uid).deletedDonates

def Request.Pledges : Request → Prop
  | .addDonate .. | .setDonate .. | .deleteDonate .. => True
  | _ => False

/-- What leaves the pledges alone. -/
def sparing : Footprint Device Effect Request where
  asks r := ¬ r.Pledges
  modifies _ := True
  emits _ := True

/-- What a checkout asks for before it records its rows: the charge, and the write of its tips. -/
def Request.Precedes : Request → Prop
  | .pay .. => True
  | .updateUser _ data => data.tipsAmount ≠ none
  | _ => False

/-- What a checkout does once its rows have been recorded. -/
def ending : Footprint Device Effect Request where
  asks r := ¬ r.Pledges ∧ ¬ r.Precedes
  modifies _ := True
  emits _ := True

variable {w w' w₁ w₂ : World} {h : List Frame} {l : List Effect} {uid : String}

theorem sparing_of_ending {p : Prog} (hp : p.Within ending) : p.Within sparing :=
  Program.Within.mono (F := ending) (fun _ hr => hr.1) (fun _ _ => trivial) (fun _ _ => trivial) hp

theorem sparing_of_browsing {P : MyBucket → Prop} {p : Prog} (hp : p.Within (browsing P)) :
    p.Within sparing :=
  hp.mono (fun r hr => by cases r <;> first | exact hr.elim | exact id) (fun _ _ => trivial)
    fun _ _ => trivial

theorem SamePledges.refl (w : World) : SamePledges w w := fun _ => ⟨rfl, rfl⟩

theorem SamePledges.trans (h : SamePledges w w₁) (h' : SamePledges w₁ w₂) : SamePledges w w₂ :=
  fun uid => ⟨(h' uid).1.trans (h uid).1, (h' uid).2.trans (h uid).2⟩

theorem samePledges_answers {r : Request} {a : r.Response} (hr : ¬ r.Pledges) (h : Answers w r a w') :
    SamePledges w w' := by
  intro uid
  cases answers_pledges h uid with
  | kept hd hdel => exact ⟨hd, hdel⟩
  | added hr' | edited hr' | deleted hr' =>
    subst hr'
    exact absurd trivial hr

theorem samePledges_userUpdated (w : World) (uid : String) (old data : UserDoc) (f : LendUser → LendUser) :
    SamePledges w (w.userUpdated uid old data f) := by
  intro u
  by_cases hu : u = uid
  · subst hu
    simp [World.userUpdated]
  · simp [World.userUpdated, Server.setAccount, hu]

theorem organisation_merge {old data : DonateDoc} (h : data.organisation = none) :
    (old.merge data).organisation = old.organisation := by
  simp [DonateDoc.merge, h]

theorem used_answers {r : Request} {a : r.Response} (h : Answers w r a w') {id : String}
    (hused : w.2.Used uid id) : w'.2.Used uid id := by
  unfold Server.Used at hused ⊢
  cases answers_pledges h uid with
  | kept hd hdel =>
    rw [hd, hdel]
    exact hused
  | added _ _ _ hd hdel | edited _ hd hdel =>
    rw [hd, hdel, AList.mem_insert]
    exact hused.imp_left .inr
  | @deleted id' _ hd hdel =>
    rw [hd, hdel, AList.mem_erase]
    by_cases hid : id = id'
    · exact .inr (hid ▸ List.mem_cons_self)
    · exact hused.imp (fun hmem => ⟨hid, hmem⟩) (List.mem_cons_of_mem _)

/-- An answer stores an organisation at most under one new id, and only where one was added. -/
theorem stores_answers {r : Request} {a : r.Response} (hr : r.KeepsOrganisation) (h : Answers w r a w') :
    ∃ new, ∀ id o, w'.2.Stores uid id o →
      w.2.Stores uid id o ∨ (id = new ∧ ¬ w.2.Used uid new ∧ r.addedFor uid = some o) := by
  unfold Server.Stores
  cases answers_pledges h uid with
  | kept hd =>
    rw [hd]
    exact ⟨"", fun id o hs => .inl hs⟩
  | @added new data hr' hnew hundeleted hd =>
    refine ⟨new, fun id o hs => ?_⟩
    obtain ⟨data', hl, ho⟩ := hs
    rw [hd] at hl
    by_cases hid : id = new
    · subst hid
      rw [AList.lookup_insert] at hl
      cases hl
      refine .inr ⟨rfl, fun hused => hused.elim hnew hundeleted, ?_⟩
      simpa [hr', Request.addedFor] using ho
    · rw [AList.lookup_insert_ne hid] at hl
      exact .inl ⟨data', hl, ho⟩
  | @edited id' data hr' hd =>
    refine ⟨"", fun id o hs => .inl ?_⟩
    obtain ⟨data', hl, ho⟩ := hs
    rw [hd] at hl
    by_cases hid : id = id'
    · subst hid
      rw [AList.lookup_insert] at hl
      cases hl
      -- the merged document has the organisation that was stored before
      have hnone : data.organisation = none := by
        rw [hr'] at hr
        exact hr
      rw [organisation_merge hnone] at ho
      cases hold : (w.2.account uid).donates.lookup id with
      | none => simp [hold] at ho
      | some old => exact ⟨old, rfl, by simpa [hold] using ho⟩
    · rw [AList.lookup_insert_ne hid] at hl
      exact ⟨data', hl, ho⟩
  | @deleted id' hr' hd =>
    refine ⟨"", fun id o hs => .inl ?_⟩
    obtain ⟨data', hl, ho⟩ := hs
    rw [hd] at hl
    by_cases hid : id = id'
    · subst hid
      rw [AList.lookup_erase] at hl
      cases hl
    · rw [AList.lookup_erase_ne hid] at hl
      exact ⟨data', hl, ho⟩

theorem respects_samePledges : Respects sparing Answers SamePledges where
  refl := SamePledges.refl
  trans _ _ _ := SamePledges.trans
  modify _ _ _ := fun _ => ⟨rfl, rfl⟩
  answer _ _ _ _ hr ha := samePledges_answers hr ha

namespace DonateConfirmation

variable {vc : DonateConfirmation}

theorem ending_handler (success : Bool) : (vc.sendToUpdateDonatesHandler success).Within ending := by
  have hblock : (vc.completionBlock success).Within ending := by
    cases success
    · exact ⟨trivial, trivial, trivial⟩
    · exact ⟨trivial, trivial, trivial, trivial⟩
  intro d
  dsimp only
  split
  · refine within_withUid trivial hblock fun uid d => ?_
    dsimp only
    split
    · refine within_ask.mpr ⟨⟨id, fun h => h rfl⟩, fun error => ?_⟩
      split
      · exact ⟨trivial, hblock⟩
      · exact hblock
    · exact hblock
  · exact hblock

theorem ending_counted {max x : ℕ} (b : Bool) : (vc.counted max x b).Within ending :=
  within_join (fun _ => ending_handler _) b

theorem ending_addOneTimePaymentToFirebase : vc.addOneTimePaymentToFirebase.Within ending := by
  rw [addOneTimePaymentToFirebase_eq]
  refine ⟨trivial, fun d x => within_forEach fun p _ => ?_⟩
  exact within_withUid trivial (ending_counted _) fun uid =>
    within_ask.mpr ⟨⟨id, id⟩, fun _ => ending_counted _⟩

theorem sparing_handler (success : Bool) : (vc.sendToUpdateDonatesHandler success).Within sparing :=
  sparing_of_ending (ending_handler success)

theorem sparing_addOneTimePaymentToFirebase : vc.addOneTimePaymentToFirebase.Within sparing :=
  sparing_of_ending ending_addOneTimePaymentToFirebase

/-! ## A press -/

/-- The success screen is among the effects. -/
def Done (vc : DonateConfirmation) (l : List Effect) : Prop :=
  .showDonateResult vc.donateAmount vc.tipsAmount vc.isOneTimeMode ∈ l

/-- A press may come to the writes: nothing is to be paid, or a monthly charge goes through. -/
def Reaches (vc : DonateConfirmation) (d : Device) : Prop :=
  vc.Skips d ∨ (vc.isOneTimeMode = false ∧ d.userManager.user ≠ none)

/-- Between `w` and `w'` the writes of the rows were answered for user `uid`, each once. -/
structure Writes (vc : DonateConfirmation) (uid : String) (w w' : World) (success : Bool) : Prop where
  answered : ∃ (w₁ w₂ : World) (answers : List (Answered Bool Request.Response)), SamePledges w w₁ ∧
    (answers.map Sigma.fst).Perm (vc.donateItems.filterMap (write? uid)) ∧
    ServesAll Answers w₁ answers w₂ ∧ SamePledges w₂ w' ∧ succeeded answers = success

/-- What becomes of the stored pledges. -/
inductive Stores (vc : DonateConfirmation) (w w' : World) (l : List Effect) : Prop
  | kept (h : SamePledges w w')
      (hdone : vc.isOneTimeMode = false → vc.Done l →
        w.1.currentUser = none ∧ ∀ uid, vc.donateItems.filterMap (write? uid) = [])
  | written {uid : String} {success : Bool} (hu : w.1.currentUser = some uid) (hr : vc.Reaches w.1)
      (hw : vc.Writes uid w w' success) (hdone : vc.Done l ↔ success = true)

theorem write?_isSome_iff (uid uid' : String) (item : OrganisationWithAmount) :
    (write? uid item).isSome = (write? uid' item).isSome := by
  obtain ⟨amount, organisation, donateId⟩ := item
  cases donateId <;> by_cases ha : 0 < amount <;> simp [write?, ha]

/-- A recording of the rows leaves the pledges alone, or answers their writes. -/
theorem stores_sendToUpdateDonates (hy : vc.sendToUpdateDonates.Yields Answers w h w' l) :
    (SamePledges w w' ∧ (vc.Done l → w.1.currentUser = none ∧
        ∀ uid, vc.donateItems.filterMap (write? uid) = [])) ∨
      ∃ uid success, w.1.currentUser = some uid ∧ vc.Writes uid w w' success ∧
        (vc.Done l ↔ success = true) := by
  obtain ⟨l', rfl, hrecording⟩ := sendToUpdateDonates_cases hy
  cases hrecording with
  | nothing _ hw =>
    subst hw
    exact .inl ⟨.refl _, fun hd => by simp [Done] at hd⟩
  | @signedOut _ l₂ hu _ hk =>
    refine .inl ⟨(within_yields respects_samePledges (sparing_handler _) hk).1, fun hd => ⟨hu, ?_⟩⟩
    have hdone : .showDonateResult vc.donateAmount vc.tipsAmount vc.isOneTimeMode ∈ l₂ := by
      rcases List.mem_cons.mp hd with hd | hd
      · cases hd
      · rcases List.mem_append.mp hd with hd | hd
        · cases List.eq_of_mem_replicate hd
        · exact hd
    have hall := (handler_effects hk).2.mp hdone
    intro uid
    rw [List.filterMap_eq_nil_iff]
    intro item hitem
    have hnone := List.all_eq_true.mp hall item hitem
    rw [write?_isSome_iff "" uid] at hnone
    simpa using hnone
  | @answered uid answers w₂ _ _ hu _ hperm hserve hk =>
    have hsame := (within_yields respects_samePledges (sparing_handler _) hk).1
    refine .inr ⟨uid, _, hu, ⟨w, w₂, answers, .refl w, hperm, hserve, hsame, rfl⟩, ?_⟩
    rw [← (handler_effects hk).2]
    simp [Done]

theorem Writes.after {success : Bool} (hw : vc.Writes uid w₁ w' success) (h : SamePledges w w₁) :
    vc.Writes uid w w' success := by
  obtain ⟨w₂, w₃, answers, hbefore, hperm, hserve, hafter, hs⟩ := hw.answered
  exact ⟨w₂, w₃, answers, h.trans hbefore, hperm, hserve, hafter, hs⟩

theorem stores_press (hp : vc.Presses w w' l) : vc.Stores w w' l := by
  -- a recording that starts where the pledges are still those of `w`
  have hstart : ∀ w₁ l', SamePledges w w₁ → w₁.1.currentUser = w.1.currentUser → vc.Reaches w.1 →
      (vc.Done l → vc.Done l') → (vc.Done l' → vc.Done l) →
      vc.sendToUpdateDonates.Yields Answers w₁ [] w' l' → vc.Stores w w' l := by
    intro w₁ l' hsame hu hr hl hl' hy
    rcases stores_sendToUpdateDonates hy with ⟨hkept, hdone⟩ | ⟨uid, success, huid, hw, hdone⟩
    · exact .kept (hsame.trans hkept) fun _ hd => hu ▸ hdone (hl hd)
    · exact .written (hu ▸ huid) hr (hw.after hsame) ⟨fun hd => hdone.mp (hl hd), fun hs => hl' (hdone.mpr hs)⟩
  have hcharged : ∀ n, SamePledges w (vc.charged n w) := fun n uid => ⟨rfl, rfl⟩
  rcases presses_iff.mp hp with ⟨hskip, hy⟩ | ⟨-, n, -, rfl, rfl⟩ | ⟨-, huser, n, -, hy⟩
  · exact hstart w l (.refl w) rfl (.inl hskip) id id hy
  · exact .kept (hcharged n) fun _ hd => by cases hd
  · rw [recording] at hy
    split at hy
    · rename_i hm
      refine .kept ((hcharged n).trans ?_) fun hf => absurd (hm.symm.trans hf) (by simp)
      exact (within_yields respects_samePledges sparing_addOneTimePaymentToFirebase hy).1
    · rename_i hm
      have hreaches : vc.Reaches w.1 := .inr ⟨by simpa using hm, huser⟩
      obtain ⟨w₁, l₁, l₂, htips, rfl, hk⟩ := addTips_cases hy
      cases htips with
      | skipped | rejected => exact hstart _ l₂ (hcharged n) rfl hreaches id id hk
      | signedOut =>
        exact hstart _ l₂ (hcharged n) rfl hreaches (fun hd => by simpa [Done] using hd)
          (fun hd => by simpa [Done] using hd) hk
      | written =>
        exact hstart _ l₂ ((hcharged n).trans (samePledges_userUpdated _ _ _ _ _)) rfl hreaches id id hk

end DonateConfirmation

end Pledge
