import Pledge.Checkout
import Pledge.EventLoop.Network
import Pledge.Loading
import Pledge.PledgeStore

/-!
# Pledges shared by several clients

Clients signed in as one user load the pledges, edit their buckets and commit them, while
the store handles their writes one by one in any order.
-/

namespace Pledge

open EventLoop

/-- What the app does with pledges: the loads of the bucket screen and of My Impacts, and
the commit of a confirmation screen, with whatever rows its bucket was left. -/
inductive PledgeProgram : Prog → Prop
  | viewDidLoad (vc : MyBucket) : PledgeProgram vc.viewDidLoad
  | loadActiveDonates : PledgeProgram MyImpacts.loadActiveDonates
  | sendToUpdateDonates (vc : DonateConfirmation) : PledgeProgram vc.sendToUpdateDonates

/-- Every document of the collection decodes. -/
def Server.PledgesDecode (s : Server) (uid : String) : Prop :=
  ∀ id doc, (s.account uid).donates.lookup id = some doc → DonateItemRef.init? ⟨id, some doc⟩ ≠ none

/-- A pledge is only ever added with both of its fields. -/
def Request.AddsWhole : Request → Prop
  | .addDonate _ data => data.amount ≠ none ∧ data.organisation ≠ none
  | _ => True

/-! ## What the programs ask for -/

section Asks

variable {k : Bool → Prog}

theorem asks_withUid {otherwise : Prog} {body : String → Prog} {P : Request → Prop}
    (ho : otherwise.Asks P) (hb : ∀ uid, (body uid).Asks P) :
    (FirestoreManager.withUid otherwise body).Asks P := by
  unfold FirestoreManager.withUid
  intro d
  dsimp only
  split
  · exact ho
  · exact hb _

theorem asks_updateDefaultDonateAmount {amount : Int} (hk : ∀ b, (k b).Asks Request.AddsWhole) :
    (FirestoreManager.updateDefaultDonateAmount amount k).Asks Request.AddsWhole := by
  refine asks_withUid (hk _) fun uid d => ?_
  dsimp only
  split
  · refine asks_ask.mpr ⟨trivial, fun error => ?_⟩
    split
    · exact hk _
    · exact hk _
  · exact hk _

theorem asks_updateDonate {item : OrganisationWithAmount} (hk : ∀ b, (k b).Asks Request.AddsWhole) :
    (DonateConfirmation.updateDonate item k).Asks Request.AddsWhole := by
  unfold DonateConfirmation.updateDonate
  cases item.donateId with
  | some donateId =>
    dsimp only
    split
    · exact asks_withUid (hk _) fun uid => asks_ask.mpr ⟨trivial, fun _ => hk _⟩
    · exact asks_withUid (hk _) fun uid => asks_ask.mpr ⟨trivial, fun _ => hk _⟩
  | none =>
    dsimp only
    split
    · exact asks_withUid (hk _) fun uid => asks_ask.mpr ⟨⟨nofun, nofun⟩, fun _ => hk _⟩
    · exact hk _

theorem asks_sendToUpdateDonates (vc : DonateConfirmation) :
    vc.sendToUpdateDonates.Asks Request.AddsWhole := by
  have hblock : ∀ b, (vc.completionBlock b).Asks Request.AddsWhole := by
    intro b
    cases b <;> exact trivial
  have hhandler : ∀ b, (vc.sendToUpdateDonatesHandler b).Asks Request.AddsWhole := by
    intro b d
    dsimp only
    split
    · exact asks_updateDefaultDonateAmount fun _ => hblock b
    · exact hblock b
  exact fun x => asks_forEach fun item => asks_updateDonate fun b => asks_join (fun _ => hhandler _) b

theorem asks_fetchFilters {usingCache : Bool} {k : Option (List FilterItem) → Prog}
    (hk : ∀ r, (k r).Asks Request.AddsWhole) :
    (FirestoreManager.fetchFilters usingCache k).Asks Request.AddsWhole := by
  intro d
  dsimp only
  split
  · exact hk _
  · refine asks_ask.mpr ⟨trivial, fun snapshot => ?_⟩
    cases snapshot with
    | none => exact hk _
    | some documents =>
      dsimp only
      split
      · exact hk _
      · exact hk _

theorem asks_fetchOrganisationsIn {ids : List String} {k : List OrganisationItem → Prog}
    (hk : ∀ r, (k r).Asks Request.AddsWhole) :
    (FirestoreManager.fetchOrganisationsIn ids k).Asks Request.AddsWhole := by
  unfold FirestoreManager.fetchOrganisationsIn
  split
  · exact hk _
  · exact fun d => asks_fanOut (fun _ => trivial) fun frame d => hk _

theorem asks_fetchDonates {k : Option (List DonateItem) → Prog}
    (hk : ∀ r, (k r).Asks Request.AddsWhole) :
    (FirestoreManager.fetchDonates k).Asks Request.AddsWhole := by
  refine asks_withUid (hk _) fun uid => asks_ask.mpr ⟨trivial, fun snapshot => ?_⟩
  cases snapshot with
  | none => exact hk _
  | some documents =>
    show (if (documents.filterMap DonateItemRef.init?).isEmpty = true then k (some []) else _).Asks _
    split
    · exact hk _
    · exact asks_fetchOrganisationsIn fun _ => hk _

theorem asks_viewDidLoad (vc : MyBucket) : vc.viewDidLoad.Asks Request.AddsWhole := by
  have hhandler : ∀ (vc : MyBucket) b, (vc.loadDataCompletionHandler b).Asks Request.AddsWhole := by
    intro vc b
    cases b
    · exact trivial
    · exact fun _ => trivial
  have hcause : ∀ (vc : MyBucket) id, (vc.loadCauseOrganisations id
      MyBucket.loadDataCompletionHandler).Asks Request.AddsWhole := by
    intro vc id
    unfold MyBucket.loadCauseOrganisations
    split
    · exact hhandler _ _
    · exact hhandler _ _
    · refine asks_ask.mpr ⟨trivial, fun snapshot => ?_⟩
      unfold FirestoreManager.organisationsCallback
      cases snapshot with
      | none => exact hhandler _ _
      | some documents =>
        dsimp only
        split
        · exact asks_fetchFilters fun _ d => hhandler _ _
        · exact trivial
  intro d
  dsimp only
  split
  · show (if _ then _ else _ : Prog).Asks _
    split
    · exact hcause _ _
    · refine asks_fetchDonates fun donates => ?_
      cases donates with
      | none => exact hhandler _ _
      | some donates => exact hcause _ _
  · exact trivial

theorem asks_loadActiveDonates : MyImpacts.loadActiveDonates.Asks Request.AddsWhole := by
  refine asks_withUid (asks_fetchDonates fun lends => ?_)
    fun uid => asks_ask.mpr ⟨trivial, fun snapshot => ?_⟩
  · cases lends <;> exact trivial
  split
  · simp only [Program.Asks]
    exact asks_fetchDonates fun lends => by cases lends <;> exact trivial
  · exact asks_fetchDonates fun lends => by cases lends <;> exact trivial

theorem PledgeProgram.asks {p : Prog} (h : PledgeProgram p) : p.Asks Request.AddsWhole := by
  cases h with
  | viewDidLoad vc => exact asks_viewDidLoad vc
  | loadActiveDonates => exact asks_loadActiveDonates
  | sendToUpdateDonates vc => exact asks_sendToUpdateDonates vc

end Asks

/-! ## The store -/

theorem init?_ne_none {id : String} {doc : DonateDoc} :
    DonateItemRef.init? ⟨id, some doc⟩ ≠ none ↔ doc.amount ≠ none ∧ doc.organisation ≠ none := by
  obtain ⟨amount, organisation⟩ := doc
  cases amount <;> cases organisation <;> simp [DonateItemRef.init?]

/-- A pledge that is edited is there, or the edit is turned down. -/
def EditsExisting (uid : String) (s : Server) (r : Request) (s' : Server) : Prop :=
  ∀ id data, r = .setDonate uid id data → id ∈ (s.account uid).donates ∨ s' = s

theorem pledgesDecode_serves {s s' : Server} {r : Request} {a : r.Response} {uid : String}
    (hr : r.AddsWhole) (hs : Serves s r a s') (hok : EditsExisting uid s r s')
    (h : s.PledgesDecode uid) : s'.PledgesDecode uid := by
  obtain ⟨d, ha⟩ := hs
  intro id doc hdoc
  cases answers_pledges ha uid with
  | kept hk hd =>
    rw [hk] at hdoc
    exact h id doc hdoc
  | @added id' data he hid hdel hk hd =>
    subst he
    rw [hk] at hdoc
    by_cases hi : id = id'
    · subst hi
      rw [AList.lookup_insert] at hdoc
      obtain rfl := Option.some.inj hdoc
      exact init?_ne_none.mpr hr
    · rw [AList.lookup_insert_ne hi] at hdoc
      exact h id doc hdoc
  | @edited id' data he hk hd =>
    rcases hok id' data he with hmem | hsame
    · rw [hk] at hdoc
      by_cases hi : id = id'
      · subst hi
        obtain ⟨old, hold⟩ := Option.isSome_iff_exists.mp (AList.lookup_isSome.mpr hmem)
        rw [AList.lookup_insert] at hdoc
        obtain rfl := Option.some.inj hdoc
        obtain ⟨hamount, horganisation⟩ := init?_ne_none.mp (h id old hold)
        refine init?_ne_none.mpr ?_
        simp [DonateDoc.merge, hold, hamount, horganisation]
      · rw [AList.lookup_insert_ne hi] at hdoc
        exact h id doc hdoc
    · rw [hsame] at hdoc
      exact h id doc hdoc
  | @deleted id' he hk hd =>
    rw [hk] at hdoc
    by_cases hi : id = id'
    · subst hi
      rw [AList.lookup_erase] at hdoc
      cases hdoc
    · rw [AList.lookup_erase_ne hi] at hdoc
      exact h id doc hdoc

/-! ## Several clients -/

/-- The clients of one store; each call belongs to the client that made it. -/
abbrev Clients (ι : Type) : Type := Network ι ι Device Server Frame Effect Request.Response

/-- Clients call what the app does with pledges, and the store carries out no edit of a
pledge that is gone. -/
def EditsKept {ι : Type} (uid : String) (n : Clients ι) :
    Move ι Device Server Frame Effect Request.Response → Prop
  | .call _ p => PledgeProgram p
  | .serve _ _ reply _ => EditsExisting uid n.env reply.request reply.env
  | .deliver .. => True

/-- Whatever the clients do and however their writes interleave, every stored pledge stays
readable as long as no edit is carried out on a pledge that is gone. -/
theorem pledges_decode {ι : Type} [DecidableEq ι] {uid : String} {n₀ n : Clients ι}
    (hq : n₀.Quiet) (hd : n₀.env.PledgesDecode uid)
    (h : Network.Run id Serves (EditsKept uid) n₀ n) : n.env.PledgesDecode uid := by
  have h₀ : n₀.Asks Request.AddsWhole := by
    refine ⟨fun x hx => ?_, fun x hx => ?_⟩
    · rw [hq.1] at hx
      cases hx
    · rw [hq.2] at hx
      cases hx
  refine Network.run_env (I := fun s => s.PledgesDecode uid) ?_ ?_ h h₀ hd
  · intro n t p hok
    exact PledgeProgram.asks hok
  · intro n pre t reply post hok hr hs hi
    exact pledgesDecode_serves hr hs hok hi

/-! ## Two clients -/

/-- The donor has pledged three to the shelter and four to the school. -/
def pledgedServer : Server :=
  { donorWorld.2 with account := fun _ =>
      { donorWorld.2.account "ann" with
        donates := (AList.insert "p1" { amount := some 3, organisation := some "shelter" }
          (AList.insert "p2" { amount := some 4, organisation := some "school" } ∅)) } }

/-- Two devices of the donor; nothing is in flight. -/
def twoDevices : Clients Bool :=
  { client := fun _ => ⟨donorWorld.1, [], []⟩
    env := pledgedServer
    pending := []
    answered := [] }

/-- The bucket that My Impacts opens for the two pledges. -/
def pledgedBucket : MyBucket :=
  (BucketScreen.viewDidLoad donorWorld.1.userManager
    { myImpactDonates := some
        [{ id := "p1", amount := 3, organisation := BucketScreen.shelter },
          { id := "p2", amount := 4, organisation := { id := "school" } }] }).vc

/-- Everything is moved to the school. -/
def movedBucket : MyBucket := (pledgedBucket.sliderMoved 0 0).sliderMoved 1 7

theorem pledgesDecode_pledgedServer : pledgedServer.PledgesDecode "ann" := by
  intro id doc hdoc
  have hmem := AList.mem_lookup_iff.mp hdoc
  have hall : ∀ e ∈ (pledgedServer.account "ann").donates.entries,
      DonateItemRef.init? ⟨e.1, some e.2⟩ ≠ none := by decide
  exact hall _ hmem

/-- Both devices commit their buckets. -/
def committed (first second : MyBucket) : Clients Bool :=
  (twoDevices.turn id true (first.showDonateConfirmation 3).sendToUpdateDonates).turn id false
    (second.showDonateConfirmation 3).sendToUpdateDonates

theorem run_committed {Ok : Clients Bool → Move Bool Device Server Frame Effect Request.Response → Prop}
    (hok : ∀ n t p, PledgeProgram p → Ok n (.call t p)) (first second : MyBucket) :
    Network.Run id Serves Ok twoDevices (committed first second) :=
  .step (.step .refl (hok _ _ _ (.sendToUpdateDonates _)) (.call _ _ _))
    (hok _ _ _ (.sendToUpdateDonates _)) (.call _ _ _)

/-- The store after the request of `ann` was carried out as `f`. -/
def carriedOut (r : Request) (f : Account → Account) (s : Server) : Server :=
  (s.setAccount "ann" (f (s.account "ann"))).record [r]

def edited (id : String) (data : DonateDoc) (a : Account) : Account :=
  { a with donates := a.donates.insert id (((a.donates.lookup id).getD {}).merge data) }

def removed (id : String) (a : Account) : Account :=
  { a with donates := a.donates.erase id, deletedDonates := id :: a.deletedDonates }

/-- The edit of a device whose bucket still has all pledges. -/
theorem pledges_decode_ann : ∃ n, n.env ≠ pledgedServer ∧ n.env.PledgesDecode "ann" ∧
    Network.Run id Serves (EditsKept "ann") twoDevices n := by
  have hpending : ∃ callback post, (committed pledgedBucket pledgedBucket).pending =
      [] ++ (true, ⟨.setDonate "ann" "p1" { amount := some 3 }, callback⟩) :: post := ⟨_, _, rfl⟩
  obtain ⟨callback, post, hp⟩ := hpending
  have hrun : Network.Run id Serves (EditsKept "ann") twoDevices _ :=
    .step (run_committed (fun _ _ _ h => h) pledgedBucket pledgedBucket)
      (m := .serve [] true ⟨_, callback, none, carriedOut (.setDonate "ann" "p1" { amount := some 3 })
        (edited "p1" { amount := some 3 }) pledgedServer⟩ post)
      (by
        rintro id data ⟨rfl, rfl⟩
        exact .inl (by decide))
      (.serve hp ⟨donorWorld.1, _, rfl, rfl⟩)
  refine ⟨_, ?_, pledges_decode ⟨rfl, rfl⟩ pledgesDecode_pledgedServer hrun, hrun⟩
  intro he
  have hj := congrArg Server.journal he
  simp [carriedOut, pledgedServer, donorWorld] at hj

/-- One device deletes the pledge to the shelter, then the store merges the other device's
edit of it into nothing. -/
theorem not_pledges_decode :
    ¬ ∀ (uid : String) (n₀ n : Clients Bool), n₀.Quiet → n₀.env.PledgesDecode uid →
      Network.Run id Serves (fun _ m => ∀ t p, m = .call t p → PledgeProgram p) n₀ n →
      n.env.PledgesDecode uid := by
  intro h
  have hpending : ∃ c₁ c₂ c₃ post, (committed movedBucket pledgedBucket).pending =
      [] ++ (true, ⟨.deleteDonate "ann" "p1", c₁⟩) :: (true, c₂) ::
        (false, ⟨.setDonate "ann" "p1" { amount := some 3 }, c₃⟩) :: post := ⟨_, _, _, _, rfl⟩
  obtain ⟨c₁, c₂, c₃, post, hp⟩ := hpending
  have hrun : Network.Run id Serves (fun _ m => ∀ t p, m = .call t p → PledgeProgram p)
      twoDevices (committed movedBucket pledgedBucket) :=
    run_committed (fun n t p hp t' p' he => by cases he; exact hp) movedBucket pledgedBucket
  have hdeleted := Network.Run.step hrun
    (m := .serve [] true ⟨_, c₁, none, carriedOut (.deleteDonate "ann" "p1") (removed "p1") pledgedServer⟩ _)
    (fun t p he => by cases he) (.serve hp ⟨donorWorld.1, _, rfl, rfl⟩)
  have hedited := Network.Run.step hdeleted
    (m := .serve [(true, c₂)] false ⟨_, c₃, none,
      carriedOut (.setDonate "ann" "p1" { amount := some 3 }) (edited "p1" { amount := some 3 })
        (carriedOut (.deleteDonate "ann" "p1") (removed "p1") pledgedServer)⟩ post)
    (fun t p he => by cases he) (.serve rfl ⟨donorWorld.1, _, rfl, rfl⟩)
  have hlookup : ((carriedOut (.setDonate "ann" "p1" { amount := some 3 })
      (edited "p1" { amount := some 3 }) (carriedOut (.deleteDonate "ann" "p1") (removed "p1")
        pledgedServer)).account "ann").donates.lookup "p1" = some { amount := some 3 } := by
    decide
  have hdecode := h "ann" _ _ ⟨rfl, rfl⟩ pledgesDecode_pledgedServer hedited
  exact hdecode "p1" _ hlookup rfl

end Pledge
