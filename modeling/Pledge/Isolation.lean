import Pledge.EventLoop.Noninterference
import Pledge.SignedIn

/-!
# Users among themselves

Any number of clients of any number of users, with their requests and answers in any order. What
one user's clients do and see could have come about with nobody else around, and the pledges
they show were all stored at one moment. Queries are answered by the servers here: what a device
without a connection shows, or with a write of its own in flight, may be stored nowhere.
-/

namespace Pledge

open EventLoop Network

/-- What the clients of `uid` can tell of a server: its own account, and the organisations, causes
and filters that all share. -/
structure SameFor (uid : String) (s t : Server) : Prop where
  account : t.account uid = s.account uid
  filters : t.filters = s.filters
  organisations : t.organisations = s.organisations
  causes : t.causes = s.causes

variable {uid v : String} {s s' t : Server} {r : Request} {a : r.Response}

theorem SameFor.refl (uid : String) (s : Server) : SameFor uid s s := ⟨rfl, rfl, rfl, rfl⟩

theorem serves_organisations (h : Serves s r a s') : s'.organisations = s.organisations := by
  obtain ⟨d, h⟩ := h
  exact (answers_session h).2

/-! ## Requests of others -/

/-- Only requests of its own user change an account. -/
theorem accountChange_of_ne {b c : Account} (hr : r.OfUser v) (hv : v ≠ uid)
    (h : AccountChange uid r b c) : c = b := by
  cases h with
  | kept => rfl
  | created => exact hr.elim
  | userSet | userUpdated | paymentAdded | donateAdded | donateSet | donateDeleted =>
    exact (hv (Eq.symm hr)).elim

theorem sameFor_serves_other (hr : r.OfUser v) (hv : v ≠ uid) (hs : SameFor uid s t)
    (h : Serves s r a s') : SameFor uid s' t := by
  obtain ⟨d, h⟩ := h
  have haccount : s'.account uid = s.account uid := accountChange_of_ne hr hv (answers_account h uid)
  obtain ⟨-, n, hframe⟩ := answers_frame h
  refine ⟨hs.account.trans haccount.symm, ?_, ?_, ?_⟩
  · exact hs.filters.trans (congrArg Server.filters hframe).symm
  · exact hs.organisations.trans (congrArg Server.organisations hframe).symm
  · exact hs.causes.trans (congrArg Server.causes hframe).symm

/-! ## Requests of the user -/

/-- A write that one server carries out or rejects, the other does as well. -/
theorem sameFor_written {d : Device} {ok : Account → Account → Prop} {error : Option String}
    (hs : SameFor uid s t) (h : Written (d, s) r uid ok error (d, s')) :
    ∃ t', Written (d, t) r uid ok error (d, t') ∧ SameFor uid s' t' := by
  cases error with
  | some e =>
    obtain rfl : s' = s := congrArg Prod.snd h
    exact ⟨t, rfl, hs⟩
  | none =>
    obtain ⟨b, hok, he⟩ := h
    obtain rfl : s' = (s.setAccount uid b).record [r] := congrArg Prod.snd he
    refine ⟨(t.setAccount uid b).record [r], ⟨b, ?_, rfl⟩, ?_⟩
    · rw [hs.account]
      exact hok
    · exact ⟨by simp, hs.filters, hs.organisations, hs.causes⟩

theorem sameFor_serves_own (hr : r.OfUser uid) (hs : SameFor uid s t) (h : Serves s r a s') :
    ∃ t', Serves t r a t' ∧ SameFor uid s' t' := by
  obtain ⟨d, h⟩ := h
  cases r with
  | signIn | createUser | getDonatesForOrganisation => exact hr.elim
  | commitChanges | sendPasswordReset =>
    obtain rfl : s' = s := congrArg Prod.snd h
    exact ⟨t, ⟨d, rfl⟩, hs⟩
  | setUser | updateUser | addPayment | addDonate | setDonate | deleteDonate =>
    obtain rfl := hr
    simp only [Answers] at h
    obtain ⟨t', ht, hsame⟩ := sameFor_written hs h
    refine ⟨t', ⟨d, ?_⟩, hsame⟩
    simp only [Answers]
    exact ht
  | getUser | getPaymentHistory | getDonates =>
    obtain rfl := hr
    obtain ⟨he, hsnapshot⟩ := h
    obtain rfl : s' = s := congrArg Prod.snd he
    refine ⟨t, ⟨d, rfl, ?_⟩, hs⟩
    rw [hs.account]
    exact hsnapshot
  | getFilters =>
    obtain ⟨he, hsnapshot⟩ := h
    obtain rfl : s' = s := congrArg Prod.snd he
    refine ⟨t, ⟨d, rfl, ?_⟩, hs⟩
    rw [hs.filters]
    exact hsnapshot
  | getOrganisationsByCause | getOrganisations | getOrganisationsIn =>
    obtain ⟨he, hsnapshot⟩ := h
    obtain rfl : s' = s := congrArg Prod.snd he
    refine ⟨t, ⟨d, rfl, ?_⟩, hs⟩
    rw [hs.organisations]
    exact hsnapshot
  | getCauses =>
    obtain ⟨he, hsnapshot⟩ := h
    obtain rfl : s' = s := congrArg Prod.snd he
    refine ⟨t, ⟨d, rfl, ?_⟩, hs⟩
    rw [hs.causes]
    exact hsnapshot
  | pay amount mode =>
    obtain ⟨n, htoken, huser, he⟩ := h
    obtain rfl : s' = s.record (.replicate n (.pay amount mode)) := congrArg Prod.snd he
    refine ⟨t.record (.replicate n (.pay amount mode)), ⟨d, n, htoken, huser, rfl⟩, ?_⟩
    exact ⟨hs.account, hs.filters, hs.organisations, hs.causes⟩

/-! ## Runs -/

section Runs

variable {ι : Type} [DecidableEq ι] {who : ι → String} {n₀ n : Clients ι}

/-- The clients as they start: client `i` is signed in as `who i`, or nobody is. -/
structure Started (who : ι → String) (n₀ : Clients ι) : Prop where
  quiet : n₀.Quiet
  signedIn : ∀ i v, (n₀.client i).state.currentUser = some v → v = who i
  heap : ∀ i, (n₀.client i).heap = []
  out : ∀ i, (n₀.client i).out = []

omit [DecidableEq ι] in
theorem Started.meets (h : Started who n₀) (S : Server → Prop) :
    n₀.Meets id fun i => session (who i) S := by
  refine meets_of_quiet h.quiet fun i => ⟨h.signedIn i, ?_, ?_⟩
  · simp [h.heap i]
  · simp [h.out i]

theorem captures_default (uid : String) (S : Server → Prop) : (session uid S).captures default := by
  intro o ho
  cases ho

/-- What the clients of one user do and see, and what is stored for that user, could have come
about on any server that looks the same to that user, with no client of anyone else. -/
theorem repeated_alone (h₀ : Started who n₀) {s₀ : Server} (hs₀ : SameFor uid n₀.env s₀)
    (h : Run id Serves (Calling fun _ p => UserProgram p) n₀ n) :
    ∃ m, Run id Serves (Calling fun i p => who i = uid ∧ UserProgram p) { n₀ with env := s₀ } m ∧
      Looks id (who · = uid) (SameFor uid) n m := by
  let S : Server → Prop := fun s => s.organisations = n₀.env.organisations
  have hS : SameOrganisations S := fun s s' hs hs' => hs.trans hs'.symm
  have hsep : Separates (who · = uid) (fun i => session (who i) S) Serves (SameFor uid) := by
    constructor
    · rintro i s t r a s' rfl hr hst hserve
      exact sameFor_serves_own hr hst hserve
    · intro i s t r a s' hi hr hst hserve
      exact sameFor_serves_other hr hi hst hserve
  have hlooks : Looks id (who · = uid) (SameFor uid) n₀ { n₀ with env := s₀ } := by
    refine ⟨fun _ _ => rfl, hs₀, ?_, ?_⟩
    · simp [h₀.quiet.1, ofGroup]
    · simp [h₀.quiet.2, ofGroup]
  refine run_group (K := fun i => session (who i) S) (I := S) (fun i => captures_default (who i) S) hsep
    (fun i p hp => hp.meets hS ⟨n₀.env, rfl⟩) (fun i s r a s' hI _ hserve => ?_) (h₀.meets S) rfl hlooks h
  exact ⟨⟨s, s', hI, hserve⟩, (serves_organisations hserve).trans hI⟩

theorem run_organisations {Ok : Clients ι → Move ι Device Server Frame Effect Request.Response → Prop}
    (h : Run id Serves Ok n₀ n) : n.env.organisations = n₀.env.organisations := by
  refine run_invariant (I := fun n => n.env.organisations = n₀.env.organisations)
    (fun n m n' hn _ hs => ?_) h rfl
  cases hs with
  | call => exact hn
  | serve hp hserve => exact (serves_organisations hserve).trans hn
  | deliver => exact hn

/-- Whatever others are doing meanwhile, the pledges that a client shows are pledges of its user,
with amounts and organisations as they were stored together at one moment of the run. -/
theorem shown_at_moment (h₀ : Started who n₀)
    (h : Run id Serves (Calling fun _ p => UserProgram p) n₀ n) (i : ι) :
    ∀ o ∈ (n.client i).out, o.ShowsStored (who i) fun s => ∃ m,
      Moment id Serves (Calling fun _ p => UserProgram p) n₀ n m ∧ m.env = s := by
  let S : Server → Prop := fun s => ∃ m,
    Moment id Serves (Calling fun _ p => UserProgram p) n₀ n m ∧ m.env = s
  have hS : SameOrganisations S := by
    rintro s s' ⟨m, hm, rfl⟩ ⟨m', hm', rfl⟩
    exact (run_organisations hm.1).trans (run_organisations hm'.1).symm
  have hmeets := run_meets (K := fun i => session (who i) S) (I := fun _ => True)
    (fun i => captures_default (who i) S) (fun k t p hok => UserProgram.meets hS ⟨_, k, hok.2, rfl⟩ hok.1)
    (fun k _ _ reply _ hok _ _ hserve => ⟨⟨_, reply.env, ⟨k, hok.2, rfl⟩, hserve⟩, trivial⟩)
    (run_moments h) (h₀.meets S) trivial
  exact (hmeets.1.client i).out

end Runs

/-! ## Two donors -/

def donor (b : Bool) : String := if b then "ann" else "ben"

/-- A device of the donor, and one of somebody who has pledged nothing yet. -/
def twoDonors : Clients Bool :=
  { client := fun b => ⟨{ donorWorld.1 with currentUser := some (donor b) }, [], []⟩
    env := pledgedServer.setAccount "ben" { email := some "ben@mail.com" }
    pending := []
    answered := [] }

theorem started_twoDonors : Started donor twoDonors :=
  ⟨⟨rfl, rfl⟩, fun _ _ h => (Option.some.inj h).symm, fun _ => rfl, fun _ => rfl⟩

/-- Ann changes her amount while Ben's pledges are on their way. -/
theorem repeated_alone_ben : ∃ n m : Clients Bool,
    n.env.account "ann" ≠ twoDonors.env.account "ann" ∧
      Run id Serves (Calling fun _ p => UserProgram p) twoDonors n ∧
      Run id Serves (Calling fun b p => donor b = "ben" ∧ UserProgram p)
        { twoDonors with env := twoDonors.env.setAccount "ann" {} } m ∧
      Looks id (donor · = "ben") (SameFor "ben") n m := by
  have hcalls : Run id Serves (Calling fun _ p => UserProgram p) twoDonors
      ((twoDonors.turn id false MyImpacts.loadActiveDonates).turn id true
        (StartDonate.continueButtonPressed 5)) :=
    .step (.step .refl (m := .call false _) UserProgram.loadActiveDonates (.call _ _ _))
      (m := .call true _) (UserProgram.startDonate 5) (.call _ _ _)
  have hpending : ∃ c callback, ((twoDonors.turn id false MyImpacts.loadActiveDonates).turn id true
      (StartDonate.continueButtonPressed 5)).pending =
        [(false, c)] ++ (true, ⟨.updateUser "ann" { defaultDonateAmount := some 5 }, callback⟩) :: [] :=
    ⟨_, _, rfl⟩
  obtain ⟨c, callback, hp⟩ := hpending
  have hserved := hcalls.step (m := .serve [(false, c)] true ⟨_, callback, none,
      carriedOut (.updateUser "ann" { defaultDonateAmount := some 5 })
        (fun a => { a with user := a.user.map (·.update { defaultDonateAmount := some 5 }) })
        twoDonors.env⟩ []) trivial (.serve hp ⟨donorWorld.1, _, ⟨_, rfl, rfl⟩, rfl⟩)
  have hsame : SameFor "ben" twoDonors.env (twoDonors.env.setAccount "ann" {}) := ⟨rfl, rfl, rfl, rfl⟩
  obtain ⟨m, hm, hlooks⟩ := repeated_alone started_twoDonors hsame hserved
  refine ⟨_, m, fun he => ?_, hserved, hm, hlooks⟩
  have huser : some (some 5) = some (some (7 : Int)) :=
    congrArg (fun a => a.user.map UserDoc.defaultDonateAmount) he
  simp at huser

/-- The same two, both with two pledges, one for an organisation that exists. -/
def twoPledgers : Clients Bool :=
  { twoDonors with env := { pledgedServer with organisations := AList.singleton "shelter" {} } }

theorem started_twoPledgers : Started donor twoPledgers :=
  ⟨⟨rfl, rfl⟩, fun _ _ h => (Option.some.inj h).symm, fun _ => rfl, fun _ => rfl⟩

def pledgeDocuments : List (Document DonateDoc) :=
  [⟨"p1", some { amount := some 3, organisation := some "shelter" }⟩,
    ⟨"p2", some { amount := some 4, organisation := some "school" }⟩]

/-- The server once Ben's new amount is stored. -/
def benServer : Server :=
  (twoPledgers.env.setAccount "ben" { twoPledgers.env.account "ben" with
    user := (twoPledgers.env.account "ben").user.map (·.update { defaultDonateAmount := some 5 }) }).record
      [.updateUser "ben" { defaultDonateAmount := some 5 }]

theorem serves_benServer :
    Serves twoPledgers.env (.updateUser "ben" { defaultDonateAmount := some 5 }) none benServer :=
  ⟨donorWorld.1, _, ⟨_, rfl, rfl⟩, rfl⟩

theorem serves_pledgeDocuments : Serves benServer (.getDonates "ann") (some pledgeDocuments) benServer :=
  ⟨donorWorld.1, rfl, fun l hl => by
    obtain rfl := Option.some.inj hl
    exact .refl _⟩

theorem serves_shelter :
    Serves benServer (.getOrganisationsIn ["shelter", "school"]) (some [⟨"shelter", some {}⟩]) benServer :=
  ⟨donorWorld.1, rfl, fun l hl => by
    obtain rfl := Option.some.inj hl
    exact ⟨[⟨"shelter", some {}⟩], .refl _, rfl⟩⟩

/-- Ben changes his amount while Ann's pledges are on their way; then they are shown. -/
theorem shown_at_moment_ann : ∃ (n : Clients Bool) (donates : List DonateItem),
    n.env.account "ben" ≠ twoPledgers.env.account "ben" ∧ donates ≠ [] ∧
      .showActiveDonates donates ∈ (n.client true).out ∧
      (Effect.showActiveDonates donates).ShowsStored "ann" fun s => ∃ m,
        Moment id Serves (Calling fun _ p => UserProgram p) twoPledgers n m ∧ m.env = s := by
  have hok : ∀ (n : Clients Bool) m, (∀ t p, m ≠ .call t p) → Calling (fun _ p => UserProgram p) n m := by
    intro n m hm
    cases m with
    | call t p => exact absurd rfl (hm t p)
    | serve => exact trivial
    | deliver => exact trivial
  have hrecord : Serves twoPledgers.env (.getUser "ann") none twoPledgers.env :=
    ⟨donorWorld.1, rfl, .inl rfl⟩
  have hload : Run id Serves (Calling fun _ p => UserProgram p) twoPledgers _ :=
    .step .refl (m := .call true _) UserProgram.loadActiveDonates (.call _ _ _)
  have hfetch := hload.answer [] [] rfl rfl hok hrecord
  have hchange := hfetch.step (m := .call false _) (UserProgram.startDonate 5) (.call _ _ _)
  have hben := hchange.answer [_] [] rfl rfl hok serves_benServer
  have hdonates := hben.answer [] [] rfl rfl hok serves_pledgeDocuments
  have hshown := hdonates.answer [] [] rfl rfl hok serves_shelter
  refine ⟨_, [{ id := "p1", amount := 3, organisation := { id := "shelter" } }], ?_, by simp, ?_,
    shown_at_moment started_twoPledgers hshown true _ ?_⟩
  · intro he
    have huser : some (some 5) = some (some (7 : Int)) :=
      congrArg (fun a => a.user.map UserDoc.defaultDonateAmount) he
    simp at huser
  · exact List.mem_singleton_self _
  · exact List.mem_singleton_self _

end Pledge
