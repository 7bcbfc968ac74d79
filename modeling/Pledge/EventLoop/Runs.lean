import Mathlib.Logic.Hydra
import Pledge.EventLoop.Program

/-!
# Runs of the event loop

Pending requests are answered one at a time, in any order. Whatever the answers,
only finitely many turns follow.
-/

namespace EventLoop
open Program

variable {σ ε ν ω ρ : Type} {Resp : ρ → Type} [Inhabited ν]
  {serve : σ × ε → (r : ρ) → Resp r → σ × ε → Prop} {c d e : Config σ ε ν ω Resp}

/-! ## The entry of a queue that is taken out -/

theorem mem_of_taken {α : Type} {l pre post : List α} {a : α} (hp : l = pre ++ a :: post) : a ∈ l :=
  hp ▸ List.mem_append_cons_self

theorem mem_of_mem_rest {α : Type} {l pre post : List α} {a x : α} (hp : l = pre ++ a :: post)
    (hx : x ∈ pre ++ post) : x ∈ l :=
  hp ▸ ((List.sublist_cons_self a post).append_left pre).subset hx

theorem eq_of_single {α : Type} {a b : α} {pre post : List α} (h : [a] = pre ++ b :: post) :
    pre = [] ∧ post = [] ∧ b = a := by
  cases pre with
  | nil =>
    obtain ⟨rfl, rfl⟩ := List.cons.inj h
    exact ⟨rfl, rfl, rfl⟩
  | cons c pre =>
    obtain ⟨-, h⟩ := List.cons.inj h
    exact absurd h.symm (by simp)

/-! ## Turns -/

/-- Some pending request is answered and its callback takes a turn. `serve s r a s'`
says that `r` may be answered by `a` while the environment moves `s` to `s'`. -/
inductive Delivers (serve : σ × ε → (r : ρ) → Resp r → σ × ε → Prop) :
    Config σ ε ν ω Resp → Config σ ε ν ω Resp → Prop
  | answer {c : Config σ ε ν ω Resp} {pre post : List (Call σ ν ω Resp)} {r : ρ}
      {callback : Resp r → Program σ ν ω Resp} {a : Resp r} {s : σ × ε}
      (hp : c.pending = pre ++ ⟨r, callback⟩ :: post) (hs : serve c.state r a s) :
      Delivers serve c ((callback a).exec { c with state := s, pending := pre ++ post })

abbrev Runs (serve : σ × ε → (r : ρ) → Resp r → σ × ε → Prop) :
    Config σ ε ν ω Resp → Config σ ε ν ω Resp → Prop :=
  Relation.ReflTransGen (Delivers serve)

def Config.Quiet (c : Config σ ε ν ω Resp) : Prop := c.pending = []

/-- A run to a configuration in which nothing is pending any more. -/
def Settles (serve : σ × ε → (r : ρ) → Resp r → σ × ε → Prop) (c d : Config σ ε ν ω Resp) : Prop :=
  Runs serve c d ∧ d.Quiet

theorem not_delivers_of_quiet (hc : c.Quiet) : ¬ Delivers serve c d := by
  intro h
  cases h with
  | answer hp _ =>
    rw [show c.pending = [] from hc] at hp
    simp at hp

theorem runs_of_quiet (hc : c.Quiet) (h : Runs serve c d) : d = c := by
  induction h using Relation.ReflTransGen.head_induction_on with
  | refl => rfl
  | head h _ _ => exact (not_delivers_of_quiet hc h).elim

theorem settles_of_quiet (hc : c.Quiet) : Settles serve c d ↔ d = c := by
  constructor
  · intro h
    exact runs_of_quiet hc h.1
  · rintro rfl
    exact ⟨.refl, hc⟩

/-- With one request pending, the next turn is its callback's. -/
theorem delivers_single {r : ρ} {callback : Resp r → Program σ ν ω Resp}
    (hc : c.pending = [⟨r, callback⟩]) :
    Delivers serve c d ↔ ∃ a s, serve c.state r a s ∧
      d = (callback a).exec { c with state := s, pending := [] } := by
  constructor
  · intro h
    cases h with
    | answer hp hs =>
      rw [hc, List.singleton_eq_append_iff] at hp
      rcases hp with ⟨rfl, hp⟩ | ⟨rfl, hp⟩
      · obtain ⟨hcall, rfl⟩ := List.cons.inj hp
        cases hcall
        exact ⟨_, _, hs, rfl⟩
      · simp at hp
  · rintro ⟨a, s, hs, rfl⟩
    exact .answer (show c.pending = [] ++ ⟨r, callback⟩ :: [] from hc) hs

theorem runs_single {r : ρ} {callback : Resp r → Program σ ν ω Resp}
    (hc : c.pending = [⟨r, callback⟩]) :
    Runs serve c d ↔ d = c ∨ ∃ a s, serve c.state r a s ∧
      Runs serve ((callback a).exec { c with state := s, pending := [] }) d := by
  constructor
  · intro h
    rcases h.cases_head with rfl | ⟨e, he, hed⟩
    · exact .inl rfl
    · obtain ⟨a, s, hs, rfl⟩ := (delivers_single hc).mp he
      exact .inr ⟨a, s, hs, hed⟩
  · rintro (rfl | ⟨a, s, hs, h⟩)
    · exact .refl
    · exact .head ((delivers_single hc).mpr ⟨a, s, hs, rfl⟩) h

theorem settles_single {r : ρ} {callback : Resp r → Program σ ν ω Resp}
    (hc : c.pending = [⟨r, callback⟩]) :
    Settles serve c d ↔ ∃ a s, serve c.state r a s ∧
      Settles serve ((callback a).exec { c with state := s, pending := [] }) d := by
  constructor
  · rintro ⟨h, hq⟩
    rcases (runs_single hc).mp h with rfl | ⟨a, s, hs, h⟩
    · simp [Config.Quiet, hc] at hq
    · exact ⟨a, s, hs, h, hq⟩
  · rintro ⟨a, s, hs, h, hq⟩
    exact ⟨(runs_single hc).mpr (.inr ⟨a, s, hs, h⟩), hq⟩

/-! ## Effects are never taken back -/

theorem exec_out (p : Program σ ν ω Resp) (c : Config σ ε ν ω Resp) :
    c.out <+: (p.exec c).out := by
  induction p generalizing c with
  | stop => exact List.prefix_rfl
  | emit o p ih =>
    exact (List.prefix_append c.out [o]).trans (ih { c with out := c.out ++ [o] })
  | modify f p ih => exact ih { c with state := (f c.state.1, c.state.2) }
  | read k ih => exact ih c.state.1 c
  | alloc v k ih => exact ih c.heap.length { c with heap := c.heap ++ [v] }
  | load x k ih => exact ih (c.heap.getD x default) c
  | store x v p ih => exact ih { c with heap := c.heap.set x v }
  | request r callback p _ ih => exact ih { c with pending := c.pending ++ [⟨r, callback⟩] }

theorem delivers_out (h : Delivers serve c d) : c.out <+: d.out := by
  cases h with
  | @answer pre post r callback a s hp hs =>
    exact exec_out (callback a) { c with state := s, pending := pre ++ post }

theorem runs_out (h : Runs serve c d) : c.out <+: d.out := by
  induction h with
  | refl => exact List.prefix_rfl
  | tail _ h ih => exact ih.trans (delivers_out h)

/-! ## Programs leave the environment alone -/

theorem exec_env (p : Program σ ν ω Resp) (c : Config σ ε ν ω Resp) :
    (p.exec c).state.2 = c.state.2 := by
  induction p generalizing c with
  | stop => rfl
  | emit o p ih => exact ih { c with out := c.out ++ [o] }
  | modify f p ih => exact ih { c with state := (f c.state.1, c.state.2) }
  | read k ih => exact ih c.state.1 c
  | alloc v k ih => exact ih c.heap.length { c with heap := c.heap ++ [v] }
  | load x k ih => exact ih (c.heap.getD x default) c
  | store x v p ih => exact ih { c with heap := c.heap.set x v }
  | request r callback p _ ih => exact ih { c with pending := c.pending ++ [⟨r, callback⟩] }

/-- What every answer does to the environment, a run does. -/
theorem runs_env {R : ε → ε → Prop} (hr : ∀ x, R x x) (ht : ∀ x y z, R x y → R y z → R x z)
    (hs : ∀ s r a s', serve s r a s' → R s.2 s'.2) (h : Runs serve c d) :
    R c.state.2 d.state.2 := by
  induction h with
  | refl => exact hr _
  | tail _ h ih =>
    cases h with
    | @answer pre post r callback a s hp ha =>
      rw [exec_env]
      exact ht _ _ _ ih (hs _ _ _ _ ha)

/-! ## Every run ends -/

/-- `p` may issue the call in its own turn. -/
inductive Issues : Program σ ν ω Resp → Call σ ν ω Resp → Prop
  | emit {o p a} (h : Issues p a) : Issues (.emit o p) a
  | modify {f p a} (h : Issues p a) : Issues (.modify f p) a
  | read {k a} (s : σ) (h : Issues (k s) a) : Issues (.read k) a
  | alloc {v k a} (x : ℕ) (h : Issues (k x) a) : Issues (.alloc v k) a
  | load {x k a} (v : ν) (h : Issues (k v) a) : Issues (.load x k) a
  | store {x v p a} (h : Issues p a) : Issues (.store x v p) a
  | here {r callback p} : Issues (.request r callback p) ⟨r, callback⟩
  | next {r callback p a} (h : Issues p a) : Issues (.request r callback p) a

/-- The first call is issued by the callback of the second. -/
def IssuedBy (a b : Call σ ν ω Resp) : Prop := ∃ resp, Issues (b.2 resp) a

omit [Inhabited ν] in
theorem acc_issuedBy (p : Program σ ν ω Resp) (a : Call σ ν ω Resp) (h : Issues p a) :
    Acc IssuedBy a := by
  induction p generalizing a with
  | stop => cases h
  | emit o p ih => cases h with | emit h => exact ih _ h
  | modify f p ih => cases h with | modify h => exact ih _ h
  | read k ih => cases h with | read s h => exact ih s _ h
  | alloc v k ih => cases h with | alloc x h => exact ih x _ h
  | load x k ih => cases h with | load v h => exact ih v _ h
  | store x v p ih => cases h with | store h => exact ih _ h
  | request r callback p ihc ih =>
    cases h with
    | here => exact .intro _ fun b ⟨resp, hb⟩ => ihc resp b hb
    | next h => exact ih _ h

omit [Inhabited ν] in
theorem issuedBy_wellFounded : WellFounded (@IssuedBy σ ν ω ρ Resp) :=
  ⟨fun a => .intro _ fun b ⟨resp, hb⟩ => acc_issuedBy (a.2 resp) b hb⟩

theorem exec_pending (p : Program σ ν ω Resp) (c : Config σ ε ν ω Resp) :
    ∃ calls, (p.exec c).pending = c.pending ++ calls ∧ ∀ a ∈ calls, Issues p a := by
  induction p generalizing c with
  | stop => exact ⟨[], by simp⟩
  | emit o p ih =>
    obtain ⟨l, hl, hi⟩ := ih { c with out := c.out ++ [o] }
    exact ⟨l, hl, fun a ha => .emit (hi a ha)⟩
  | modify f p ih =>
    obtain ⟨l, hl, hi⟩ := ih { c with state := (f c.state.1, c.state.2) }
    exact ⟨l, hl, fun a ha => .modify (hi a ha)⟩
  | read k ih =>
    obtain ⟨l, hl, hi⟩ := ih c.state.1 c
    exact ⟨l, hl, fun a ha => .read _ (hi a ha)⟩
  | alloc v k ih =>
    obtain ⟨l, hl, hi⟩ := ih c.heap.length { c with heap := c.heap ++ [v] }
    exact ⟨l, hl, fun a ha => .alloc _ (hi a ha)⟩
  | load x k ih =>
    obtain ⟨l, hl, hi⟩ := ih (c.heap.getD x default) c
    exact ⟨l, hl, fun a ha => .load _ (hi a ha)⟩
  | store x v p ih =>
    obtain ⟨l, hl, hi⟩ := ih { c with heap := c.heap.set x v }
    exact ⟨l, hl, fun a ha => .store (hi a ha)⟩
  | request r callback p _ ih =>
    obtain ⟨l, hl, hi⟩ := ih { c with pending := c.pending ++ [⟨r, callback⟩] }
    refine ⟨⟨r, callback⟩ :: l, by simpa using hl, ?_⟩
    intro a ha
    rcases List.mem_cons.mp ha with rfl | ha
    · exact .here
    · exact .next (hi a ha)

/-- An answered call is replaced by finitely many calls of its own callback. -/
theorem delivers_cutExpand (h : Delivers serve c d) :
    Relation.CutExpand IssuedBy (d.pending : Multiset (Call σ ν ω Resp)) c.pending := by
  cases h with
  | @answer pre post r callback a s hp hs =>
    obtain ⟨calls, hc, hi⟩ :=
      exec_pending (callback a) { c with state := s, pending := pre ++ post }
    refine ⟨calls, ⟨r, callback⟩, fun b hb => ⟨a, hi b hb⟩, ?_⟩
    rw [hc, hp, ← Multiset.coe_singleton, Multiset.coe_add, Multiset.coe_add, Multiset.coe_eq_coe]
    have hmid : (⟨r, callback⟩ :: (pre ++ post)).Perm (pre ++ ⟨r, callback⟩ :: post) :=
      List.perm_middle.symm
    exact (List.perm_append_singleton _ _).trans (hmid.append_right calls)

theorem Delivers.mono {serve' : σ × ε → (r : ρ) → Resp r → σ × ε → Prop}
    (hm : ∀ s r a s', serve s r a s' → serve' s r a s') (h : Delivers serve c d) :
    Delivers serve' c d := by
  cases h with
  | answer hp hs => exact .answer hp (hm _ _ _ _ hs)

theorem Settles.mono {serve' : σ × ε → (r : ρ) → Resp r → σ × ε → Prop}
    (hm : ∀ s r a s', serve s r a s' → serve' s r a s') (h : Settles serve c d) :
    Settles serve' c d :=
  ⟨Relation.ReflTransGen.mono (fun _ _ hd => Delivers.mono hm hd) _ _ h.1, h.2⟩

/-- There is no infinite run: `Delivers` is well founded backwards. -/
theorem delivers_wellFounded (serve : σ × ε → (r : ρ) → Resp r → σ × ε → Prop) :
    WellFounded (fun d c : Config σ ε ν ω Resp => Delivers serve c d) := by
  have hw : WellFounded (InvImage (Relation.CutExpand IssuedBy)
      fun c : Config σ ε ν ω Resp => (c.pending : Multiset (Call σ ν ω Resp))) :=
    InvImage.wf _ issuedBy_wellFounded.cutExpand
  exact Subrelation.wf (fun h => delivers_cutExpand h) hw

/-- When every request gets some answer, every configuration settles. -/
theorem exists_settles (ht : ∀ s r, ∃ a s', serve s r a s') (c : Config σ ε ν ω Resp) :
    ∃ d, Settles serve c d := by
  refine (delivers_wellFounded serve).induction (C := fun c => ∃ d, Settles serve c d) c ?_
  intro c ih
  cases hp : c.pending with
  | nil => exact ⟨c, .refl, hp⟩
  | cons call post =>
    obtain ⟨a, s, hs⟩ := ht c.state call.1
    have hd := Delivers.answer (show c.pending = [] ++ call :: post from hp) hs
    obtain ⟨d, hr, hq⟩ := ih _ hd
    exact ⟨d, .head hd hr, hq⟩

/-- Where every request may be rejected, a run can end from any moment with the environment as it is. -/
theorem exists_settles_rejected (hr : ∀ s r, ∃ a, serve s r a s) (c : Config σ ε ν ω Resp) :
    ∃ d, Settles serve c d ∧ d.state.2 = c.state.2 := by
  obtain ⟨d, hd⟩ : ∃ d, Settles (fun s r a s' => serve s r a s' ∧ s' = s) c d :=
    exists_settles (fun s r => (hr s r).imp fun a ha => ⟨s, ha, rfl⟩) c
  refine ⟨d, hd.mono fun _ _ _ _ h => h.1, ?_⟩
  have henv := runs_env (R := Eq) (fun _ => rfl) (fun _ _ _ => Eq.trans)
    (fun s _ _ s' (h : _ ∧ s' = s) => congrArg Prod.snd h.2.symm) hd.1
  exact henv.symm

end EventLoop
