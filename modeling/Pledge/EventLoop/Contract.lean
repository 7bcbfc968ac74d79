import Pledge.EventLoop.Footprint
import Pledge.EventLoop.Network

/-!
# Contracts

What a program relies on and what it keeps to, over its own turn and all of its callbacks. The
clients of a network that keep to their contracts can be considered one at a time.
-/

namespace EventLoop
open Program

/-- `holds` is found and left on the program's state, `captures` on every captured variable.
`answers` is what the program relies on when a request that it `asks` is answered. -/
structure Contract (σ ν ω : Type) {ρ : Type} (Resp : ρ → Type) where
  holds : σ → Prop
  captures : ν → Prop
  asks : ρ → Prop
  answers : (r : ρ) → Resp r → Prop
  emits : ω → Prop

variable {σ ε ν ω ρ α β : Type} {Resp : ρ → Type} {K : Contract σ ν ω Resp}
  {p q : Program σ ν ω Resp}

/-- `p` and its callbacks keep to `K`. -/
def Program.Meets (K : Contract σ ν ω Resp) : Program σ ν ω Resp → Prop
  | stop => True
  | emit o p => K.emits o ∧ p.Meets K
  | modify f p => (∀ s, K.holds s → K.holds (f s)) ∧ p.Meets K
  | read k => ∀ s, K.holds s → (k s).Meets K
  | alloc v k => K.captures v ∧ ∀ x, (k x).Meets K
  | load _ k => ∀ v, K.captures v → (k v).Meets K
  | store _ v p => K.captures v ∧ p.Meets K
  | request r callback p => K.asks r ∧ (∀ a, K.answers r a → (callback a).Meets K) ∧ p.Meets K

def Call.Meets (K : Contract σ ν ω Resp) (c : Call σ ν ω Resp) : Prop :=
  K.asks c.1 ∧ ∀ a, K.answers c.1 a → (c.2 a).Meets K

/-! ## Putting programs together -/

theorem meets_andThen (hp : p.Meets K) (hq : q.Meets K) : (p.andThen q).Meets K := by
  induction p with
  | stop => exact hq
  | emit o p ih => exact ⟨hp.1, ih hp.2⟩
  | modify f p ih => exact ⟨hp.1, ih hp.2⟩
  | read k ih => exact fun s hs => ih s (hp s hs)
  | alloc v k ih => exact ⟨hp.1, fun x => ih x (hp.2 x)⟩
  | load x k ih => exact fun v hv => ih v (hp v hv)
  | store x v p ih => exact ⟨hp.1, ih hp.2⟩
  | request r callback p _ ih => exact ⟨hp.1, hp.2.1, ih hp.2.2⟩

theorem meets_forEach {xs : List α} {body : α → Program σ ν ω Resp}
    (h : ∀ a ∈ xs, (body a).Meets K) : (forEach xs body).Meets K := by
  induction xs with
  | nil => exact trivial
  | cons a xs ih =>
    exact meets_andThen (h a List.mem_cons_self) (ih fun b hb => h b (List.mem_cons_of_mem a hb))

theorem meets_ask {r : ρ} {callback : Resp r → Program σ ν ω Resp} :
    (ask r callback).Meets K ↔ K.asks r ∧ ∀ a, K.answers r a → (callback a).Meets K :=
  ⟨fun h => ⟨h.1, h.2.1⟩, fun h => ⟨h.1, h.2, trivial⟩⟩

/-- The shared variable keeps its condition whatever is folded into it. -/
theorem meets_join {x : ℕ} {collect : ν → β → ν} {done : ν → Bool} {k : ν → Program σ ν ω Resp}
    {b : β} (hcollect : ∀ v, K.captures v → K.captures (collect v b))
    (hk : ∀ v, K.captures v → (k v).Meets K) : (join x collect done k b).Meets K := by
  intro v hv
  refine ⟨hcollect v hv, ?_⟩
  split
  · exact hk _ (hcollect v hv)
  · exact trivial

theorem meets_fanOut {xs : List α} {req : α → ρ} {report : (a : α) → Resp (req a) → β} {v : ν}
    {collect : ν → β → ν} {done : ν → Bool} {k : ν → Program σ ν ω Resp} (hv : K.captures v)
    (hreq : ∀ a ∈ xs, K.asks (req a))
    (hcollect : ∀ a ∈ xs, ∀ resp, K.answers (req a) resp → ∀ v, K.captures v →
      K.captures (collect v (report a resp)))
    (hk : ∀ v, K.captures v → (k v).Meets K) :
    (fanOut xs req report v collect done k).Meets K := by
  refine ⟨hv, fun x => meets_forEach fun a ha => meets_ask.mpr ⟨hreq a ha, fun resp hresp => ?_⟩⟩
  exact meets_join (hcollect a ha resp hresp) hk

/-- What stays within a footprint keeps to a contract that relies on nothing but its state. -/
theorem meets_of_within {F : Footprint σ ω ρ} (ha : ∀ r, F.asks r → K.asks r)
    (hm : ∀ f, F.modifies f → ∀ s, K.holds s → K.holds (f s)) (he : ∀ o, F.emits o → K.emits o)
    (hv : ∀ v, K.captures v) (hp : p.Within F) : p.Meets K := by
  induction p with
  | stop => exact trivial
  | emit o p ih => exact ⟨he o hp.1, ih hp.2⟩
  | modify f p ih => exact ⟨hm f hp.1, ih hp.2⟩
  | read k ih => exact fun s _ => ih s (hp s)
  | alloc v k ih => exact ⟨hv v, fun x => ih x (hp x)⟩
  | load x k ih => exact fun v _ => ih v (hp v)
  | store x v p ih => exact ⟨hv v, ih hp⟩
  | request r callback p hc ih => exact ⟨ha r hp.1, fun a _ => hc a (hp.2.1 a), ih hp.2.2⟩

/-! ## A turn -/

/-- Between two turns the contract holds of the state, of what is captured and pending, and of
the effects so far. -/
structure Config.Meets (K : Contract σ ν ω Resp) (c : Config σ ε ν ω Resp) : Prop where
  state : K.holds c.state.1
  heap : ∀ v ∈ c.heap, K.captures v
  pending : ∀ x ∈ c.pending, Call.Meets K x
  out : ∀ o ∈ c.out, K.emits o

section Exec

variable [Inhabited ν]

theorem meets_exec (hdefault : K.captures default) {c : Config σ ε ν ω Resp} (hp : p.Meets K)
    (hc : c.Meets K) : (p.exec c).Meets K := by
  induction p generalizing c with
  | stop => exact hc
  | emit o p ih =>
    refine ih (c := { c with out := c.out ++ [o] }) hp.2 ⟨hc.state, hc.heap, hc.pending, fun o' ho => ?_⟩
    rcases List.mem_append.mp ho with ho | ho
    · exact hc.out o' ho
    · obtain rfl := List.mem_singleton.mp ho
      exact hp.1
  | modify f p ih =>
    exact ih (c := { c with state := (f c.state.1, c.state.2) }) hp.2
      ⟨hp.1 _ hc.state, hc.heap, hc.pending, hc.out⟩
  | read k ih => exact ih _ (hp _ hc.state) hc
  | alloc v k ih =>
    refine ih _ (c := { c with heap := c.heap ++ [v] }) (hp.2 _)
      ⟨hc.state, fun v' hv => ?_, hc.pending, hc.out⟩
    rcases List.mem_append.mp hv with hv | hv
    · exact hc.heap v' hv
    · obtain rfl := List.mem_singleton.mp hv
      exact hp.1
  | load x k ih =>
    refine ih _ (hp _ ?_) hc
    rw [List.getD_eq_getElem?_getD]
    cases hx : c.heap[x]? with
    | none => exact hdefault
    | some v => exact hc.heap v (List.mem_of_getElem? hx)
  | store x v p ih =>
    refine ih (c := { c with heap := c.heap.set x v }) hp.2
      ⟨hc.state, fun v' hv => ?_, hc.pending, hc.out⟩
    rcases List.mem_or_eq_of_mem_set hv with hv | rfl
    · exact hc.heap v' hv
    · exact hp.1
  | request r callback p _ ih =>
    refine ih (c := { c with pending := c.pending ++ [⟨r, callback⟩] }) hp.2.2
      ⟨hc.state, hc.heap, fun x hx => ?_, hc.out⟩
    rcases List.mem_append.mp hx with hx | hx
    · exact hc.pending x hx
    · obtain rfl := List.mem_singleton.mp hx
      exact ⟨hp.1, hp.2.1⟩

end Exec

/-! ## Clients that keep to their contracts -/

structure Client.Meets (K : Contract σ ν ω Resp) (c : Client σ ν ω) : Prop where
  state : K.holds c.state
  heap : ∀ v ∈ c.heap, K.captures v
  out : ∀ o ∈ c.out, K.emits o

/-- An answer on its way that its program is ready for. -/
def Reply.Meets (K : Contract σ ν ω Resp) (x : Reply σ ε ν ω Resp) : Prop :=
  Call.Meets K ⟨x.request, x.callback⟩ ∧ K.answers x.request x.response

namespace Network

variable {ι τ : Type} [Inhabited ν] [DecidableEq ι] {owner : τ → ι}
  {serve : ε → (r : ρ) → Resp r → ε → Prop}
  {Ok : Network ι τ σ ε ν ω Resp → Move τ σ ε ν ω Resp → Prop}
  {n n' n₀ : Network ι τ σ ε ν ω Resp} {K : ι → Contract σ ν ω Resp}

/-- Every client and everything in flight keeps to the contract of its client. -/
structure Meets (owner : τ → ι) (K : ι → Contract σ ν ω Resp) (n : Network ι τ σ ε ν ω Resp) : Prop where
  client : ∀ i, (n.client i).Meets (K i)
  pending : ∀ x ∈ n.pending, x.2.Meets (K (owner x.1))
  answered : ∀ x ∈ n.answered, x.2.Meets (K (owner x.1))

omit [Inhabited ν] [DecidableEq ι] in
theorem meets_of_quiet (hq : n.Quiet) (hc : ∀ i, (n.client i).Meets (K i)) : n.Meets owner K := by
  refine ⟨hc, fun x hx => ?_, fun x hx => ?_⟩
  · rw [hq.1] at hx
    cases hx
  · rw [hq.2] at hx
    cases hx

theorem meets_turn (hdefault : ∀ i, (K i).captures default) {t : τ} (hn : n.Meets owner K)
    (hp : p.Meets (K (owner t))) : (n.turn owner t p).Meets owner K := by
  have hclient := hn.client (owner t)
  have hexec := meets_exec (hdefault (owner t)) hp
    (c := ⟨((n.client (owner t)).state, n.env), (n.client (owner t)).heap, [], (n.client (owner t)).out⟩)
    ⟨hclient.state, hclient.heap, by simp, hclient.out⟩
  refine ⟨fun i => ?_, fun x hx => ?_, hn.answered⟩
  · by_cases hi : i = owner t
    · subst hi
      simp only [turn, Function.update_self]
      exact ⟨hexec.state, hexec.heap, hexec.out⟩
    · simp only [turn, Function.update_of_ne hi]
      exact hn.client i
  · rcases List.mem_append.mp hx with hx | hx
    · exact hn.pending x hx
    · obtain ⟨c, hc, rfl⟩ := List.mem_map.mp hx
      exact hexec.pending c hc

/-- A move keeps the contracts: calls keep to them, and the server gives the answers that they
rely on. -/
theorem meets_step (hdefault : ∀ i, (K i).captures default) {m : Move τ σ ε ν ω Resp}
    (hn : n.Meets owner K) (hcall : ∀ t p, m = .call t p → p.Meets (K (owner t)))
    (hserve : ∀ pre t reply post, m = .serve pre t reply post → (K (owner t)).asks reply.request →
      serve n.env reply.request reply.response reply.env →
      (K (owner t)).answers reply.request reply.response)
    (hs : Step owner serve n m n') : n'.Meets owner K := by
  cases hs with
  | call t p => exact meets_turn hdefault hn (hcall t p rfl)
  | @serve pre post t reply hp hs =>
    have hreply := hn.pending _ (mem_of_taken hp)
    refine ⟨hn.client, fun x hx => hn.pending x (mem_of_mem_rest hp hx), fun x hx => ?_⟩
    rcases List.mem_append.mp hx with hx | hx
    · exact hn.answered x hx
    · obtain rfl := List.mem_singleton.mp hx
      exact ⟨hreply, hserve pre t reply post rfl hreply.1 hs⟩
  | @deliver pre post t reply hp =>
    obtain ⟨hcallback, hanswer⟩ := hn.answered _ (mem_of_taken hp)
    have hrest : ({ n with answered := pre ++ post } : Network ι τ σ ε ν ω Resp).Meets owner K :=
      ⟨hn.client, hn.pending, fun x hx => hn.answered x (mem_of_mem_rest hp hx)⟩
    exact meets_turn hdefault hrest (hcallback.2 _ hanswer)

/-- Contracts that rely on a condition of the server hold in every run, and so does the
condition. -/
theorem run_meets {I : ε → Prop} (hdefault : ∀ i, (K i).captures default)
    (hcall : ∀ n t p, Ok n (.call t p) → p.Meets (K (owner t)))
    (hserve : ∀ n pre t reply post, Ok n (.serve pre t reply post) → I n.env →
      (K (owner t)).asks reply.request → serve n.env reply.request reply.response reply.env →
      (K (owner t)).answers reply.request reply.response ∧ I reply.env)
    (h : Run owner serve Ok n₀ n) (h₀ : n₀.Meets owner K) (hi : I n₀.env) :
    n.Meets owner K ∧ I n.env := by
  refine run_invariant (I := fun n => n.Meets owner K ∧ I n.env) (fun n m n' hn hok hs => ?_) h ⟨h₀, hi⟩
  refine ⟨meets_step hdefault hn.1 (fun t p hm => hcall n t p (hm ▸ hok))
    (fun pre t reply post hm ha hr => (hserve n pre t reply post (hm ▸ hok) hn.2 ha hr).1) hs, ?_⟩
  cases hs with
  | call t p => exact hn.2
  | @serve pre post t reply hp hr =>
    exact (hserve n pre t reply post hok hn.2 (hn.1.pending _ (mem_of_taken hp)).1 hr).2
  | deliver hp => exact hn.2

/-! ## Moments of a run -/

/-- `m` is a moment of the run from `n₀` to `n`. -/
def Moment (owner : τ → ι) (serve : ε → (r : ρ) → Resp r → ε → Prop)
    (Ok : Network ι τ σ ε ν ω Resp → Move τ σ ε ν ω Resp → Prop)
    (n₀ n m : Network ι τ σ ε ν ω Resp) : Prop :=
  Run owner serve Ok n₀ m ∧ Run owner serve Ok m n

theorem Run.mono {Ok' : Network ι τ σ ε ν ω Resp → Move τ σ ε ν ω Resp → Prop}
    (hok : ∀ n m, Ok n m → Ok' n m) (h : Run owner serve Ok n₀ n) : Run owner serve Ok' n₀ n := by
  induction h with
  | refl => exact .refl
  | step _ hm hs ih => exact .step ih (hok _ _ hm) hs

/-- Every move of a run is made at one of its moments. -/
theorem run_moments (h : Run owner serve Ok n₀ n) :
    Run owner serve (fun m e => Ok m e ∧ Moment owner serve Ok n₀ n m) n₀ n := by
  induction h with
  | refl => exact .refl
  | @step n n' m h hok hs ih =>
    have hearlier := ih.mono fun k e hk => (⟨hk.1, hk.2.1, hk.2.2.step hok hs⟩ :
      Ok k e ∧ Moment owner serve Ok n₀ n' k)
    exact .step hearlier ⟨hok, h, Run.step .refl hok hs⟩ hs

end Network

end EventLoop
