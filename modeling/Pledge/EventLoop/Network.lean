import Pledge.EventLoop.Footprint

/-!
# Clients over a network

Several clients share one server. A request that was issued waits until the server handles
it, its answer until it arrives; both happen in any order.
-/

namespace EventLoop
open Program

structure Client (σ ν ω : Type) where
  state : σ
  heap : List ν
  out : List ω

/-- An answer on its way back, with the server as it was once it had answered. -/
structure Reply (σ ε ν ω : Type) {ρ : Type} (Resp : ρ → Type) where
  request : ρ
  callback : Resp request → Program σ ν ω Resp
  response : Resp request
  env : ε

/-- Requests and answers in flight are kept with the call that they belong to. -/
structure Network (ι τ σ ε ν ω : Type) {ρ : Type} (Resp : ρ → Type) where
  client : ι → Client σ ν ω
  env : ε
  pending : List (τ × Call σ ν ω Resp)
  answered : List (τ × Reply σ ε ν ω Resp)

/-- What may happen next: a client calls a program, the server handles a request, an answer
arrives. -/
inductive Move (τ σ ε ν ω : Type) {ρ : Type} (Resp : ρ → Type)
  | call (t : τ) (p : Program σ ν ω Resp)
  | serve (pre : List (τ × Call σ ν ω Resp)) (t : τ) (reply : Reply σ ε ν ω Resp)
      (post : List (τ × Call σ ν ω Resp))
  | deliver (pre : List (τ × Reply σ ε ν ω Resp)) (t : τ) (reply : Reply σ ε ν ω Resp)
      (post : List (τ × Reply σ ε ν ω Resp))

variable {ι τ σ ε ν ω ρ α : Type} {Resp : ρ → Type} [Inhabited ν] [DecidableEq ι]

namespace Network

omit [Inhabited ν] [DecidableEq ι] in
def Quiet (n : Network ι τ σ ε ν ω Resp) : Prop := n.pending = [] ∧ n.answered = []

/-- The client of `t` takes a turn. -/
def turn (owner : τ → ι) (t : τ) (p : Program σ ν ω Resp) (n : Network ι τ σ ε ν ω Resp) :
    Network ι τ σ ε ν ω Resp :=
  let c := n.client (owner t)
  let d := p.exec ⟨(c.state, n.env), c.heap, [], c.out⟩
  { n with
    client := Function.update n.client (owner t) ⟨d.state.1, d.heap, d.out⟩
    pending := n.pending ++ d.pending.map (t, ·) }

/-- `serve s r a s'` says that the server may answer `r` by `a`, going from `s` to `s'`. -/
inductive Step (owner : τ → ι) (serve : ε → (r : ρ) → Resp r → ε → Prop) :
    Network ι τ σ ε ν ω Resp → Move τ σ ε ν ω Resp → Network ι τ σ ε ν ω Resp → Prop
  | call (n : Network ι τ σ ε ν ω Resp) (t : τ) (p : Program σ ν ω Resp) :
      Step owner serve n (.call t p) (n.turn owner t p)
  | serve {n : Network ι τ σ ε ν ω Resp} {pre post : List (τ × Call σ ν ω Resp)} {t : τ}
      {reply : Reply σ ε ν ω Resp}
      (hp : n.pending = pre ++ (t, ⟨reply.request, reply.callback⟩) :: post)
      (hs : serve n.env reply.request reply.response reply.env) :
      Step owner serve n (.serve pre t reply post)
        { n with env := reply.env, pending := pre ++ post, answered := n.answered ++ [(t, reply)] }
  | deliver {n : Network ι τ σ ε ν ω Resp} {pre post : List (τ × Reply σ ε ν ω Resp)} {t : τ}
      {reply : Reply σ ε ν ω Resp} (hp : n.answered = pre ++ (t, reply) :: post) :
      Step owner serve n (.deliver pre t reply post)
        (({ n with answered := pre ++ post }).turn owner t (reply.callback reply.response))

/-- Runs whose moves all satisfy `Ok`. -/
inductive Run (owner : τ → ι) (serve : ε → (r : ρ) → Resp r → ε → Prop)
    (Ok : Network ι τ σ ε ν ω Resp → Move τ σ ε ν ω Resp → Prop) (n₀ : Network ι τ σ ε ν ω Resp) :
    Network ι τ σ ε ν ω Resp → Prop
  | refl : Run owner serve Ok n₀ n₀
  | step {n n' : Network ι τ σ ε ν ω Resp} {m : Move τ σ ε ν ω Resp} (h : Run owner serve Ok n₀ n)
      (hok : Ok n m) (hs : Step owner serve n m n') : Run owner serve Ok n₀ n'

variable {owner : τ → ι} {serve : ε → (r : ρ) → Resp r → ε → Prop}
  {Ok : Network ι τ σ ε ν ω Resp → Move τ σ ε ν ω Resp → Prop}
  {n n' n₀ : Network ι τ σ ε ν ω Resp} {m : Move τ σ ε ν ω Resp}

/-- What every allowed move preserves holds in every run. -/
theorem run_invariant {I : Network ι τ σ ε ν ω Resp → Prop}
    (hstep : ∀ n m n', I n → Ok n m → Step owner serve n m n' → I n')
    (h : Run owner serve Ok n₀ n) (h₀ : I n₀) : I n := by
  induction h with
  | refl => exact h₀
  | step _ hok hs ih => exact hstep _ _ _ ih hok hs

/-- A request that is handled at once, with its answer arriving next. -/
theorem Run.answer {t : τ} {r : ρ} {callback : Resp r → Program σ ν ω Resp} {a : Resp r} {s : ε}
    (h : Run owner serve Ok n₀ n) (pre post : List (τ × Call σ ν ω Resp))
    (hp : n.pending = pre ++ (t, ⟨r, callback⟩) :: post) (ha : n.answered = [])
    (hok : ∀ n m, (∀ t p, m ≠ .call t p) → Ok n m) (hs : serve n.env r a s) :
    Run owner serve Ok n₀
      (({ n with env := s, pending := pre ++ post, answered := [] }).turn owner t (callback a)) := by
  have hserved := h.step (m := .serve pre t ⟨r, callback, a, s⟩ post) (hok _ _ (by simp)) (.serve hp hs)
  rw [ha] at hserved
  exact hserved.step (m := .deliver [] t ⟨r, callback, a, s⟩ []) (hok _ _ (by simp)) (.deliver rfl)

end Network

/-! ## What a program may ask for -/

namespace Program

/-- Every request that `p` or a callback of it may issue satisfies `P`. -/
def Asks (P : ρ → Prop) : Program σ ν ω Resp → Prop
  | stop => True
  | emit _ p => p.Asks P
  | modify _ p => p.Asks P
  | read k => ∀ s, (k s).Asks P
  | alloc _ k => ∀ x, (k x).Asks P
  | load _ k => ∀ v, (k v).Asks P
  | store _ _ p => p.Asks P
  | request r callback p => P r ∧ (∀ a, (callback a).Asks P) ∧ p.Asks P

end Program

variable {β : Type} {P : ρ → Prop} {p q : Program σ ν ω Resp}

/-- A call in flight for which the same holds. -/
def Call.Asks (P : ρ → Prop) (c : Call σ ν ω Resp) : Prop := P c.1 ∧ ∀ a, (c.2 a).Asks P

/-- Only the requests are restricted. -/
def Footprint.asking (P : ρ → Prop) : Footprint σ ω ρ := ⟨P, fun _ => True, fun _ => True⟩

omit [Inhabited ν] in
theorem asks_iff_within : p.Asks P ↔ p.Within (.asking P) := by
  induction p with
  | stop => exact Iff.rfl
  | emit o p ih | modify f p ih => exact ⟨fun h => ⟨trivial, ih.mp h⟩, fun h => ih.mpr h.2⟩
  | read k ih | alloc v k ih | load x k ih => exact forall_congr' ih
  | store x v p ih => exact ih
  | request r callback p hc ih => exact and_congr Iff.rfl (and_congr (forall_congr' hc) ih)

omit [Inhabited ν] in
theorem call_asks_iff_within {c : Call σ ν ω Resp} : c.Asks P ↔ c.Within (.asking P) :=
  and_congr Iff.rfl (forall_congr' fun _ => asks_iff_within)

omit [Inhabited ν] in
theorem asks_forEach {xs : List α} {body : α → Program σ ν ω Resp} (h : ∀ a, (body a).Asks P) :
    (forEach xs body).Asks P :=
  asks_iff_within.mpr (within_forEach fun a _ => asks_iff_within.mp (h a))

omit [Inhabited ν] in
theorem asks_ask {r : ρ} {callback : Resp r → Program σ ν ω Resp} :
    (ask r callback).Asks P ↔ P r ∧ ∀ a, (callback a).Asks P :=
  ⟨fun h => ⟨h.1, h.2.1⟩, fun h => ⟨h.1, h.2, trivial⟩⟩

omit [Inhabited ν] in
theorem asks_join {x : ℕ} {collect : ν → β → ν} {done : ν → Bool} {k : ν → Program σ ν ω Resp}
    (hk : ∀ v, (k v).Asks P) (b : β) : (join x collect done k b).Asks P :=
  asks_iff_within.mpr (within_join (fun v => asks_iff_within.mp (hk v)) b)

omit [Inhabited ν] in
theorem asks_fanOut {xs : List α} {req : α → ρ} {report : (a : α) → Resp (req a) → β} {v : ν}
    {collect : ν → β → ν} {done : ν → Bool} {k : ν → Program σ ν ω Resp} (hreq : ∀ a, P (req a))
    (hk : ∀ v, (k v).Asks P) : (fanOut xs req report v collect done k).Asks P :=
  asks_iff_within.mpr (within_fanOut (fun a _ => hreq a) fun v => asks_iff_within.mp (hk v))

/-- A turn issues only what its program asks for. -/
theorem asks_exec {c : Config σ ε ν ω Resp} (hp : p.Asks P)
    (hc : ∀ x ∈ c.pending, Call.Asks P x) : ∀ x ∈ (p.exec c).pending, Call.Asks P x := by
  have hwithin : c.Within (.asking P) :=
    ⟨fun x hx => call_asks_iff_within.mp (hc x hx), fun _ _ => trivial⟩
  have hR : Respects (.asking P : Footprint σ ω ρ) (fun _ (r : ρ) (_ : Resp r) _ => True)
      fun _ _ : σ × ε => True := respects_true
  obtain ⟨hexec, -⟩ := within_exec hR (asks_iff_within.mp hp) hwithin
  exact fun x hx => call_asks_iff_within.mpr (hexec.pending x hx)

namespace Network

variable {owner : τ → ι} {serve : ε → (r : ρ) → Resp r → ε → Prop}
  {Ok : Network ι τ σ ε ν ω Resp → Move τ σ ε ν ω Resp → Prop}
  {n n' n₀ : Network ι τ σ ε ν ω Resp}

/-- Everything in flight asks for nothing but `P`. -/
structure Asks (P : ρ → Prop) (n : Network ι τ σ ε ν ω Resp) : Prop where
  pending : ∀ x ∈ n.pending, Call.Asks P x.2
  answered : ∀ x ∈ n.answered, ∀ a, (x.2.callback a).Asks P

theorem asks_turn {t : τ} (hn : n.Asks P) (hp : p.Asks P) : (n.turn owner t p).Asks P := by
  refine ⟨fun x hx => ?_, hn.answered⟩
  rcases List.mem_append.mp hx with hx | hx
  · exact hn.pending x hx
  · obtain ⟨c, hc, rfl⟩ := List.mem_map.mp hx
    exact asks_exec hp (by simp) c hc

theorem asks_step {m : Move τ σ ε ν ω Resp} (hn : n.Asks P)
    (hcall : ∀ t p, m = .call t p → p.Asks P) (hs : Step owner serve n m n') : n'.Asks P := by
  cases hs with
  | call t p => exact asks_turn hn (hcall t p rfl)
  | @serve pre post t reply hp _ =>
    refine ⟨fun x hx => hn.pending x (mem_of_mem_rest hp hx), fun x hx => ?_⟩
    rcases List.mem_append.mp hx with hx | hx
    · exact hn.answered x hx
    · obtain rfl := List.mem_singleton.mp hx
      exact (hn.pending _ (mem_of_taken hp)).2
  | deliver hp =>
    have hrest := fun x hx => hn.answered x (mem_of_mem_rest hp hx)
    exact asks_turn ⟨hn.pending, hrest⟩ (hn.answered _ (mem_of_taken hp) _)

/-- What the server keeps while it handles requests that satisfy `P`, it keeps in every run
of programs that ask for nothing else. -/
theorem run_env {I : ε → Prop} (hcall : ∀ n t p, Ok n (.call t p) → p.Asks P)
    (hserve : ∀ n pre t reply post, Ok n (.serve pre t reply post) → P reply.request →
      serve n.env reply.request reply.response reply.env → I n.env → I reply.env)
    (h : Run owner serve Ok n₀ n) (h₀ : n₀.Asks P) (hi : I n₀.env) : I n.env := by
  refine (run_invariant (I := fun n => n.Asks P ∧ I n.env) (fun n m n' hn hok hs => ?_) h
    ⟨h₀, hi⟩).2
  refine ⟨asks_step hn.1 (fun t p hm => hcall n t p (hm ▸ hok)) hs, ?_⟩
  cases hs with
  | call t p => exact hn.2
  | @serve pre post t reply hp hr =>
    exact hserve n pre t reply post hok (hn.1.pending _ (mem_of_taken hp)).1 hr hn.2
  | deliver hp => exact hn.2

end Network

end EventLoop
