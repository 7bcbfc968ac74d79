import Pledge.EventLoop.Yields

/-!
# A call among others

While a call waits for its answers, others take their turns on the same state. Whatever they do
to it in between, the call runs as it would alone. An answer that comes too late for its callback
is as good as none to the call.
-/

namespace EventLoop
open Program

variable {σ ε ν ω ρ : Type} {Resp : ρ → Type}

/-- Others may have moved the state along `I` before the environment answers. -/
def interfered (I : σ × ε → σ × ε → Prop) (serve : σ × ε → (r : ρ) → Resp r → σ × ε → Prop)
    (s : σ × ε) (r : ρ) (a : Resp r) (s' : σ × ε) : Prop :=
  ∃ t, I s t ∧ serve t r a s'

/-- A call between two of its turns. -/
structure Waiting (σ ν ω : Type) {ρ : Type} (Resp : ρ → Type) where
  heap : List ν
  pending : List (Call σ ν ω Resp)
  out : List ω

/-- The call of a configuration. -/
def Config.waiting (c : Config σ ε ν ω Resp) : Waiting σ ν ω Resp := ⟨c.heap, c.pending, c.out⟩

variable [Inhabited ν] {I J : σ × ε → σ × ε → Prop}
  {serve : σ × ε → (r : ρ) → Resp r → σ × ε → Prop} {c₀ c d : Config σ ε ν ω Resp}
  {x : Waiting σ ν ω Resp} {lost pre post : List (Call σ ν ω Resp)} {s s' : σ × ε}
  {p : Program σ ν ω Resp}

/-- Started in `c₀` the call has come to `x`, and the others have since led to `s`. For the call, the
`lost` ones are still in flight. -/
def Among (I : σ × ε → σ × ε → Prop) (serve : σ × ε → (r : ρ) → Resp r → σ × ε → Prop)
    (c₀ : Config σ ε ν ω Resp) (x : Waiting σ ν ω Resp) (lost : List (Call σ ν ω Resp)) (s : σ × ε) :
    Prop :=
  ∃ t q, Runs (interfered I serve) c₀ ⟨t, x.heap, q, x.out⟩ ∧ q.Perm (x.pending ++ lost) ∧ I t s

theorem among_start (hI : ∀ s, I s s) : Among I serve c c.waiting [] c.state :=
  ⟨c.state, c.pending, .refl, by simp [Config.waiting], hI _⟩

theorem Among.others (hI : ∀ s t u, I s t → I t u → I s u) (h : Among I serve c₀ x lost s) (hs : I s s') :
    Among I serve c₀ x lost s' := by
  obtain ⟨t, q, hruns, hperm, ht⟩ := h
  exact ⟨t, q, hruns, hperm, hI _ _ _ ht hs⟩

/-- What else is in flight does not change a turn. -/
theorem exec_queue (p : Program σ ν ω Resp) (s : σ × ε) (h : List ν) (o : List ω) :
    ∃ s' h' calls o', ∀ q, p.exec ⟨s, h, q, o⟩ = ⟨s', h', q ++ calls, o'⟩ := by
  induction p generalizing s h o with
  | stop => exact ⟨s, h, [], o, fun q => by simp⟩
  | emit e p ih => exact ih s h (o ++ [e])
  | modify f p ih => exact ih (f s.1, s.2) h o
  | read k ih => exact ih s.1 s h o
  | alloc v k ih => exact ih h.length s (h ++ [v]) o
  | load y k ih => exact ih (h.getD y default) s h o
  | store y v p ih => exact ih s (h.set y v) o
  | request r callback p _ ih =>
    obtain ⟨s', h', calls, o', he⟩ := ih s h o
    refine ⟨s', h', ⟨r, callback⟩ :: calls, o', fun q => ?_⟩
    rw [exec_request, he, List.append_assoc, List.singleton_append]

/-- An answer to the call is one turn of its own run. -/
theorem Among.answer (hI : ∀ s, I s s) (h : Among I serve c₀ x lost s) {r : ρ}
    {callback : Resp r → Program σ ν ω Resp} {a : Resp r} (hp : x.pending = pre ++ ⟨r, callback⟩ :: post)
    (hs : serve s r a s') (hd : (callback a).exec ⟨s', x.heap, pre ++ post, x.out⟩ = d) :
    Among I serve c₀ d.waiting lost d.state := by
  obtain ⟨t, q, hruns, hperm, ht⟩ := h
  have hmem : (⟨r, callback⟩ : Call σ ν ω Resp) ∈ q := by
    rw [hperm.mem_iff, hp]
    simp
  obtain ⟨pre', post', rfl⟩ := List.append_of_mem hmem
  have hrest : (pre' ++ post').Perm (pre ++ post ++ lost) := by
    rw [hp, List.append_assoc, List.cons_append] at hperm
    have hmiddle := List.perm_middle.symm.trans (hperm.trans List.perm_middle)
    rw [List.append_assoc]
    exact (List.perm_cons _).mp hmiddle
  obtain ⟨s₁, h₁, calls, o₁, he⟩ := exec_queue (callback a) s' x.heap x.out
  rw [he] at hd
  subst hd
  refine ⟨s₁, pre' ++ post' ++ calls, hruns.tail ?_, ?_, hI _⟩
  · have hturn : Delivers (interfered I serve) ⟨t, x.heap, pre' ++ ⟨r, callback⟩ :: post', x.out⟩
        ((callback a).exec ⟨s', x.heap, pre' ++ post', x.out⟩) := .answer rfl ⟨s, ht, hs⟩
    rwa [he] at hturn
  · show (pre' ++ post' ++ calls).Perm (pre ++ post ++ calls ++ lost)
    rw [List.append_assoc (pre ++ post)]
    refine (hrest.append_right calls).trans ?_
    rw [List.append_assoc]
    exact List.perm_append_comm.append_left _

/-- An answer without its callback. -/
theorem Among.lose (hI : ∀ s t u, I s t → I t u → I s u) (h : Among I serve c₀ x lost s) {b : Call σ ν ω Resp}
    (hp : x.pending = pre ++ b :: post) (hs : I s s') :
    Among I serve c₀ { x with pending := pre ++ post } (b :: lost) s' := by
  obtain ⟨t, q, hruns, hperm, ht⟩ := h
  refine ⟨t, q, hruns, hperm.trans ?_, hI _ _ _ ht hs⟩
  rw [hp, List.append_assoc, List.cons_append, List.append_assoc]
  exact List.perm_middle.symm.append_left pre

/-- From where it is, a call can be let end without anything else happening to the environment. -/
theorem Among.yields (hr : ∀ s r, ∃ a, serve s r a s) (hI : ∀ s, I s s) (hc : c.Quiet)
    (h : Among I serve (p.exec c) x lost s) :
    ∃ t s' l, x.out <+: c.out ++ l ∧ p.Yields (interfered I serve) c.state c.heap s' l ∧
      s'.2 = t.2 ∧ I t s := by
  obtain ⟨t, q, hruns, -, ht⟩ := h
  have hreject : ∀ s r, ∃ a, interfered I serve s r a s :=
    fun s r => (hr s r).imp fun a ha => ⟨s, hI s, ha⟩
  obtain ⟨d, hd, he⟩ := exists_settles_rejected hreject ⟨t, x.heap, q, x.out⟩
  obtain ⟨l, hl, hy⟩ := yields_of_settles hc ⟨hruns.trans hd.1, hd.2⟩
  exact ⟨t, d.state, l, hl ▸ runs_out hd.1, hy, he, ht⟩

end EventLoop
