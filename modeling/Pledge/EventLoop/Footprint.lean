import Pledge.EventLoop.Yields

/-!
# Footprints

What a program may do at all: the requests it issues, the changes it makes to its state and
the effects it emits, in its own turn or in a callback. A relation that all of these respect
holds between the ends of every run.
-/

namespace EventLoop
open Program

structure Footprint (σ ω ρ : Type) where
  asks : ρ → Prop
  modifies : (σ → σ) → Prop
  emits : ω → Prop

variable {σ ε ν ω ρ α β : Type} {Resp : ρ → Type} {F G : Footprint σ ω ρ}
  {p q : Program σ ν ω Resp}

/-- `p` and its callbacks stay within `F`. -/
def Program.Within (F : Footprint σ ω ρ) : Program σ ν ω Resp → Prop
  | stop => True
  | emit o p => F.emits o ∧ p.Within F
  | modify f p => F.modifies f ∧ p.Within F
  | read k => ∀ s, (k s).Within F
  | alloc _ k => ∀ x, (k x).Within F
  | load _ k => ∀ v, (k v).Within F
  | store _ _ p => p.Within F
  | request r callback p => F.asks r ∧ (∀ a, (callback a).Within F) ∧ p.Within F

def Call.Within (F : Footprint σ ω ρ) (c : Call σ ν ω Resp) : Prop :=
  F.asks c.1 ∧ ∀ a, (c.2 a).Within F

/-! ## Putting programs together -/

theorem within_andThen (hp : p.Within F) (hq : q.Within F) : (p.andThen q).Within F := by
  induction p with
  | stop => exact hq
  | emit o p ih => exact ⟨hp.1, ih hp.2⟩
  | modify f p ih => exact ⟨hp.1, ih hp.2⟩
  | read k ih => exact fun s => ih s (hp s)
  | alloc v k ih => exact fun x => ih x (hp x)
  | load x k ih => exact fun v => ih v (hp v)
  | store x v p ih => exact ih hp
  | request r callback p _ ih => exact ⟨hp.1, hp.2.1, ih hp.2.2⟩

theorem within_forEach {xs : List α} {body : α → Program σ ν ω Resp}
    (h : ∀ a ∈ xs, (body a).Within F) : (forEach xs body).Within F := by
  induction xs with
  | nil => exact trivial
  | cons a xs ih =>
    exact within_andThen (h a List.mem_cons_self) (ih fun b hb => h b (List.mem_cons_of_mem a hb))

theorem within_ask {r : ρ} {callback : Resp r → Program σ ν ω Resp} :
    (ask r callback).Within F ↔ F.asks r ∧ ∀ a, (callback a).Within F :=
  ⟨fun h => ⟨h.1, h.2.1⟩, fun h => ⟨h.1, h.2, trivial⟩⟩

theorem within_join {x : ℕ} {collect : ν → β → ν} {done : ν → Bool} {k : ν → Program σ ν ω Resp}
    (hk : ∀ v, (k v).Within F) (b : β) : (join x collect done k b).Within F := by
  intro v
  show (if done (collect v b) then k (collect v b) else stop).Within F
  split
  · exact hk _
  · exact trivial

theorem within_fanOut {xs : List α} {req : α → ρ} {report : (a : α) → Resp (req a) → β} {v : ν}
    {collect : ν → β → ν} {done : ν → Bool} {k : ν → Program σ ν ω Resp}
    (hreq : ∀ a ∈ xs, F.asks (req a)) (hk : ∀ v, (k v).Within F) :
    (fanOut xs req report v collect done k).Within F :=
  fun _ => within_forEach fun a ha => within_ask.mpr ⟨hreq a ha, fun _ => within_join hk _⟩

theorem Program.Within.mono (ha : ∀ r, F.asks r → G.asks r) (hm : ∀ f, F.modifies f → G.modifies f)
    (he : ∀ o, F.emits o → G.emits o) (hp : p.Within F) : p.Within G := by
  induction p with
  | stop => exact trivial
  | emit o p ih => exact ⟨he o hp.1, ih hp.2⟩
  | modify f p ih => exact ⟨hm f hp.1, ih hp.2⟩
  | read k ih => exact fun s => ih s (hp s)
  | alloc v k ih => exact fun x => ih x (hp x)
  | load x k ih => exact fun v => ih v (hp v)
  | store x v p ih => exact ih hp
  | request r callback p hc ih => exact ⟨ha r hp.1, fun a => hc a (hp.2.1 a), ih hp.2.2⟩

/-! ## What runs respect -/

section Runs

variable [Inhabited ν] {serve : σ × ε → (r : ρ) → Resp r → σ × ε → Prop}
  {c d : Config σ ε ν ω Resp} {R : σ × ε → σ × ε → Prop}

/-- A relation that the changes and the answers within `F` respect. -/
structure Respects (F : Footprint σ ω ρ) (serve : σ × ε → (r : ρ) → Resp r → σ × ε → Prop)
    (R : σ × ε → σ × ε → Prop) : Prop where
  refl : ∀ s, R s s
  trans : ∀ s t u, R s t → R t u → R s u
  modify : ∀ s f, F.modifies f → R s (f s.1, s.2)
  answer : ∀ s r a s', F.asks r → serve s r a s' → R s s'

theorem respects_true : Respects F serve fun _ _ => True :=
  ⟨fun _ => trivial, fun _ _ _ _ _ => trivial, fun _ _ _ => trivial, fun _ _ _ _ _ _ => trivial⟩

/-- What is pending is within `F`, and so are the effects so far. -/
structure Config.Within (F : Footprint σ ω ρ) (c : Config σ ε ν ω Resp) : Prop where
  pending : ∀ x ∈ c.pending, Call.Within F x
  out : ∀ o ∈ c.out, F.emits o

theorem within_exec (hR : Respects F serve R) (hp : p.Within F) (hc : c.Within F) :
    (p.exec c).Within F ∧ R c.state (p.exec c).state := by
  induction p generalizing c with
  | stop => exact ⟨hc, hR.refl _⟩
  | emit o p ih =>
    refine ih (c := { c with out := c.out ++ [o] }) hp.2 ⟨hc.pending, fun o' ho => ?_⟩
    rcases List.mem_append.mp ho with ho | ho
    · exact hc.out o' ho
    · obtain rfl := List.mem_singleton.mp ho
      exact hp.1
  | modify f p ih =>
    obtain ⟨hw, hr⟩ := ih (c := { c with state := (f c.state.1, c.state.2) }) hp.2 ⟨hc.pending, hc.out⟩
    exact ⟨hw, hR.trans _ _ _ (hR.modify c.state f hp.1) hr⟩
  | read k ih => exact ih _ (hp _) hc
  | alloc v k ih => exact ih _ (c := { c with heap := c.heap ++ [v] }) (hp _) ⟨hc.pending, hc.out⟩
  | load x k ih => exact ih _ (hp _) hc
  | store x v p ih => exact ih (c := { c with heap := c.heap.set x v }) hp ⟨hc.pending, hc.out⟩
  | request r callback p _ ih =>
    refine ih (c := { c with pending := c.pending ++ [⟨r, callback⟩] }) hp.2.2
      ⟨fun x hx => ?_, hc.out⟩
    rcases List.mem_append.mp hx with hx | hx
    · exact hc.pending x hx
    · obtain rfl := List.mem_singleton.mp hx
      exact ⟨hp.1, hp.2.1⟩

/-- What a turn issues is within `F`, whatever else is pending. -/
theorem within_issued (hp : p.Within F) (c : Config σ ε ν ω Resp) :
    ∃ calls, (p.exec c).pending = c.pending ++ calls ∧ ∀ x ∈ calls, Call.Within F x := by
  induction p generalizing c with
  | stop => exact ⟨[], by simp⟩
  | emit o p ih => exact ih hp.2 { c with out := c.out ++ [o] }
  | modify f p ih => exact ih hp.2 { c with state := (f c.state.1, c.state.2) }
  | read k ih => exact ih c.state.1 (hp _) c
  | alloc v k ih => exact ih _ (hp _) { c with heap := c.heap ++ [v] }
  | load x k ih => exact ih _ (hp _) c
  | store x v p ih => exact ih hp { c with heap := c.heap.set x v }
  | request r callback p _ ih =>
    obtain ⟨calls, hcalls, hwithin⟩ := ih hp.2.2 { c with pending := c.pending ++ [⟨r, callback⟩] }
    refine ⟨⟨r, callback⟩ :: calls, by simpa using hcalls, fun x hx => ?_⟩
    rcases List.mem_cons.mp hx with rfl | hx
    · exact ⟨hp.1, hp.2.1⟩
    · exact hwithin x hx

theorem within_delivers (hR : Respects F serve R) (hc : c.Within F) (h : Delivers serve c d) :
    d.Within F ∧ R c.state d.state := by
  cases h with
  | @answer pre post r callback a s hp hs =>
    have hcall : Call.Within F (⟨r, callback⟩ : Call σ ν ω Resp) :=
      hc.pending _ (mem_of_taken hp)
    have hrest : (⟨s, c.heap, pre ++ post, c.out⟩ : Config σ ε ν ω Resp).Within F :=
      ⟨fun x hx => hc.pending x (mem_of_mem_rest hp hx), hc.out⟩
    obtain ⟨hw, hr⟩ := within_exec hR (hcall.2 a) hrest
    exact ⟨hw, hR.trans _ _ _ (hR.answer _ _ _ _ hcall.1 hs) hr⟩

theorem within_runs (hR : Respects F serve R) (hc : c.Within F) (h : Runs serve c d) :
    d.Within F ∧ R c.state d.state := by
  induction h with
  | refl => exact ⟨hc, hR.refl _⟩
  | tail _ h ih =>
    obtain ⟨hw, hr⟩ := within_delivers hR ih.1 h
    exact ⟨hw, hR.trans _ _ _ ih.2 hr⟩

variable {s s' : σ × ε} {h : List ν} {l : List ω}

/-- A settled call has related its two ends and emitted nothing else. -/
theorem within_yields (hR : Respects F serve R) (hp : p.Within F) (hy : p.Yields serve s h s' l) :
    R s s' ∧ ∀ o ∈ l, F.emits o := by
  obtain ⟨h', hs⟩ := hy
  obtain ⟨hw, hr⟩ := within_exec (c := ⟨s, h, [], []⟩) hR hp ⟨by simp, by simp⟩
  obtain ⟨hw', hr'⟩ := within_runs hR hw hs.1
  exact ⟨hR.trans _ _ _ hr hr', hw'.out⟩

/-- Only the answers to requests within `F` matter. -/
theorem Program.Within.yields_mono {serve' : σ × ε → (r : ρ) → Resp r → σ × ε → Prop}
    (hm : ∀ s r a s', F.asks r → serve s r a s' → serve' s r a s') (hp : p.Within F)
    (hy : p.Yields serve s h s' l) : p.Yields serve' s h s' l := by
  have hR : Respects F serve fun _ _ => True := respects_true
  obtain ⟨h', hs⟩ := hy
  have hc := (within_exec (c := ⟨s, h, [], []⟩) hR hp ⟨by simp, by simp⟩).1
  refine ⟨h', ?_, hs.2⟩
  have hruns : ∀ {d}, Runs serve (p.exec ⟨s, h, [], []⟩) d → Runs serve' (p.exec ⟨s, h, [], []⟩) d := by
    intro d hd
    induction hd with
    | refl => exact .refl
    | tail hr hd ih =>
      refine ih.tail ?_
      have hw := (within_runs hR hc hr).1
      cases hd with
      | @answer pre post r callback a s hpending hs =>
        refine .answer hpending (hm _ _ _ _ ?_ hs)
        exact (hw.pending ⟨r, callback⟩ (by rw [hpending]; simp)).1
  exact hruns hs.1

end Runs

end EventLoop
