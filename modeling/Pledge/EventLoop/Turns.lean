import Pledge.EventLoop.Footprint

/-!
# Turns

What a turn may do to the state can depend on the answer that has begun it, and some effects are
emitted only where the state is known to be as they say. A program that keeps to both does so in
every turn of its calls, whatever has happened to the state in between.
-/

namespace EventLoop
open Program

variable {σ ε ν ω ρ α β : Type} {Resp : ρ → Type}

/-- `changes t` is what a turn begun by the answer `t` may do, or one that a call begins itself.
An effect that `tells` says that `known` holds of the state. -/
structure Discipline (σ ω : Type) {ρ : Type} (Resp : ρ → Type) where
  changes : Option ((r : ρ) × Resp r) → (σ → σ) → Prop
  known : σ → Prop
  tells : ω → Prop

variable {D : Discipline σ ω Resp} {F : Footprint σ ω ρ} {t : Option ((r : ρ) × Resp r)} {z z' : Prop}
  {p q : Program σ ν ω Resp}

/-- What is left of a turn keeps to `D`, and so do the turns of its callbacks. `z` stands for what
the turn has made known. -/
def Program.Obeys (D : Discipline σ ω Resp) : Program σ ν ω Resp → Option ((r : ρ) × Resp r) → Prop → Prop
  | stop, _, _ => True
  | emit o p, t, z => (D.tells o → z) ∧ p.Obeys D t z
  | modify f p, t, z => D.changes t f ∧ p.Obeys D t (z ∨ ∀ s, D.known (f s))
  | read k, t, z => ∀ s, (k s).Obeys D t z
  | alloc _ k, t, z => ∀ x, (k x).Obeys D t z
  | load _ k, t, z => ∀ v, (k v).Obeys D t z
  | store _ _ p, t, z => p.Obeys D t z
  | request r callback p, t, z => (∀ a, (callback a).Obeys D (some ⟨r, a⟩) False) ∧ p.Obeys D t z

def Call.Obeys (D : Discipline σ ω Resp) (c : Call σ ν ω Resp) : Prop :=
  ∀ a, (c.2 a).Obeys D (some ⟨c.1, a⟩) False

/-! ## Putting programs together -/

theorem Program.Obeys.mono (hz : z → z') (hp : p.Obeys D t z) : p.Obeys D t z' := by
  induction p generalizing z z' with
  | stop => exact trivial
  | emit o p ih => exact ⟨fun ho => hz (hp.1 ho), ih hz hp.2⟩
  | modify f p ih => exact ⟨hp.1, ih (Or.imp_left hz) hp.2⟩
  | read k ih => exact fun s => ih s hz (hp s)
  | alloc v k ih => exact fun x => ih x hz (hp x)
  | load x k ih => exact fun v => ih v hz (hp v)
  | store x v p ih => exact ih hz hp
  | request r callback p _ ih => exact ⟨hp.1, ih hz hp.2⟩

/-- A program that counts on nothing can follow any other. -/
theorem obeys_andThen (hp : p.Obeys D t z) (hq : q.Obeys D t False) : (p.andThen q).Obeys D t z := by
  induction p generalizing z with
  | stop => exact hq.mono False.elim
  | emit o p ih => exact ⟨hp.1, ih hp.2⟩
  | modify f p ih => exact ⟨hp.1, ih hp.2⟩
  | read k ih => exact fun s => ih s (hp s)
  | alloc v k ih => exact fun x => ih x (hp x)
  | load x k ih => exact fun v => ih v (hp v)
  | store x v p ih => exact ih hp
  | request r callback p _ ih => exact ⟨hp.1, ih hp.2⟩

theorem obeys_forEach {xs : List α} {body : α → Program σ ν ω Resp}
    (h : ∀ a ∈ xs, (body a).Obeys D t False) : (forEach xs body).Obeys D t False := by
  induction xs with
  | nil => exact trivial
  | cons a xs ih =>
    exact obeys_andThen (h a List.mem_cons_self) (ih fun b hb => h b (List.mem_cons_of_mem a hb))

theorem obeys_ask {r : ρ} {callback : Resp r → Program σ ν ω Resp}
    (h : ∀ a, (callback a).Obeys D (some ⟨r, a⟩) False) : (ask r callback).Obeys D t z :=
  ⟨h, trivial⟩

theorem obeys_join {x : ℕ} {collect : ν → β → ν} {done : ν → Bool} {k : ν → Program σ ν ω Resp}
    (hk : ∀ v, (k v).Obeys D t z) (b : β) : (join x collect done k b).Obeys D t z := by
  intro v
  show (if done (collect v b) then k (collect v b) else stop).Obeys D t z
  split
  · exact hk _
  · exact trivial

/-- What stays within a footprint obeys where every turn may do what it does. -/
theorem obeys_of_within (hm : ∀ f, F.modifies f → ∀ t, D.changes t f) (he : ∀ o, F.emits o → ¬ D.tells o)
    (hp : p.Within F) : p.Obeys D t z := by
  induction p generalizing t z with
  | stop => exact trivial
  | emit o p ih => exact ⟨fun ho => absurd ho (he o hp.1), ih hp.2⟩
  | modify f p ih => exact ⟨hm f hp.1 t, ih hp.2⟩
  | read k ih => exact fun s => ih s (hp s)
  | alloc v k ih => exact fun x => ih x (hp x)
  | load x k ih => exact fun v => ih v (hp v)
  | store x v p ih => exact ih hp
  | request r callback p hc ih => exact ⟨fun a => hc a (hp.2.1 a), ih hp.2.2⟩

/-! ## A turn -/

/-- `R` is what the turns of `D` respect; what is known stays so. -/
structure Discipline.Respected (D : Discipline σ ω Resp) (R : Option ((r : ρ) × Resp r) → σ → σ → Prop) :
    Prop where
  refl : ∀ t s, R t s s
  trans : ∀ t s s' s'', R t s s' → R t s' s'' → R t s s''
  changes : ∀ t f, D.changes t f → ∀ s, R t s (f s)
  known : ∀ t s s', R t s s' → D.known s → D.known s'

variable [Inhabited ν] {R : Option ((r : ρ) × Resp r) → σ → σ → Prop}

/-- A turn respects `R`, what it issues obeys, and what it tells is known at its end. -/
theorem obeys_exec (hR : D.Respected R) (hp : p.Obeys D t z) (c : Config σ ε ν ω Resp)
    (hz : z → D.known c.state.1) :
    R t c.state.1 (p.exec c).state.1 ∧ (z → D.known (p.exec c).state.1) ∧
      (∃ calls, (p.exec c).pending = c.pending ++ calls ∧ ∀ x ∈ calls, Call.Obeys D x) ∧
      ∃ l, (p.exec c).out = c.out ++ l ∧ ∀ o ∈ l, D.tells o → D.known (p.exec c).state.1 := by
  induction p generalizing c z with
  | stop => exact ⟨hR.refl t _, hz, ⟨[], by simp⟩, [], by simp⟩
  | emit o p ih =>
    obtain ⟨hr, hknown, hcalls, l, hl, htells⟩ := ih hp.2 { c with out := c.out ++ [o] } hz
    refine ⟨hr, hknown, hcalls, o :: l, by simpa using hl, fun o' ho => ?_⟩
    rcases List.mem_cons.mp ho with rfl | ho
    · exact fun ht => hknown (hp.1 ht)
    · exact htells o' ho
  | modify f p ih =>
    have hf := hR.changes t f hp.1 c.state.1
    have hz' : (z ∨ ∀ s, D.known (f s)) → D.known (f c.state.1) := by
      rintro (h | h)
      · exact hR.known t _ _ hf (hz h)
      · exact h _
    obtain ⟨hr, hknown, hrest⟩ := ih hp.2 { c with state := (f c.state.1, c.state.2) } hz'
    exact ⟨hR.trans t _ _ _ hf hr, fun h => hknown (.inl h), hrest⟩
  | read k ih => exact ih _ (hp _) c hz
  | alloc v k ih => exact ih _ (hp _) { c with heap := c.heap ++ [v] } hz
  | load x k ih => exact ih _ (hp _) c hz
  | store x v p ih => exact ih hp { c with heap := c.heap.set x v } hz
  | request r callback p _ ih =>
    obtain ⟨hr, hknown, ⟨calls, hcalls, hobeys⟩, hout⟩ :=
      ih hp.2 { c with pending := c.pending ++ [⟨r, callback⟩] } hz
    refine ⟨hr, hknown, ⟨⟨r, callback⟩ :: calls, by simpa using hcalls, fun x hx => ?_⟩, hout⟩
    rcases List.mem_cons.mp hx with rfl | hx
    · exact hp.1
    · exact hobeys x hx

end EventLoop
