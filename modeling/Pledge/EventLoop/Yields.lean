import Pledge.EventLoop.Join

/-!
# What a call yields

The settled outcomes of a program that is called while nothing is pending, one equation
for each statement. The order in which answers arrive is left only in the rule for joins.
-/

namespace EventLoop
open Program

variable {σ ε ν ω ρ τ α : Type} {Resp : ρ → Type} [Inhabited ν]
  {serve : σ × ε → (r : ρ) → Resp r → σ × ε → Prop} {c d : Config σ ε ν ω Resp}

/-! ## Earlier effects make no difference -/

def Config.after (o : List ω) (c : Config σ ε ν ω Resp) : Config σ ε ν ω Resp :=
  { c with out := o ++ c.out }

theorem exec_after (o : List ω) (p : Program σ ν ω Resp) (c : Config σ ε ν ω Resp) :
    p.exec (c.after o) = (p.exec c).after o := by
  induction p generalizing c with
  | stop => rfl
  | emit e p ih => simpa [Config.after] using ih { c with out := c.out ++ [e] }
  | modify f p ih => exact ih { c with state := (f c.state.1, c.state.2) }
  | read k ih => exact ih c.state.1 c
  | alloc v k ih => exact ih c.heap.length { c with heap := c.heap ++ [v] }
  | load x k ih => exact ih (c.heap.getD x default) c
  | store x v p ih => exact ih { c with heap := c.heap.set x v }
  | request r callback p _ ih => exact ih { c with pending := c.pending ++ [⟨r, callback⟩] }

theorem delivers_after {o : List ω} :
    Delivers serve (c.after o) d ↔ ∃ e, Delivers serve c e ∧ d = e.after o := by
  constructor
  · intro h
    cases h with
    | @answer pre post r callback a s hp hs =>
      exact ⟨_, .answer hp hs, exec_after o (callback a) { c with state := s, pending := pre ++ post }⟩
  · rintro ⟨e, h, rfl⟩
    cases h with
    | @answer pre post r callback a s hp hs =>
      have hd := Delivers.answer (show (c.after o).pending = _ from hp) hs
      rwa [show ({ c.after o with state := s, pending := pre ++ post } : Config σ ε ν ω Resp) =
        Config.after o { c with state := s, pending := pre ++ post } from rfl, exec_after] at hd

theorem runs_after {o : List ω} :
    Runs serve (c.after o) d ↔ ∃ e, Runs serve c e ∧ d = e.after o := by
  constructor
  · intro h
    induction h with
    | refl => exact ⟨c, .refl, rfl⟩
    | tail _ h ih =>
      obtain ⟨e, he, rfl⟩ := ih
      obtain ⟨e', he', rfl⟩ := delivers_after.mp h
      exact ⟨e', .tail he he', rfl⟩
  · rintro ⟨e, h, rfl⟩
    induction h with
    | refl => exact .refl
    | tail _ h ih => exact .tail ih (delivers_after.mpr ⟨_, h, rfl⟩)

theorem settles_after {o : List ω} :
    Settles serve (c.after o) d ↔ ∃ e, Settles serve c e ∧ d = e.after o := by
  constructor
  · rintro ⟨hr, hq⟩
    obtain ⟨e, he, rfl⟩ := runs_after.mp hr
    exact ⟨e, ⟨he, hq⟩, rfl⟩
  · rintro ⟨e, ⟨hr, hq⟩, rfl⟩
    exact ⟨runs_after.mpr ⟨e, hr, rfl⟩, hq⟩

/-! ## One equation for each statement -/

/-- Called in `s`, `p` may settle in `s'` having emitted `l`. -/
def Program.Yields (serve : σ × ε → (r : ρ) → Resp r → σ × ε → Prop) (p : Program σ ν ω Resp)
    (s : σ × ε) (h : List ν) (s' : σ × ε) (l : List ω) : Prop :=
  ∃ h', Settles serve (p.exec ⟨s, h, [], []⟩) ⟨s', h', [], l⟩

section Equations

variable {s s' : σ × ε} {h : List ν} {l : List ω} {p : Program σ ν ω Resp}

/-- Effects emitted before the call stay in front of its own. -/
theorem exists_settles_out {o : List ω} :
    (∃ h', Settles serve (p.exec ⟨s, h, [], o⟩) ⟨s', h', [], l⟩) ↔
      ∃ l', l = o ++ l' ∧ p.Yields serve s h s' l' := by
  have hc : (⟨s, h, [], o⟩ : Config σ ε ν ω Resp) = Config.after o ⟨s, h, [], []⟩ := by
    simp [Config.after]
  rw [hc]
  simp only [exec_after, settles_after]
  constructor
  · rintro ⟨_, ⟨t, g, q, out⟩, he, heq⟩
    cases heq
    exact ⟨out, rfl, g, he⟩
  · rintro ⟨l', rfl, h', he⟩
    exact ⟨h', _, he, rfl⟩

theorem yields_of_settles (hc : c.Quiet) (hd : Settles serve (p.exec c) d) :
    ∃ l, d.out = c.out ++ l ∧ p.Yields serve c.state c.heap d.state l := by
  obtain ⟨s, h, q, o⟩ := c
  obtain ⟨s', h', q', o'⟩ := d
  obtain rfl : q = [] := hc
  obtain rfl : q' = [] := hd.2
  exact exists_settles_out.mp ⟨h', hd⟩

theorem exists_yields (ht : ∀ s r, ∃ a s', serve s r a s') (p : Program σ ν ω Resp) (s : σ × ε)
    (h : List ν) : ∃ s' l, p.Yields serve s h s' l := by
  obtain ⟨⟨s', h', q, l⟩, hr, hq⟩ := exists_settles ht (p.exec ⟨s, h, [], []⟩)
  obtain rfl : q = [] := hq
  exact ⟨s', l, h', hr, rfl⟩

@[simp] theorem yields_stop : (stop : Program σ ν ω Resp).Yields serve s h s' l ↔ s' = s ∧ l = [] := by
  constructor
  · rintro ⟨h', hs⟩
    cases (settles_of_quiet (c := ⟨s, h, [], []⟩) rfl).mp hs
    exact ⟨rfl, rfl⟩
  · rintro ⟨rfl, rfl⟩
    exact ⟨h, .refl, rfl⟩

@[simp] theorem yields_emit {o : ω} :
    (emit o p).Yields serve s h s' l ↔ ∃ l', l = o :: l' ∧ p.Yields serve s h s' l' := by
  unfold Program.Yields
  rw [exec_emit]
  exact exists_settles_out

theorem yields_emit_stop {o : ω} :
    (emit o stop : Program σ ν ω Resp).Yields serve s h s' l ↔ s' = s ∧ l = [o] := by
  rw [yields_emit]
  constructor
  · rintro ⟨l', rfl, hk⟩
    obtain ⟨rfl, rfl⟩ := yields_stop.mp hk
    exact ⟨rfl, rfl⟩
  · rintro ⟨rfl, rfl⟩
    exact ⟨[], rfl, yields_stop.mpr ⟨rfl, rfl⟩⟩

@[simp] theorem yields_modify {f : σ → σ} :
    (modify f p).Yields serve s h s' l ↔ p.Yields serve (f s.1, s.2) h s' l := Iff.rfl

@[simp] theorem yields_read {k : σ → Program σ ν ω Resp} :
    (read k).Yields serve s h s' l ↔ (k s.1).Yields serve s h s' l := Iff.rfl

@[simp] theorem yields_ask {r : ρ} {callback : Resp r → Program σ ν ω Resp} :
    (ask r callback).Yields serve s h s' l ↔
      ∃ a s₁, serve s r a s₁ ∧ (callback a).Yields serve s₁ h s' l := by
  constructor
  · rintro ⟨h', hs⟩
    obtain ⟨a, s₁, ha, hs⟩ := (settles_single (c := ⟨s, h, [⟨r, callback⟩], []⟩) rfl).mp hs
    exact ⟨a, s₁, ha, h', hs⟩
  · rintro ⟨a, s₁, ha, h', hs⟩
    exact ⟨h', (settles_single (c := ⟨s, h, [⟨r, callback⟩], []⟩) rfl).mpr ⟨a, s₁, ha, hs⟩⟩

theorem Program.Yields.mono {serve' : σ × ε → (r : ρ) → Resp r → σ × ε → Prop}
    (hm : ∀ s r a s', serve s r a s' → serve' s r a s') (hy : p.Yields serve s h s' l) :
    p.Yields serve' s h s' l :=
  hy.imp fun _ hs => hs.mono hm

end Equations

/-! ## Joins -/

/-- What one iteration of a loop contributes to a join: a value at once, or a request. -/
inductive Turn (τ ω : Type) {ρ : Type} (Resp : ρ → Type)
  | now (os : List ω) (t : τ)
  | later (b : Branch τ Resp)

namespace Turn

def branch? : Turn τ ω Resp → Option (Branch τ Resp)
  | now _ _ => none
  | later b => some b

def value? : Turn τ ω Resp → Option τ
  | now _ t => some t
  | later _ => none

def emitted : Turn τ ω Resp → List ω
  | now os _ => os
  | later _ => []

end Turn

section Gather

variable {x n m : ℕ} {v : ν} {collect : ν → τ → ν} {done : ν → Bool} {k : ν → Program σ ν ω Resp}
  {xs : List α} {body : ℕ → α → Program σ ν ω Resp} {act : α → Turn τ ω Resp}
  {s₁ : σ} {s s' : σ × ε} {h : List ν} {l : List ω}

/-- In states with program part `s₁`, the loop body `body x a` contributes `act a`. -/
def Contributes (ε : Type) (body : ℕ → α → Program σ ν ω Resp) (act : α → Turn τ ω Resp)
    (collect : ν → τ → ν) (done : ν → Bool) (k : ν → Program σ ν ω Resp) (s₁ : σ) : Prop :=
  ∀ (x : ℕ) (a : α) (c : Config σ ε ν ω Resp), c.state.1 = s₁ →
    (body x a).exec c =
      match act a with
      | .now os t => (join x collect done k t).exec { c with out := c.out ++ os }
      | .later b => { c with pending := c.pending ++ [b.call (join x collect done k)] }

/-- The turn in which the loop runs, when `m` requests of the join are already pending. -/
theorem exec_gather (count : ν → ℕ) (hcount : ∀ v t, count (collect v t) = count v + 1)
    (hdone : ∀ v, done v = (count v == n)) (hbody : Contributes ε body act collect done k s₁)
    (hs : c.state.1 = s₁) (hx : c.heap[x]? = some v) (hn : count v + m + xs.length = n) :
    (forEach xs (body x)).exec c =
      (if m = 0 ∧ xs.filterMap (fun a => (act a).branch?) = [] ∧ xs ≠ [] then
        k ((xs.filterMap fun a => (act a).value?).foldl collect v) else stop).exec
        { c with
          heap := c.heap.set x ((xs.filterMap fun a => (act a).value?).foldl collect v)
          out := c.out ++ xs.flatMap fun a => (act a).emitted
          pending := c.pending ++
            (xs.filterMap fun a => (act a).branch?).map (Branch.call (join x collect done k)) } := by
  have hlt : x < c.heap.length := (List.getElem?_eq_some_iff.mp hx).1
  induction xs generalizing c v m with
  | nil =>
    have hset : c.heap.set x v = c.heap := by
      rw [← (List.getElem?_eq_some_iff.mp hx).2]
      exact List.set_getElem_self hlt
    simp [hset]
  | cons a xs ih =>
    rw [exec_forEach_cons, hbody x a c hs]
    cases ha : act a with
    | later b =>
      dsimp only
      rw [ih (c := { c with pending := c.pending ++ [b.call (join x collect done k)] })
        (m := m + 1) hs hx (by simp at hn ⊢; omega) hlt]
      simp [ha, Turn.branch?, Turn.value?, Turn.emitted]
    | now os t =>
      dsimp only
      rw [exec_join (c := { c with out := c.out ++ os }) hx]
      have hd : done (collect v t) = (m == 0 && xs.isEmpty) := by
        rw [hdone, hcount, Bool.eq_iff_iff]
        simp only [beq_iff_eq, Bool.and_eq_true, List.isEmpty_iff, ← List.length_eq_zero_iff]
        simp at hn
        omega
      by_cases hlast : m = 0 ∧ xs = []
      · obtain ⟨rfl, rfl⟩ := hlast
        simp [hd, ha, Turn.branch?, Turn.value?, Turn.emitted]
      · have hfalse : (m == 0 && xs.isEmpty) = false := by
          simpa using hlast
        rw [hd, hfalse, if_neg (by simp), exec_stop,
          ih (c := { c with out := c.out ++ os, heap := c.heap.set x (collect v t) }) (m := m) hs
            (List.getElem?_set_self hlt) (by rw [hcount]; simp at hn ⊢; omega) (by simpa using hlt)]
        have hne : m = 0 → xs ≠ [] := fun h0 hnil => hlast ⟨h0, hnil⟩
        by_cases h0 : m = 0
        · simp [h0, hne h0, ha, Turn.branch?, Turn.value?, Turn.emitted]
        · simp [h0, ha, Turn.branch?, Turn.value?, Turn.emitted]

omit [Inhabited ν] in
theorem count_foldl {count : ν → ℕ} (hcount : ∀ v t, count (collect v t) = count v + 1) (ts : List τ) (v : ν) :
    count (ts.foldl collect v) = count v + ts.length := by
  induction ts generalizing v with
  | nil => rfl
  | cons t ts ih => simp [ih, hcount]; omega

theorem length_values_add_branches (act : α → Turn τ ω Resp) (xs : List α) :
    (xs.filterMap fun a => (act a).value?).length +
      (xs.filterMap fun a => (act a).branch?).length = xs.length := by
  induction xs with
  | nil => rfl
  | cons a xs ih =>
    simp only [List.filterMap_cons, List.length_cons]
    cases act a <;> simp only [Turn.value?, Turn.branch?, List.length_cons] <;>
      simp only [Turn.value?, Turn.branch?] at ih <;> omega

/-- A loop that joins settles when its requests have been answered in some order, once
each; its continuation then runs once. -/
theorem yields_gather (count : ν → ℕ) (hcount : ∀ v t, count (collect v t) = count v + 1)
    (hdone : ∀ v, done v = (count v == n)) (hbody : Contributes ε body act collect done k s.1)
    (hn : count v + xs.length = n) (hne : xs ≠ []) :
    (alloc v fun x => forEach xs (body x)).Yields serve s h s' l ↔
      ∃ (answers : List (Answered τ Resp)) (s₂ : σ × ε) (v' : ν) (l' : List ω),
        (answers.map Sigma.fst).Perm (xs.filterMap fun a => (act a).branch?) ∧
        ServesAll serve s answers s₂ ∧
        v' = collectAll collect ((xs.filterMap fun a => (act a).value?).foldl collect v) answers ∧
        l = (xs.flatMap fun a => (act a).emitted) ++ l' ∧
        (k v').Yields serve s₂ (h ++ [v']) s' l' := by
  have hx : (h ++ [v])[h.length]? = some v := by simp
  have hlen := length_values_add_branches act xs
  have hcv := count_foldl hcount (xs.filterMap fun a => (act a).value?) v
  rw [Program.Yields, exec_alloc, exec_gather (c := ⟨s, h ++ [v], [], []⟩) (m := 0) count hcount hdone hbody rfl hx
    (by omega)]
  simp only [List.set_append_right, Nat.sub_self, List.nil_append, le_refl, List.set_cons_zero]
  generalize hv : (xs.filterMap fun a => (act a).value?).foldl collect v = v₁ at hcv ⊢
  by_cases hb : xs.filterMap (fun a => (act a).branch?) = []
  · rw [if_pos ⟨trivial, hb, hne⟩, hb]
    simp only [List.map_nil, exists_settles_out]
    constructor
    · rintro ⟨l', rfl, hk⟩
      exact ⟨[], s, v₁, l', .rfl, .nil s, rfl, rfl, hk⟩
    · rintro ⟨answers, s₂, v', l', hperm, hserve, rfl, rfl, hk⟩
      obtain rfl := List.map_eq_nil_iff.mp (List.perm_nil.mp hperm)
      cases hserve
      exact ⟨l', rfl, hk⟩
  · rw [if_neg (by tauto), exec_stop]
    have hx₁ : (h ++ [v₁])[h.length]? = some v₁ := by simp
    simp only [settles_join (c := ⟨s, h ++ [v₁], _, _⟩) hcount hdone rfl hx₁ (by omega) hb,
      Config.joined, List.set_append_right, Nat.sub_self, le_refl, List.set_cons_zero]
    constructor
    · rintro ⟨h', answers, s₂, hperm, hserve, hk⟩
      obtain ⟨l', rfl, hy⟩ := exists_settles_out.mp ⟨h', hk⟩
      exact ⟨answers, s₂, _, l', hperm, hserve, rfl, rfl, hy⟩
    · rintro ⟨answers, s₂, v', l', hperm, hserve, rfl, rfl, hk⟩
      obtain ⟨h', hk⟩ := exists_settles_out.mpr ⟨l', rfl, hk⟩
      exact ⟨h', answers, s₂, hperm, hserve, hk⟩

/-- While a loop's requests are being answered nothing is emitted, until its continuation
starts with nothing pending. -/
theorem runs_gather {d : Config σ ε ν ω Resp} (count : ν → ℕ)
    (hcount : ∀ v t, count (collect v t) = count v + 1) (hdone : ∀ v, done v = (count v == n))
    (hbody : Contributes ε body act collect done k s.1) (hn : count v + xs.length = n) (hne : xs ≠ [])
    {o : List ω} (h' : Runs serve ((alloc v fun x => forEach xs (body x)).exec ⟨s, h, [], o⟩) d) :
    (d.out = o ++ xs.flatMap (fun a => (act a).emitted) ∧ ¬ d.Quiet) ∨
      ∃ (v : ν) (c : Config σ ε ν ω Resp), c.Quiet ∧ Runs serve ((k v).exec c) d := by
  have hx : (h ++ [v])[h.length]? = some v := by simp
  have hlen := length_values_add_branches act xs
  have hcv := count_foldl hcount (xs.filterMap fun a => (act a).value?) v
  rw [exec_alloc, exec_gather (c := ⟨s, h ++ [v], [], o⟩) (m := 0) count hcount hdone hbody rfl hx
    (by omega)] at h'
  generalize (xs.filterMap fun a => (act a).value?).foldl collect v = v₁ at hcv h'
  by_cases hb : xs.filterMap (fun a => (act a).branch?) = []
  · rw [if_pos ⟨rfl, hb, hne⟩, hb] at h'
    exact .inr ⟨v₁, ⟨s, _, [], _⟩, rfl, h'⟩
  · rw [if_neg (by tauto), exec_stop] at h'
    have hx₁ : ((h ++ [v]).set h.length v₁)[h.length]? = some v₁ := by simp
    rcases runs_join hcount hdone (List.nil_append _) hx₁ (by omega) hb h' with hwait | ⟨v, s', hk⟩
    · exact .inl hwait
    · exact .inr ⟨v, ⟨s', _, [], _⟩, rfl, hk⟩

/-- The loop of the usual join: one request for each element. -/
def Program.fanOut (xs : List α) (req : α → ρ) (report : (a : α) → Resp (req a) → τ)
    (v : ν) (collect : ν → τ → ν) (done : ν → Bool) (k : ν → Program σ ν ω Resp) :
    Program σ ν ω Resp :=
  alloc v fun x => forEach xs fun a => ask (req a) fun resp => join x collect done k (report a resp)

theorem yields_fanOut (count : ν → ℕ) {req : α → ρ} {report : (a : α) → Resp (req a) → τ}
    (hcount : ∀ v t, count (collect v t) = count v + 1) (hdone : ∀ v, done v = (count v == n))
    (hn : count v + xs.length = n) (hne : xs ≠ []) :
    (fanOut xs req report v collect done k).Yields serve s h s' l ↔
      ∃ (answers : List (Answered τ Resp)) (s₂ : σ × ε) (v' : ν),
        (answers.map Sigma.fst).Perm (xs.map fun a => ⟨req a, report a⟩) ∧
        ServesAll serve s answers s₂ ∧ v' = collectAll collect v answers ∧
        (k v').Yields serve s₂ (h ++ [v']) s' l := by
  have hbody : Contributes ε (fun x a => ask (req a) fun resp =>
      join x collect done k (report a resp)) (fun a => Turn.later ⟨req a, report a⟩)
      collect done k s.1 := fun x a c hc => rfl
  rw [fanOut, yields_gather count hcount hdone hbody hn hne]
  have hb : (xs.filterMap fun a => (Turn.later ⟨req a, report a⟩ : Turn τ ω Resp).branch?) =
      xs.map fun a => ⟨req a, report a⟩ := by
    simp [Turn.branch?]
  have he : (xs.flatMap fun a => (Turn.later ⟨req a, report a⟩ : Turn τ ω Resp).emitted) = [] := by
    simp [Turn.emitted]
  rw [hb, he]
  constructor
  · rintro ⟨answers, s₂, v', l', hperm, hserve, rfl, rfl, hk⟩
    exact ⟨answers, s₂, _, hperm, hserve, by simp [Turn.value?], hk⟩
  · rintro ⟨answers, s₂, v', hperm, hserve, rfl, hk⟩
    exact ⟨answers, s₂, _, l, hperm, hserve, by simp [Turn.value?], rfl, hk⟩

/-- The loop issues all its requests in its own turn. -/
theorem exec_fanOut {req : α → ρ} {report : (a : α) → Resp (req a) → τ} (c : Config σ ε ν ω Resp) :
    (fanOut xs req report v collect done k).exec c = { c with
      heap := c.heap ++ [v]
      pending := c.pending ++ xs.map fun a =>
        ⟨req a, fun resp => join c.heap.length collect done k (report a resp)⟩ } := by
  have hloop : ∀ (x : ℕ) (c : Config σ ε ν ω Resp),
      (forEach xs fun a => ask (req a) fun resp => join x collect done k (report a resp)).exec c =
        { c with pending := c.pending ++ xs.map fun a =>
          ⟨req a, fun resp => join x collect done k (report a resp)⟩ } := by
    intro x c
    induction xs generalizing c with
    | nil => simp
    | cons a xs ih => simp [ih]
  rw [fanOut, exec_alloc, hloop]

end Gather

/-! ## Weighing effects -/

section Weighs

variable {w : ω → ℕ} {n : ℕ} {s s' : σ × ε} {h : List ν} {p : Program σ ν ω Resp}

/-- Called in `s`, whatever it is answered, `p` settles with effects of total weight `n`. -/
def Program.Weighs (serve : σ × ε → (r : ρ) → Resp r → σ × ε → Prop) (w : ω → ℕ)
    (p : Program σ ν ω Resp) (s : σ × ε) (n : ℕ) : Prop :=
  ∀ h s' l, p.Yields serve s h s' l → (l.map w).sum = n

theorem weighs_stop : (stop : Program σ ν ω Resp).Weighs serve w s 0 := by
  intro h s' l hy
  obtain ⟨-, rfl⟩ := yields_stop.mp hy
  rfl

theorem weighs_emit {o : ω} (hp : p.Weighs serve w s n) :
    (emit o p).Weighs serve w s (w o + n) := by
  intro h s' l hy
  obtain ⟨l', rfl, hp'⟩ := yields_emit.mp hy
  simp [hp h s' l' hp']

theorem weighs_modify {f : σ → σ} (hp : p.Weighs serve w (f s.1, s.2) n) :
    (modify f p).Weighs serve w s n := hp

theorem weighs_read {k : σ → Program σ ν ω Resp} (hk : (k s.1).Weighs serve w s n) :
    (read k).Weighs serve w s n := hk

theorem weighs_ask {r : ρ} {callback : Resp r → Program σ ν ω Resp}
    (hc : ∀ a s₁, serve s r a s₁ → (callback a).Weighs serve w s₁ n) :
    (ask r callback).Weighs serve w s n := by
  intro h s' l hy
  obtain ⟨a, s₁, ha, hy⟩ := yields_ask.mp hy
  exact hc a s₁ ha h s' l hy

theorem weighs_fanOut (count : ν → ℕ) {m : ℕ} {xs : List α} {req : α → ρ} {report : (a : α) → Resp (req a) → τ}
    {v : ν} {collect : ν → τ → ν} {done : ν → Bool} {k : ν → Program σ ν ω Resp}
    (hcount : ∀ v t, count (collect v t) = count v + 1) (hdone : ∀ v, done v = (count v == m))
    (hm : count v + xs.length = m) (hne : xs ≠ []) (hk : ∀ v s, (k v).Weighs serve w s n) :
    (fanOut xs req report v collect done k).Weighs serve w s n := by
  intro h s' l hy
  obtain ⟨answers, s₂, v', -, -, -, hy⟩ := (yields_fanOut count hcount hdone hm hne).mp hy
  exact hk v' s₂ _ s' l hy

end Weighs

/-! ## Answering exactly once -/

section AnswersOnce

variable {w : ω → ℕ} {n : ℕ} {s : σ × ε} {p : Program σ ν ω Resp}

def Config.weight (w : ω → ℕ) (c : Config σ ε ν ω Resp) : ℕ := (c.out.map w).sum

/-- Never two answers, and from every point of an execution exactly one in the end. -/
def Program.AnswersOnce (serve : σ × ε → (r : ρ) → Resp r → σ × ε → Prop) (w : ω → ℕ)
    (p : Program σ ν ω Resp) (s : σ × ε) : Prop :=
  ∀ d, Runs serve (p.exec (.fresh Resp s)) d → d.weight w ≤ 1 ∧
    ∃ e, Settles serve d e ∧ e.weight w = 1

theorem weight_mono (h : Runs serve c d) : c.weight w ≤ d.weight w := by
  obtain ⟨l, hl⟩ := runs_out h
  simp [Config.weight, ← hl]

theorem weight_of_weighs (hp : p.Weighs serve w s n)
    (hd : Settles serve (p.exec (.fresh Resp s)) d) : d.weight w = n := by
  obtain ⟨l, hl, hy⟩ := yields_of_settles (c := .fresh Resp s) rfl hd
  rw [Config.weight, hl]
  exact hp _ _ l hy

/-- When every execution settles with the same number of answers, that number decides. -/
theorem answersOnce_iff (ht : ∀ s r, ∃ a s', serve s r a s') (hp : p.Weighs serve w s n) :
    p.AnswersOnce serve w s ↔ n = 1 := by
  constructor
  · intro ha
    obtain ⟨-, e, he, hw⟩ := ha _ .refl
    rw [← hw, weight_of_weighs hp he]
  · rintro rfl d hd
    obtain ⟨e, he, hq⟩ := exists_settles ht d
    have hw := weight_of_weighs hp ⟨hd.trans he, hq⟩
    exact ⟨hw ▸ weight_mono he, e, ⟨he, hq⟩, hw⟩

end AnswersOnce

end EventLoop
