import Pledge.EventLoop.Runs

/-!
# Counting joins

A loop issues several requests whose callbacks share one captured variable. Each
callback folds its answer into the variable; the one that completes the count goes on.
-/

namespace EventLoop
open Program

variable {σ ε ν ω ρ τ : Type} {Resp : ρ → Type} [Inhabited ν]
  {serve : σ × ε → (r : ρ) → Resp r → σ × ε → Prop} {c d : Config σ ε ν ω Resp}

/-- The shared callback body: fold `t` into variable `x`, and go on when `done`. -/
def Program.join (x : ℕ) (collect : ν → τ → ν) (done : ν → Bool)
    (k : ν → Program σ ν ω Resp) (t : τ) : Program σ ν ω Resp :=
  load x fun v => store x (collect v t) (if done (collect v t) then k (collect v t) else stop)

/-- A request together with how its answer is reported to the shared body. -/
abbrev Branch (τ : Type) {ρ : Type} (Resp : ρ → Type) : Type := (r : ρ) × (Resp r → τ)

/-- The call of a branch whose callback is the shared body. -/
def Branch.call (body : τ → Program σ ν ω Resp) (b : Branch τ Resp) : Call σ ν ω Resp :=
  ⟨b.1, fun a => body (b.2 a)⟩

/-- A branch with the answer it received. -/
abbrev Answered (τ : Type) {ρ : Type} (Resp : ρ → Type) : Type :=
  (b : Branch τ Resp) × Resp b.1

def Answered.value (a : Answered τ Resp) : τ := a.1.2 a.2

/-- The environment answers the branches one after the other. -/
inductive ServesAll (serve : σ × ε → (r : ρ) → Resp r → σ × ε → Prop) :
    σ × ε → List (Answered τ Resp) → σ × ε → Prop
  | nil (s : σ × ε) : ServesAll serve s [] s
  | cons {s s₁ s₂ : σ × ε} {a : Answered τ Resp} {l : List (Answered τ Resp)}
      (h : serve s a.1.1 a.2 s₁) (t : ServesAll serve s₁ l s₂) : ServesAll serve s (a :: l) s₂

/-- Folding the reported values in the order in which the answers arrived. -/
def collectAll (collect : ν → τ → ν) (v : ν) (l : List (Answered τ Resp)) : ν :=
  (l.map Answered.value).foldl collect v

theorem ServesAll.mono {serve' : σ × ε → (r : ρ) → Resp r → σ × ε → Prop} {s s' : σ × ε}
    {l : List (Answered τ Resp)} (hm : ∀ s r a s', serve s r a s' → serve' s r a s')
    (h : ServesAll serve s l s') : ServesAll serve' s l s' := by
  induction h with
  | nil s => exact .nil s
  | cons h _ ih => exact .cons (hm _ _ _ _ h) ih

theorem exists_servesAll {P : ρ → Prop} (ht : ∀ s r, P r → ∃ a s', serve s r a s')
    (branches : List (Branch τ Resp)) (hb : ∀ b ∈ branches, P b.1) (s : σ × ε) :
    ∃ (answers : List (Answered τ Resp)) (s' : σ × ε),
      answers.map Sigma.fst = branches ∧ ServesAll serve s answers s' := by
  induction branches generalizing s with
  | nil => exact ⟨[], s, rfl, .nil s⟩
  | cons b rest ih =>
    obtain ⟨a, s₁, hs⟩ := ht s b.1 (hb b (by simp))
    obtain ⟨answers, s₂, rfl, hrest⟩ := ih (fun c hc => hb c (by simp [hc])) s₁
    exact ⟨⟨b, a⟩ :: answers, s₂, rfl, .cons hs hrest⟩

theorem exec_join {x : ℕ} {v : ν} (hx : c.heap[x]? = some v) (collect : ν → τ → ν)
    (done : ν → Bool) (k : ν → Program σ ν ω Resp) (t : τ) :
    (join x collect done k t).exec c =
      (if done (collect v t) then k (collect v t) else stop).exec
        { c with heap := c.heap.set x (collect v t) } := by
  simp [join, hx]

/-- One answer to a family of branches sharing a body. -/
theorem delivers_branches {body : τ → Program σ ν ω Resp} {branches : List (Branch τ Resp)}
    (hp : c.pending = branches.map (Branch.call body)) :
    Delivers serve c d ↔ ∃ pre b post a s, branches = pre ++ b :: post ∧
      serve c.state b.1 a s ∧
      d = (body (b.2 a)).exec
        { c with state := s, pending := (pre ++ post).map (Branch.call body) } := by
  constructor
  · intro h
    cases h with
    | @answer pre post r callback a s hsplit hs =>
      rw [hp, List.map_eq_append_iff] at hsplit
      obtain ⟨pre', rest, rfl, rfl, hrest⟩ := hsplit
      obtain ⟨b, post', rfl, hb, rfl⟩ := List.map_eq_cons_iff.mp hrest
      cases hb
      exact ⟨pre', b, post', a, s, rfl, hs, by simp⟩
  · rintro ⟨pre, b, post, a, s, rfl, hs, rfl⟩
    have hsplit : c.pending =
        pre.map (Branch.call body) ++ Branch.call body b :: post.map (Branch.call body) := by
      simp [hp]
    have h := Delivers.answer hsplit hs
    simpa [Branch.call] using h

section Settle

variable {x n : ℕ} {v : ν} {collect : ν → τ → ν} {done : ν → Bool}
  {k : ν → Program σ ν ω Resp} {count : ν → ℕ} {branches : List (Branch τ Resp)}

/-- The configuration in which the continuation of a join starts. -/
def Config.joined (c : Config σ ε ν ω Resp) (s : σ × ε) (x : ℕ) (v : ν) : Config σ ε ν ω Resp :=
  { c with state := s, heap := c.heap.set x v, pending := [] }

/-- One turn of a join that still waits for `rest`, or completes when there is none. -/
theorem join_turn (hcount : ∀ v t, count (collect v t) = count v + 1)
    (hdone : ∀ v, done v = (count v == n)) (hx : c.heap[x]? = some v)
    (hn : count v + (branches.length + 1) = n) (s : σ × ε) (t : τ) :
    (join x collect done k t).exec
        { c with state := s, pending := branches.map (Branch.call (join x collect done k)) } =
      if branches = [] then (k (collect v t)).exec (c.joined s x (collect v t))
      else { c with
        state := s
        heap := c.heap.set x (collect v t)
        pending := branches.map (Branch.call (join x collect done k)) } := by
  have hd : done (collect v t) = (branches.length == 0) := by
    rw [hdone, hcount, Bool.eq_iff_iff]
    simp only [beq_iff_eq]
    omega
  rw [exec_join (by exact hx), hd]
  cases branches with
  | nil => simp [Config.joined]
  | cons b rest => simp

/-- A settled join has answered its branches in some order, once each, and then run the
continuation once on what they reported. -/
theorem settles_join (hcount : ∀ v t, count (collect v t) = count v + 1)
    (hdone : ∀ v, done v = (count v == n))
    (hp : c.pending = branches.map (Branch.call (join x collect done k)))
    (hx : c.heap[x]? = some v) (hn : count v + branches.length = n) (hne : branches ≠ []) :
    Settles serve c d ↔ ∃ (answers : List (Answered τ Resp)) (s : σ × ε),
      (answers.map Sigma.fst).Perm branches ∧ ServesAll serve c.state answers s ∧
      Settles serve ((k (collectAll collect v answers)).exec
        (c.joined s x (collectAll collect v answers))) d := by
  induction hlen : branches.length generalizing c v branches with
  | zero => exact absurd (List.length_eq_zero_iff.mp hlen) hne
  | succ m ih =>
    have hlt : x < c.heap.length := (List.getElem?_eq_some_iff.mp hx).1
    -- the rest of the join after its first answer, by induction
    have hrest : ∀ (pre post : List (Branch τ Resp)) (b : Branch τ Resp) (a : Resp b.1) (s : σ × ε),
        branches = pre ++ b :: post → pre ++ post ≠ [] →
        (Settles serve { c with
            state := s
            heap := c.heap.set x (collect v (b.2 a))
            pending := (pre ++ post).map (Branch.call (join x collect done k)) } d ↔
          ∃ (answers : List (Answered τ Resp)) (s' : σ × ε),
            (answers.map Sigma.fst).Perm (pre ++ post) ∧ ServesAll serve s answers s' ∧
            Settles serve ((k (collectAll collect v (⟨b, a⟩ :: answers))).exec
              (c.joined s' x (collectAll collect v (⟨b, a⟩ :: answers)))) d) := by
      rintro pre post b a s rfl hne'
      have hx' : (c.heap.set x (collect v (b.2 a)))[x]? = some (collect v (b.2 a)) :=
        List.getElem?_set_self hlt
      rw [ih rfl hx' (by rw [hcount]; simp at hn ⊢; omega) hne'
        (by simp at hlen ⊢; omega)]
      simp [Config.joined, collectAll, Answered.value]
    constructor
    · rintro ⟨hr, hq⟩
      rcases hr.cases_head with rfl | ⟨e, he, hed⟩
      · simp [Config.Quiet, hp, hne] at hq
      obtain ⟨pre, b, post, a, s, rfl, hs, rfl⟩ := (delivers_branches hp).mp he
      rw [join_turn hcount hdone hx (by simp at hn ⊢; omega)] at hed
      split at hed
      · rename_i hnil
        obtain ⟨rfl, rfl⟩ := List.append_eq_nil_iff.mp hnil
        exact ⟨[⟨b, a⟩], s, .rfl, .cons hs (.nil s), hed, hq⟩
      · rename_i hne'
        obtain ⟨answers, s', hperm, hserve, hk⟩ :=
          (hrest pre post b a s rfl hne').mp ⟨hed, hq⟩
        exact ⟨⟨b, a⟩ :: answers, s', (hperm.cons b).trans List.perm_middle.symm,
          .cons hs hserve, hk⟩
    · rintro ⟨answers, s', hperm, hserve, hk⟩
      cases hserve with
      | nil => exact absurd (List.nil_perm.mp hperm) hne
      | @cons _ s₁ _ a l hs hserve =>
        obtain ⟨b, a⟩ := a
        obtain ⟨pre, post, rfl⟩ := List.append_of_mem (hperm.subset (by simp : b ∈ _))
        have hl : (l.map Sigma.fst).Perm (pre ++ post) :=
          (List.perm_cons b).mp (hperm.trans List.perm_middle)
        have hdel := (delivers_branches hp).mpr ⟨pre, b, post, a, s₁, rfl, hs, rfl⟩
        rw [join_turn hcount hdone hx (by simp at hn ⊢; omega)] at hdel
        split at hdel
        · rename_i hnil
          rw [hnil, List.perm_nil, List.map_eq_nil_iff] at hl
          subst hl
          cases hserve
          exact ⟨.head hdel hk.1, hk.2⟩
        · rename_i hne'
          have hset := (hrest pre post b a s₁ rfl hne').mpr ⟨l, s', hl, hserve, hk⟩
          exact ⟨.head hdel hset.1, hset.2⟩

/-- On its way a join has emitted nothing and still waits, or its continuation has started. -/
theorem runs_join (hcount : ∀ v t, count (collect v t) = count v + 1)
    (hdone : ∀ v, done v = (count v == n))
    (hp : c.pending = branches.map (Branch.call (join x collect done k)))
    (hx : c.heap[x]? = some v) (hn : count v + branches.length = n) (hne : branches ≠ [])
    (h : Runs serve c d) :
    (d.out = c.out ∧ ¬ d.Quiet) ∨ ∃ v s, Runs serve ((k v).exec (c.joined s x v)) d := by
  have hlt : x < c.heap.length := (List.getElem?_eq_some_iff.mp hx).1
  -- the configurations in which the join still waits
  have hwait : (∃ s v' rest, rest ≠ [] ∧ count v' + rest.length = n ∧ d = { c with
      state := s
      heap := c.heap.set x v'
      pending := rest.map (Branch.call (join x collect done k)) }) ∨
      ∃ v s, Runs serve ((k v).exec (c.joined s x v)) d := by
    induction h with
    | refl =>
      refine .inl ⟨c.state, v, branches, hne, hn, ?_⟩
      have hset : c.heap.set x v = c.heap := by
        rw [← (List.getElem?_eq_some_iff.mp hx).2]
        exact List.set_getElem_self hlt
      rw [hset, ← hp]
    | @tail d e _ hde ih =>
      rcases ih with ⟨s, v', rest, -, hn', rfl⟩ | ⟨v', s, hk⟩
      · obtain ⟨pre, b, post, a, s', rfl, -, rfl⟩ := (delivers_branches rfl).mp hde
        have hx' : (c.heap.set x v')[x]? = some v' := List.getElem?_set_self hlt
        have hlen : count v' + ((pre ++ post).length + 1) = n := by
          simp at hn' ⊢
          omega
        have hturn := join_turn (k := k)
          (c := { c with state := s, heap := c.heap.set x v', pending :=
            (pre ++ b :: post).map (Branch.call (join x collect done k)) })
          hcount hdone hx' hlen s' (b.2 a)
        rw [hturn]
        split
        · refine .inr ⟨collect v' (b.2 a), s', ?_⟩
          simp only [Config.joined, List.set_set]
          exact .refl
        · rename_i hrest
          refine .inl ⟨s', collect v' (b.2 a), pre ++ post, hrest, ?_, by simp⟩
          rw [hcount]
          omega
      · exact .inr ⟨v', s, hk.tail hde⟩
  rcases hwait with ⟨s, v', rest, hrest, -, rfl⟩ | hk
  · exact .inl ⟨rfl, by simpa [Config.Quiet] using hrest⟩
  · exact .inr hk

end Settle

end EventLoop
