import Pledge.EventLoop.Contract

/-!
# Noninterference

A group of clients over a shared server, with and without the others around. Where the others
change nothing on the server that the group can tell apart, every run can be repeated by the
group alone.
-/

namespace EventLoop
open Program

variable {ι τ σ ε ν ω ρ : Type} {Resp : ρ → Type}

/-- An answer without the server that gave it. -/
abbrev Answer (σ ν ω : Type) {ρ : Type} (Resp : ρ → Type) : Type :=
  (c : Call σ ν ω Resp) × Resp c.1

def Reply.answer (x : Reply σ ε ν ω Resp) : Answer σ ν ω Resp := ⟨⟨x.request, x.callback⟩, x.response⟩

section Exec

variable [Inhabited ν]

/-- What a turn does to its client is not decided by the environment. -/
theorem exec_withEnv (p : Program σ ν ω Resp) (c : Config σ ε ν ω Resp) (e : ε) :
    p.exec { c with state := (c.state.1, e) } =
      { p.exec c with state := ((p.exec c).state.1, e) } := by
  induction p generalizing c with
  | stop => rfl
  | emit o p ih => exact ih { c with out := c.out ++ [o] }
  | modify f p ih => exact ih { c with state := (f c.state.1, c.state.2) }
  | read k ih => exact ih c.state.1 c
  | alloc v k ih => exact ih c.heap.length { c with heap := c.heap ++ [v] }
  | load x k ih => exact ih (c.heap.getD x default) c
  | store x v p ih => exact ih { c with heap := c.heap.set x v }
  | request r callback p _ ih => exact ih { c with pending := c.pending ++ [⟨r, callback⟩] }

end Exec

namespace Network

/-- Runs in which `C` says which programs a client calls. -/
def Calling (C : τ → Program σ ν ω Resp → Prop) (_ : Network ι τ σ ε ν ω Resp) :
    Move τ σ ε ν ω Resp → Prop
  | .call t p => C t p
  | .serve .. => True
  | .deliver .. => True

section Group

variable (owner : τ → ι) (G : ι → Prop) [DecidablePred G]

/-- What is in flight for the group. -/
def ofGroup {β : Type} (l : List (τ × β)) : List (τ × β) := l.filter fun x => G (owner x.1)

@[simp] theorem ofGroup_append {β : Type} (l l' : List (τ × β)) :
    ofGroup owner G (l ++ l') = ofGroup owner G l ++ ofGroup owner G l' :=
  List.filter_append l l'

variable {owner G}

theorem ofGroup_cons_of_pos {β : Type} {t : τ} {b : β} {l : List (τ × β)} (h : G (owner t)) :
    ofGroup owner G ((t, b) :: l) = (t, b) :: ofGroup owner G l :=
  List.filter_cons_of_pos (by simpa using h)

theorem ofGroup_cons_of_neg {β : Type} {t : τ} {b : β} {l : List (τ × β)} (h : ¬ G (owner t)) :
    ofGroup owner G ((t, b) :: l) = ofGroup owner G l :=
  List.filter_cons_of_neg (by simpa using h)

theorem ofGroup_tagged {β : Type} {t : τ} (l : List β) :
    ofGroup owner G (l.map (t, ·)) = if G (owner t) then l.map (t, ·) else [] := by
  by_cases h : G (owner t) <;> simp [ofGroup, h, List.filter_map, Function.comp_def]

end Group

variable [Inhabited ν] [DecidableEq ι] {owner : τ → ι} {G : ι → Prop} [DecidablePred G]
  {serve : ε → (r : ρ) → Resp r → ε → Prop} {R : ε → ε → Prop}
  {n n' m : Network ι τ σ ε ν ω Resp}

omit [Inhabited ν] [DecidableEq ι] in
/-- `m` is `n` as far as the group can tell; `R` relates the two servers. -/
structure Looks (owner : τ → ι) (G : ι → Prop) [DecidablePred G] (R : ε → ε → Prop)
    (n m : Network ι τ σ ε ν ω Resp) : Prop where
  client : ∀ i, G i → m.client i = n.client i
  env : R n.env m.env
  pending : m.pending = ofGroup owner G n.pending
  answered : m.answered.map (fun x => (x.1, x.2.answer)) =
    (ofGroup owner G n.answered).map fun x => (x.1, x.2.answer)

/-- A client of the group takes its turn with the group alone, too. -/
theorem looks_turn (h : Looks owner G R n m) {t : τ} (ht : G (owner t)) (p : Program σ ν ω Resp) :
    Looks owner G R (n.turn owner t p) (m.turn owner t p) := by
  have hexec := exec_withEnv p
    (⟨((n.client (owner t)).state, n.env), (n.client (owner t)).heap, [], (n.client (owner t)).out⟩ :
      Config σ ε ν ω Resp) m.env
  have hsame := h.client (owner t) ht
  refine ⟨fun i hi => ?_, h.env, ?_, h.answered⟩
  · by_cases he : i = owner t
    · subst he
      simp only [turn, Function.update_self, hsame]
      rw [hexec]
    · simp only [turn, Function.update_of_ne he]
      exact h.client i hi
  · simp only [turn, hsame, ofGroup_append, ofGroup_tagged, if_pos ht, h.pending]
    rw [hexec]

/-- The others' turns are not seen. -/
theorem looks_turn_other (h : Looks owner G R n m) {t : τ} (ht : ¬ G (owner t))
    (p : Program σ ν ω Resp) : Looks owner G R (n.turn owner t p) m := by
  refine ⟨fun i hi => ?_, h.env, ?_, h.answered⟩
  · have he : i ≠ owner t := by
      rintro rfl
      exact ht hi
    simp only [turn, Function.update_of_ne he]
    exact h.client i hi
  · simp only [turn, ofGroup_append, ofGroup_tagged, if_neg ht, List.append_nil, h.pending]

omit [Inhabited ν] [DecidableEq ι] in
/-- An answer of the group is on its way with the group alone, too. -/
theorem looks_answered (h : Looks owner G R n m) {pre post : List (τ × Reply σ ε ν ω Resp)} {t : τ}
    {reply : Reply σ ε ν ω Resp} (ht : G (owner t)) (hp : n.answered = pre ++ (t, reply) :: post) :
    ∃ pre' reply' post', m.answered = pre' ++ (t, reply') :: post' ∧ reply'.answer = reply.answer ∧
      Looks owner G R { n with answered := pre ++ post } { m with answered := pre' ++ post' } := by
  have hmap := h.answered
  rw [hp, ofGroup_append, ofGroup_cons_of_pos ht, List.map_append, List.map_cons,
    List.map_eq_append_iff] at hmap
  obtain ⟨pre', rest, hm, hpre, hrest⟩ := hmap
  obtain ⟨⟨t', reply'⟩, post', rfl, hx, hpost⟩ := List.map_eq_cons_iff.mp hrest
  obtain ⟨rfl, hanswer⟩ := Prod.mk.inj hx
  refine ⟨pre', reply', post', hm, hanswer, h.client, h.env, h.pending, ?_⟩
  rw [List.map_append, hpre, hpost, ofGroup_append, List.map_append]

/-- Requests of the group are answered the same by two servers that look the same to it, and
those of the others leave it in the dark. -/
structure Separates (G : ι → Prop) (K : ι → Contract σ ν ω Resp)
    (serve : ε → (r : ρ) → Resp r → ε → Prop) (R : ε → ε → Prop) : Prop where
  own : ∀ i s e r a s', G i → (K i).asks r → R s e → serve s r a s' → ∃ e', serve e r a e' ∧ R s' e'
  other : ∀ i s e r a s', ¬ G i → (K i).asks r → R s e → serve s r a s' → R s' e

variable {K : ι → Contract σ ν ω Resp} {C : τ → Program σ ν ω Resp → Prop}

/-- One move, seen by the group: it makes the same move, or nothing has happened. -/
theorem looks_step (hsep : Separates G K serve R) {e : Move τ σ ε ν ω Resp}
    (hn : n.Meets owner K) (hok : Calling C n e) (hs : Step owner serve n e n')
    (h : Looks owner G R n m) :
    Looks owner G R n' m ∨ ∃ e' m', Calling (fun t p => G (owner t) ∧ C t p) m e' ∧
      Step owner serve m e' m' ∧ Looks owner G R n' m' := by
  cases hs with
  | call t p =>
    by_cases ht : G (owner t)
    · exact .inr ⟨.call t p, _, ⟨ht, hok⟩, .call m t p, looks_turn h ht p⟩
    · exact .inl (looks_turn_other h ht p)
  | @serve pre post t reply hp hr =>
    have hasks : (K (owner t)).asks reply.request := (hn.pending _ (mem_of_taken hp)).1
    have hpending := h.pending
    rw [hp, ofGroup_append] at hpending
    by_cases ht : G (owner t)
    · rw [ofGroup_cons_of_pos ht] at hpending
      obtain ⟨e', hserve, hR⟩ := hsep.own (owner t) _ _ _ _ _ ht hasks h.env hr
      refine .inr ⟨.serve _ t { reply with env := e' } _, _, trivial, .serve hpending hserve,
        h.client, hR, (ofGroup_append owner G pre post).symm, ?_⟩
      have hlast : ofGroup owner G [(t, reply)] = [(t, reply)] := ofGroup_cons_of_pos ht
      simp only [List.map_append, ofGroup_append, h.answered, hlast]
      rfl
    · rw [ofGroup_cons_of_neg ht, ← ofGroup_append] at hpending
      refine .inl ⟨h.client, hsep.other (owner t) _ _ _ _ _ ht hasks h.env hr, hpending, ?_⟩
      have hlast : ofGroup owner G [(t, reply)] = [] := ofGroup_cons_of_neg ht
      simp only [ofGroup_append, hlast, List.append_nil]
      exact h.answered
  | @deliver pre post t reply hp =>
    by_cases ht : G (owner t)
    · obtain ⟨pre', reply', post', hm, hanswer, hrest⟩ := looks_answered h ht hp
      refine .inr ⟨.deliver pre' t reply' post', _, trivial, .deliver hm, ?_⟩
      obtain ⟨request, callback, response, env⟩ := reply
      obtain ⟨request', callback', response', env'⟩ := reply'
      cases hanswer
      exact looks_turn hrest ht _
    · have hanswered := h.answered
      rw [hp, ofGroup_append, ofGroup_cons_of_neg ht, ← ofGroup_append] at hanswered
      have hrest : Looks owner G R { n with answered := pre ++ post } m :=
        ⟨h.client, h.env, h.pending, hanswered⟩
      exact .inl (looks_turn_other hrest ht _)

/-- Every run of all the clients can be repeated by the group alone, on any server that looks
the same to it. -/
theorem run_group {I : ε → Prop} (hdefault : ∀ i, (K i).captures default)
    (hsep : Separates G K serve R) (hcall : ∀ t p, C t p → p.Meets (K (owner t)))
    (hserve : ∀ i s r a s', I s → (K i).asks r → serve s r a s' → (K i).answers r a ∧ I s')
    {n₀ m₀ : Network ι τ σ ε ν ω Resp} (h₀ : n₀.Meets owner K) (hi : I n₀.env)
    (hlooks : Looks owner G R n₀ m₀) (h : Run owner serve (Calling C) n₀ n) :
    ∃ m, Run owner serve (Calling fun t p => G (owner t) ∧ C t p) m₀ m ∧ Looks owner G R n m := by
  induction h with
  | refl => exact ⟨m₀, .refl, hlooks⟩
  | @step n n' e h hok hs ih =>
    obtain ⟨m, hm, hl⟩ := ih
    have hn : n.Meets owner K :=
      (run_meets hdefault (fun _ t p hp => hcall t p hp)
        (fun _ _ _ _ _ _ hI ha hr => hserve _ _ _ _ _ hI ha hr) h h₀ hi).1
    rcases looks_step hsep hn hok hs hl with hsame | ⟨e', m', hok', hs', hl'⟩
    · exact ⟨m, hm, hsame⟩
    · exact ⟨m', hm.step hok' hs', hl'⟩

end Network

end EventLoop
