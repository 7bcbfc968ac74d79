import Mathlib.Data.List.TakeWhile
import Pledge.EventLoop.Footprint

/-!
# Requests that cannot be built

Building some requests throws an exception that nobody catches. The turn ends there, and with it
the process: what the loop has issued before is left without the answers it counts on.
-/

namespace EventLoop
open Program

variable {σ ε ν ω ρ τ α : Type} {Resp : ρ → Type} {raises : ρ → Bool} {p q : Program σ ν ω Resp}

/-- `p` as far as its requests can be built. -/
def Program.upTo (raises : ρ → Bool) : Program σ ν ω Resp → Program σ ν ω Resp
  | stop => stop
  | emit o p => emit o (p.upTo raises)
  | modify f p => modify f (p.upTo raises)
  | read k => read fun s => (k s).upTo raises
  | alloc v k => alloc v fun x => (k x).upTo raises
  | load x k => load x fun v => (k v).upTo raises
  | store x v p => store x v (p.upTo raises)
  | request r callback p =>
    match raises r with
    | true => stop
    | false => request r (fun a => (callback a).upTo raises) (p.upTo raises)

theorem upTo_ask {r : ρ} {callback : Resp r → Program σ ν ω Resp} (h : raises r = false) :
    (ask r callback).upTo raises = ask r fun a => (callback a).upTo raises := by
  simp [ask, upTo, h]

theorem upTo_ask_of_raises {r : ρ} {callback : Resp r → Program σ ν ω Resp} (h : raises r = true) :
    (ask r callback).upTo raises = stop := by
  simp [ask, upTo, h]

theorem upTo_join {x : ℕ} {collect : ν → τ → ν} {done : ν → Bool} {k : ν → Program σ ν ω Resp}
    {t : τ} : (join x collect done k t).upTo raises =
      join x collect done (fun v => (k v).upTo raises) t := by
  simp only [join, upTo]
  congr
  funext v
  split <;> rfl

/-- A loop issues the requests in front of the first one that cannot be built. -/
theorem upTo_forEach_ask {xs : List α} {req : α → ρ}
    {callback : (a : α) → Resp (req a) → Program σ ν ω Resp} :
    (forEach xs fun a => ask (req a) (callback a)).upTo raises =
      forEach (xs.takeWhile fun a => !raises (req a)) fun a =>
        ask (req a) fun resp => (callback a resp).upTo raises := by
  induction xs with
  | nil => rfl
  | cons a xs ih =>
    show (request (req a) (callback a) (forEach xs fun a => ask (req a) (callback a))).upTo raises = _
    cases hr : raises (req a) with
    | true => simp [upTo, hr, forEach]
    | false =>
      rw [List.takeWhile_cons_of_pos (by simp [hr])]
      simp only [upTo, hr, ih]
      rfl

theorem upTo_fanOut {xs : List α} {req : α → ρ} {report : (a : α) → Resp (req a) → τ} {v : ν}
    {collect : ν → τ → ν} {done : ν → Bool} {k : ν → Program σ ν ω Resp} :
    (fanOut xs req report v collect done k).upTo raises =
      fanOut (xs.takeWhile fun a => !raises (req a)) req report v collect done
        fun v => (k v).upTo raises := by
  simp only [fanOut, upTo, upTo_forEach_ask, upTo_join]

theorem takeWhile_of_not_raises {xs : List α} {req : α → ρ} (h : ∀ a ∈ xs, raises (req a) = false) :
    (xs.takeWhile fun a => !raises (req a)) = xs :=
  List.takeWhile_eq_self_iff.mpr fun a ha => by simp [h a ha]

theorem length_takeWhile_lt {xs : List α} {req : α → ρ} {a : α} (ha : a ∈ xs)
    (h : raises (req a) = true) : (xs.takeWhile fun a => !raises (req a)).length < xs.length := by
  refine lt_of_le_of_ne (List.takeWhile_prefix _).length_le fun he => ?_
  have hall := List.takeWhile_eq_self_iff.mp ((List.takeWhile_prefix _).eq_of_length he) a ha
  simp [h] at hall

/-! ## A count that is never reached -/

variable [Inhabited ν] {serve : σ × ε → (r : ρ) → Resp r → σ × ε → Prop} {c d : Config σ ε ν ω Resp}
  {collect : ν → τ → ν} {done : ν → Bool} {k : ν → Program σ ν ω Resp} {count : ν → ℕ}

/-- What is pending reports to the variable `x`, which will still be short of `n` in the end. -/
structure Short (collect : ν → τ → ν) (done : ν → Bool) (k : ν → Program σ ν ω Resp) (count : ν → ℕ)
    (n x : ℕ) (c : Config σ ε ν ω Resp) : Prop where
  calls : ∀ a ∈ c.pending, ∃ report : Resp a.1 → τ, a.2 = fun resp => join x collect done k (report resp)
  held : ∃ v, c.heap[x]? = some v ∧ count v + c.pending.length < n

theorem short_delivers {n x : ℕ} (hcount : ∀ v t, count (collect v t) = count v + 1)
    (hdone : ∀ v, done v = (count v == n)) (hc : Short collect done k count n x c)
    (h : Delivers serve c d) : Short collect done k count n x d ∧ d.out = c.out := by
  cases h with
  | @answer pre post r callback a s hp hs =>
    obtain ⟨report, hcall⟩ := hc.calls ⟨r, callback⟩ (mem_of_taken hp)
    have hbody : callback a = join x collect done k (report a) := congrFun hcall a
    obtain ⟨v, hv, hlt⟩ := hc.held
    have hlength : (pre ++ post).length + 1 = c.pending.length := by
      rw [hp]
      simp
      omega
    have hnot : done (collect v (report a)) = false := by
      rw [hdone, hcount, beq_eq_false_iff_ne]
      omega
    rw [hbody, exec_join (c := { c with state := s, pending := pre ++ post }) hv, hnot]
    refine ⟨⟨fun a ha => hc.calls a (mem_of_mem_rest hp ha), collect v (report a), ?_, ?_⟩, rfl⟩
    · exact List.getElem?_set_self (List.getElem?_eq_some_iff.mp hv).1
    · rw [hcount]
      simp only [Bool.false_eq_true, if_false, exec_stop]
      omega

theorem short_runs {n x : ℕ} (hcount : ∀ v t, count (collect v t) = count v + 1)
    (hdone : ∀ v, done v = (count v == n)) (hc : Short collect done k count n x c)
    (h : Runs serve c d) : d.out = c.out := by
  have hkeep : Short collect done k count n x d ∧ d.out = c.out := by
    induction h with
    | refl => exact ⟨hc, rfl⟩
    | tail _ h ih =>
      obtain ⟨hd, hout⟩ := short_delivers hcount hdone ih.1 h
      exact ⟨hd, hout.trans ih.2⟩
  exact hkeep.2

/-- A loop that misses a request never goes on, whatever is answered. -/
theorem runs_fanOut_of_raises {xs : List α} {req : α → ρ} {report : (a : α) → Resp (req a) → τ} {v : ν}
    {n : ℕ} {a : α} (count : ν → ℕ) (hcount : ∀ v t, count (collect v t) = count v + 1)
    (hdone : ∀ v, done v = (count v == n)) (hn : count v + xs.length = n) (ha : a ∈ xs)
    (hr : raises (req a) = true) {s : σ × ε} {h : List ν} {o : List ω}
    (hd : Runs serve (((fanOut xs req report v collect done k).upTo raises).exec ⟨s, h, [], o⟩) d) :
    d.out = o := by
  have hlt : (xs.takeWhile fun a => !raises (req a)).length < xs.length := length_takeWhile_lt ha hr
  rw [upTo_fanOut, exec_fanOut] at hd
  refine short_runs hcount hdone ?_ hd (k := fun v => (k v).upTo raises) (x := h.length)
  refine ⟨fun call hcall => ?_, v, by simp, ?_⟩
  · rw [List.nil_append] at hcall
    obtain ⟨b, -, rfl⟩ := List.mem_map.mp hcall
    exact ⟨report b, rfl⟩
  · rw [List.nil_append, List.length_map]
    omega

end EventLoop
