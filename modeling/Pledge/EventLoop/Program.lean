import Mathlib.Data.List.Basic
import Mathlib.Tactic.Common

/-!
# Callback programs

Straight-line code of one turn of a single-threaded event loop. A program reads and
changes its own state, captures local variables in closures, issues requests whose
callbacks run in a later turn, and emits observable effects. What lies beyond its
requests is a second state, which it can neither read nor change.
-/

namespace EventLoop

/-- Code of one turn. `σ` is the program's state, `ν` the contents of a captured variable,
`ω` the observable effects, and `Resp r` the answers a request `r` may receive. -/
inductive Program (σ ν ω : Type) {ρ : Type} (Resp : ρ → Type) : Type
  | stop
  | emit (o : ω) (next : Program σ ν ω Resp)
  | modify (f : σ → σ) (next : Program σ ν ω Resp)
  | read (k : σ → Program σ ν ω Resp)
  | alloc (v : ν) (k : ℕ → Program σ ν ω Resp)
  | load (x : ℕ) (k : ν → Program σ ν ω Resp)
  | store (x : ℕ) (v : ν) (next : Program σ ν ω Resp)
  | request (r : ρ) (callback : Resp r → Program σ ν ω Resp) (next : Program σ ν ω Resp)

/-- A request that has been issued and whose callback has not run yet. -/
abbrev Call (σ ν ω : Type) {ρ : Type} (Resp : ρ → Type) : Type :=
  (r : ρ) × (Resp r → Program σ ν ω Resp)

/-- The loop between two turns; the second half of the state is the environment's. -/
structure Config (σ ε ν ω : Type) {ρ : Type} (Resp : ρ → Type) where
  state : σ × ε
  heap : List ν
  pending : List (Call σ ν ω Resp)
  out : List ω

variable {σ ε ν ω ρ α : Type} {Resp : ρ → Type}

/-- Nothing captured, nothing pending, nothing emitted. -/
def Config.fresh (Resp : ρ → Type) (s : σ × ε) : Config σ ε ν ω Resp := ⟨s, [], [], []⟩

namespace Program

/-- Statement sequencing within one turn; callbacks are closures and are left alone. -/
def andThen : Program σ ν ω Resp → Program σ ν ω Resp → Program σ ν ω Resp
  | stop, q => q
  | emit o p, q => emit o (p.andThen q)
  | modify f p, q => modify f (p.andThen q)
  | read k, q => read fun s => (k s).andThen q
  | alloc v k, q => alloc v fun x => (k x).andThen q
  | load x k, q => load x fun v => (k v).andThen q
  | store x v p, q => store x v (p.andThen q)
  | request r callback p, q => request r callback (p.andThen q)

/-- `for a in xs { body a }`. -/
def forEach (xs : List α) (body : α → Program σ ν ω Resp) : Program σ ν ω Resp :=
  xs.foldr (fun a p => (body a).andThen p) stop

/-- Issue `r` and return to the caller. -/
def ask (r : ρ) (callback : Resp r → Program σ ν ω Resp) : Program σ ν ω Resp :=
  request r callback stop

section Exec

variable [Inhabited ν]

/-- Run one turn to its end; issued requests stay pending. -/
def exec : Program σ ν ω Resp → Config σ ε ν ω Resp → Config σ ε ν ω Resp
  | stop, c => c
  | emit o p, c => p.exec { c with out := c.out ++ [o] }
  | modify f p, c => p.exec { c with state := (f c.state.1, c.state.2) }
  | read k, c => (k c.state.1).exec c
  | alloc v k, c => (k c.heap.length).exec { c with heap := c.heap ++ [v] }
  | load x k, c => (k (c.heap.getD x default)).exec c
  | store x v p, c => p.exec { c with heap := c.heap.set x v }
  | request r callback p, c => p.exec { c with pending := c.pending ++ [⟨r, callback⟩] }

variable (c : Config σ ε ν ω Resp)

@[simp] theorem exec_stop : (stop : Program σ ν ω Resp).exec c = c := rfl

@[simp] theorem exec_emit (o : ω) (p : Program σ ν ω Resp) :
    (emit o p).exec c = p.exec { c with out := c.out ++ [o] } := rfl

@[simp] theorem exec_modify (f : σ → σ) (p : Program σ ν ω Resp) :
    (modify f p).exec c = p.exec { c with state := (f c.state.1, c.state.2) } := rfl

@[simp] theorem exec_read (k : σ → Program σ ν ω Resp) :
    (read k).exec c = (k c.state.1).exec c := rfl

@[simp] theorem exec_alloc (v : ν) (k : ℕ → Program σ ν ω Resp) :
    (alloc v k).exec c = (k c.heap.length).exec { c with heap := c.heap ++ [v] } := rfl

@[simp] theorem exec_store (x : ℕ) (v : ν) (p : Program σ ν ω Resp) :
    (store x v p).exec c = p.exec { c with heap := c.heap.set x v } := rfl

@[simp] theorem exec_request (r : ρ) (callback : Resp r → Program σ ν ω Resp)
    (p : Program σ ν ω Resp) :
    (request r callback p).exec c =
      p.exec { c with pending := c.pending ++ [⟨r, callback⟩] } := rfl

@[simp] theorem exec_ask (r : ρ) (callback : Resp r → Program σ ν ω Resp) :
    (ask r callback).exec c = { c with pending := c.pending ++ [⟨r, callback⟩] } := rfl

@[simp] theorem exec_load (x : ℕ) (k : ν → Program σ ν ω Resp) :
    (load x k).exec c = (k (c.heap.getD x default)).exec c := rfl

@[simp] theorem exec_andThen (p q : Program σ ν ω Resp) :
    (p.andThen q).exec c = q.exec (p.exec c) := by
  induction p generalizing c with
  | stop => rfl
  | emit o p ih => exact ih _
  | modify f p ih => exact ih _
  | read k ih => exact ih _ _
  | alloc v k ih => exact ih _ _
  | load x k ih => exact ih _ _
  | store x v p ih => exact ih _
  | request r callback p _ ih => exact ih _

@[simp] theorem exec_forEach_nil (body : α → Program σ ν ω Resp) :
    (forEach [] body).exec c = c := rfl

@[simp] theorem exec_forEach_cons (a : α) (xs : List α) (body : α → Program σ ν ω Resp) :
    (forEach (a :: xs) body).exec c = (forEach xs body).exec ((body a).exec c) := by
  simp [forEach]

end Exec

end Program

end EventLoop
