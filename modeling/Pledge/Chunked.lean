import Mathlib.Algebra.Order.Floor.Div

/-!
# Arrays in chunks

`chunked(into:)`: the starts of a stride, and one slice for each of them.
-/

namespace Pledge

variable {α : Type}

/-- `stride(from:to:by:)`, which never reaches its end. -/
def stride (start stop size : ℕ) : List ℕ :=
  if start < stop ∧ 0 < size then start :: stride (start + size) stop size else []
termination_by stop - start

/-- `xs[lower ..< upper]`, which traps out of range. -/
def slice? (xs : List α) (lower upper : ℕ) : Option (List α) :=
  if lower ≤ upper ∧ upper ≤ xs.length then some ((xs.take upper).drop lower) else none

/-- `chunked(into:)`, where a stride by zero traps as well. -/
def chunked? (xs : List α) (size : ℕ) : Option (List (List α)) :=
  if size = 0 then none
  else (stride 0 xs.length size).mapM fun start => slice? xs start (min (start + size) xs.length)

/-- `stride(from: 0, to: count, by: size)` and one slice for each start. -/
def chunked {α : Type} (xs : List α) (size : ℕ) : List (List α) :=
  ((List.range ((xs.length + size - 1) / size)).map (· * size)).map fun start =>
    (xs.take (min (start + size) xs.length)).drop start

/-- Non-empty chunks that make up the list, all of them full but the last. -/
structure Chunking (xs : List α) (size : ℕ) (chunks : List (List α)) : Prop where
  flatten : chunks.flatten = xs
  ne_nil : ∀ chunk ∈ chunks, chunk ≠ []
  full : ∀ chunk ∈ chunks.dropLast, chunk.length = size
  length_le : ∀ chunk ∈ chunks, chunk.length ≤ size

/-! ## Chunkings -/

namespace Chunking

variable {xs chunk : List α} {chunks : List (List α)} {size : ℕ}

theorem nil (size : ℕ) : Chunking ([] : List α) size [] := by
  constructor <;> simp

theorem single (hne : xs ≠ []) (hle : xs.length ≤ size) : Chunking xs size [xs] := by
  constructor <;> simp [hne, hle]

theorem cons (hlength : chunk.length = size) (hs : 0 < size) (h : Chunking xs size chunks) :
    Chunking (chunk ++ xs) size (chunk :: chunks) where
  flatten := by rw [List.flatten_cons, h.flatten]
  ne_nil := by
    have hne : chunk ≠ [] := List.ne_nil_of_length_pos (hlength ▸ hs)
    exact List.forall_mem_cons.mpr ⟨hne, h.ne_nil⟩
  full := by
    intro c hc
    cases chunks with
    | nil => cases hc
    | cons d ds =>
      rcases List.mem_cons.mp hc with rfl | hc
      · exact hlength
      · exact h.full c hc
  length_le := List.forall_mem_cons.mpr ⟨hlength.le, h.length_le⟩

theorem tail (h : Chunking xs size (chunk :: chunks)) : Chunking chunks.flatten size chunks where
  flatten := rfl
  ne_nil c hc := h.ne_nil c (List.mem_cons_of_mem chunk hc)
  full c hc := by
    cases chunks with
    | nil => cases hc
    | cons d ds => exact h.full c (List.mem_cons_of_mem chunk hc)
  length_le c hc := h.length_le c (List.mem_cons_of_mem chunk hc)

/-- The number of chunks is fixed by what makes a chunking. -/
theorem length_eq (h : Chunking xs size chunks) : chunks.length = xs.length ⌈/⌉ size := by
  induction chunks generalizing xs with
  | nil =>
    obtain rfl := h.flatten
    rw [List.flatten_nil, List.length_nil, List.length_nil, zero_ceilDiv]
  | cons chunk chunks ih =>
    have hrest := ih h.tail
    have hpos : 0 < chunk.length := List.length_pos_iff.mpr (h.ne_nil chunk List.mem_cons_self)
    have hle := h.length_le chunk List.mem_cons_self
    have hlength : xs.length = chunk.length + chunks.flatten.length := by
      rw [← h.flatten, List.flatten_cons, List.length_append]
    rw [List.length_cons, hrest, hlength]
    simp only [Nat.ceilDiv_eq_add_pred_div]
    cases chunks with
    | nil =>
      -- the last chunk may be short, but it is there
      have hone : chunk.length + 0 + size - 1 = chunk.length - 1 + size := by omega
      rw [List.flatten_nil, List.length_nil, hone, Nat.add_div_right _ (by omega),
        Nat.div_eq_of_lt (by omega), Nat.div_eq_of_lt (by omega)]
    | cons d ds =>
      have hfull : chunk.length = size := h.full chunk List.mem_cons_self
      have hadd : size + (d :: ds).flatten.length + size - 1 = (d :: ds).flatten.length + size - 1 + size := by
        omega
      rw [hfull, hadd, Nat.add_div_right _ (by omega)]

end Chunking

/-! ## The chunks of a list -/

section Chunked

variable {xs : List α} {start stop size : ℕ}

theorem stride_eq (hs : 0 < size) : stride start stop size =
    (List.range ((stop - start) ⌈/⌉ size)).map fun i => start + i * size := by
  fun_induction stride start stop size with
  | case1 start h ih =>
    have hcount : (stop - start) ⌈/⌉ size = (stop - (start + size)) ⌈/⌉ size + 1 := by
      simp only [Nat.ceilDiv_eq_add_pred_div]
      by_cases hle : start + size ≤ stop
      · have hadd : stop - start + size - 1 = stop - (start + size) + size - 1 + size := by omega
        rw [hadd, Nat.add_div_right _ hs]
      · have hzero : stop - (start + size) = 0 := by omega
        have hone : stop - start + size - 1 = stop - start - 1 + size := by omega
        rw [hzero, hone, Nat.add_div_right _ hs, Nat.div_eq_of_lt (by omega), Nat.div_eq_of_lt (by omega)]
    rw [ih, hcount, List.range_succ_eq_map, List.map_cons, List.map_map, Nat.zero_mul, Nat.add_zero]
    refine congrArg (start :: ·) (List.map_congr_left fun i _ => ?_)
    rw [Function.comp_apply, Nat.succ_mul, Nat.add_assoc, Nat.add_comm size]
  | case2 start h =>
    have hzero : stop - start = 0 := by omega
    rw [hzero, zero_ceilDiv]
    rfl

theorem lt_of_mem_stride {i : ℕ} (hi : i ∈ stride start stop size) : i < stop := by
  fun_induction stride start stop size with
  | case1 start h ih =>
    rcases List.mem_cons.mp hi with rfl | hi
    · exact h.1
    · exact ih hi
  | case2 start h => cases hi

theorem chunked_eq (hs : 0 < size) :
    chunked xs size = (stride 0 xs.length size).map fun start =>
      (xs.take (min (start + size) xs.length)).drop start := by
  have hstarts : (List.range (xs.length ⌈/⌉ size)).map (· * size) = stride 0 xs.length size := by
    rw [stride_eq hs, Nat.sub_zero]
    simp only [Nat.zero_add]
  rw [← hstarts]
  rfl

/-- From every start on, the slices are a chunking of what is left. -/
theorem chunking_stride (hs : 0 < size) : Chunking (xs.drop start) size
    ((stride start xs.length size).map fun start => (xs.take (min (start + size) xs.length)).drop start) := by
  obtain ⟨stop, hstop⟩ : ∃ stop, stop = xs.length := ⟨_, rfl⟩
  rw [← hstop]
  fun_induction stride start stop size with
  | case1 start h ih =>
    rw [List.map_cons]
    by_cases hle : start + size ≤ stop
    · have hslice : (xs.take (min (start + size) stop)).drop start = (xs.drop start).take size := by
        rw [Nat.min_eq_left hle, ← List.take_drop]
      have hrest : (xs.drop start).drop size = xs.drop (start + size) := by rw [List.drop_drop]
      rw [← List.take_append_drop size (xs.drop start), hrest, hslice]
      refine .cons ?_ hs ih
      rw [List.length_take, List.length_drop]
      omega
    · have hend : stride (start + size) stop size = [] := by
        rw [stride, if_neg (by omega)]
      have hslice : (xs.take (min (start + size) stop)).drop start = xs.drop start := by
        rw [Nat.min_eq_right (by omega), hstop, List.take_length]
      rw [hend, List.map_nil, hslice]
      refine .single ?_ ?_
      · rw [← List.length_pos_iff, List.length_drop]
        omega
      · rw [List.length_drop]
        omega
  | case2 start h =>
    rw [List.map_nil, List.drop_eq_nil_of_le (by omega)]
    exact .nil size

theorem chunking_chunked (xs : List α) (hs : 0 < size) : Chunking xs size (chunked xs size) := by
  rw [chunked_eq hs]
  exact @chunking_stride α xs 0 size hs

theorem flatten_chunked (xs : List α) (hs : 0 < size) : (chunked xs size).flatten = xs :=
  (chunking_chunked xs hs).flatten

/-- A sum of a start and the size does not overflow where twice the count does not. -/
theorem add_le_of_mem_stride {i : ℕ} (hs : 0 < size) (hi : i ∈ stride 0 stop size) :
    i + size ≤ max size (2 * stop) := by
  have hlt := lt_of_mem_stride hi
  rw [stride_eq hs] at hi
  obtain ⟨k, -, rfl⟩ := List.mem_map.mp hi
  cases k with
  | zero => simp
  | succ k =>
    rw [Nat.succ_mul] at hlt ⊢
    omega

/-- No slice is out of range. -/
theorem chunked?_eq (xs : List α) (hs : 0 < size) : chunked? xs size = some (chunked xs size) := by
  have hslices : ∀ starts : List ℕ, (∀ start ∈ starts, start < xs.length) →
      (starts.mapM fun start => slice? xs start (min (start + size) xs.length)) =
        some (starts.map fun start => (xs.take (min (start + size) xs.length)).drop start) := by
    intro starts
    induction starts with
    | nil => exact fun _ => rfl
    | cons start starts ih =>
      intro hstarts
      have hlt := hstarts start List.mem_cons_self
      have hrange : start ≤ min (start + size) xs.length ∧ min (start + size) xs.length ≤ xs.length := by omega
      rw [List.mapM_cons, ih fun i hi => hstarts i (List.mem_cons_of_mem start hi), slice?, if_pos hrange]
      rfl
  rw [chunked?, if_neg hs.ne', chunked_eq hs]
  exact hslices _ fun start hstart => lt_of_mem_stride hstart

/-- An array is parted into chunks: no slice is out of range, nothing is lost, and all chunks but
the last are full. -/
theorem chunked_partition (xs : List α) (hs : 0 < size) :
    ∃ chunks, chunked? xs size = some chunks ∧ Chunking xs size chunks ∧
      chunks.length = xs.length ⌈/⌉ size :=
  ⟨_, chunked?_eq xs hs, chunking_chunked xs hs, (chunking_chunked xs hs).length_eq⟩

theorem chunked_partition_five :
    ∃ chunks, chunked? [1, 2, 3, 4, 5] 2 = some chunks ∧ Chunking [1, 2, 3, 4, 5] 2 chunks ∧
      chunks.length = 3 :=
  chunked_partition [1, 2, 3, 4, 5] (by decide)

end Chunked

end Pledge
