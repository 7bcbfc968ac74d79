import Pledge.BucketTable

/-!
# Reaching the amount

Drags of single sliders, each ended before the next begins, bring the rows of the bucket screen to
the amount whenever the sliders can hold it.
-/

namespace Pledge

namespace BucketTable

variable {u u' : UserManager} {t t' : BucketTable} {index : ℕ} {value : Int}

/-! ## Drags -/

/-- One finger drags an enabled slider and is lifted. -/
inductive Drag : UserManager × BucketTable → UserManager × BucketTable → Prop
  | mk {s s' : UserManager × BucketTable} {index : ℕ} (values : List Int)
      (he : s.2.IsUserInteractionEnabled index)
      (hs : steps (values.map (.moved index) ++ [.ended index]) s = some s') : Drag s s'

/-- What is in front of the rows is left, or closed. -/
inductive Return : UserManager × BucketTable → UserManager × BucketTable → Prop
  | mk {s s' : UserManager × BucketTable} {e : BucketEvent}
      (he : e = .adjustBackPressed ∨ e = .tipsClosed ∨ e = .confirmationBackPressed)
      (hs : step (.screen e) s = some s') : Return s s'

theorem reachable_drags {s s' : UserManager × BucketTable} (h : Reachable s.1 s.2)
    (hd : Relation.ReflTransGen Drag s s') : Reachable s'.1 s'.2 := by
  induction hd with
  | refl => exact h
  | tail _ hd ih =>
    cases hd with
    | mk values he hs => exact reachable_steps ih hs

theorem reachable_returns {s s' : UserManager × BucketTable} (h : Reachable s.1 s.2)
    (hr : Relation.ReflTransGen Return s s') : Reachable s'.1 s'.2 := by
  induction hr with
  | refl => exact h
  | tail _ hr ih =>
    cases hr with
    | mk he hs => exact .step ih hs

/-- The rows come back to the front as they were. -/
theorem exists_returns (hl : t.screen.front ≠ .loading) (hleft : t.screen.front ≠ .left) :
    Relation.ReflTransGen Return (u, t) (u, ⟨⟨t.screen.vc, .rows⟩, t.cells⟩) := by
  obtain ⟨⟨vc, front⟩, cells⟩ := t
  have hpopup : Relation.ReflTransGen Return (u, ⟨⟨vc, .tipsPopup⟩, cells⟩) (u, ⟨⟨vc, .rows⟩, cells⟩) :=
    .single (.mk (.inr (.inl rfl)) rfl)
  have happear : Relation.ReflTransGen Return (u, ⟨BucketScreen.viewWillAppear vc, cells⟩)
      (u, ⟨⟨vc, .rows⟩, cells⟩) := by
    have hvc := BucketScreen.viewWillAppear_vc vc
    have hfront : (BucketScreen.viewWillAppear vc).front = .tipsPopup ∨
        (BucketScreen.viewWillAppear vc).front = .rows := by
      unfold BucketScreen.viewWillAppear
      split
      · exact .inl rfl
      · exact .inr rfl
    generalize BucketScreen.viewWillAppear vc = screen at *
    obtain ⟨vc', front'⟩ := screen
    obtain rfl : vc' = vc := hvc
    rcases hfront with hf | hf
    · obtain rfl : front' = .tipsPopup := hf
      exact hpopup
    · obtain rfl : front' = .rows := hf
      exact .refl
  cases front with
  | loading => exact absurd rfl hl
  | left => exact absurd rfl hleft
  | rows => exact .refl
  | tipsPopup => exact hpopup
  | adjust a => exact .head (.mk (.inl rfl) rfl) happear
  | confirmation c => exact .head (.mk (.inr (.inr rfl)) rfl) happear

/-- A drag to a value within the bounds leaves the value on the row and all cells fresh. -/
theorem drag_to {c : MyBucket} (hf : t.screen.front = .rows) (hcell : t.cells[index]? = some c)
    (hne : c.maxSliderValue index ≠ 0) (h0 : 0 ≤ value)
    (hv : value ≤ Binary32.ofInt (c.maxSliderValue index)) (he : Binary32.Exact value) :
    Drag (u, t) (u, ⟨⟨t.screen.vc.sliderMoved index value, .rows⟩,
      (t.screen.vc.sliderMoved index value).configured⟩) := by
  have hlt : index < t.cells.length := (List.getElem?_eq_some_iff.mp hcell).1
  have hmoved := step_moved_of_le (u := u) hf hcell h0 hv he
  refine .mk [value] ⟨c, hcell, hne⟩ ?_
  show (step (.moved index value) (u, t)).bind (steps [.ended index]) = _
  rw [hmoved]
  simp [steps, step, hlt]

theorem amounts_sliderMoved (vc : MyBucket) :
    (vc.sliderMoved index value).tableData.map (·.amount) =
      (vc.tableData.map (·.amount)).set index value := by
  unfold MyBucket.sliderMoved
  rw [MyBucket.updateUI_tableData, map_amount_modify]

theorem set_take_append_drop {old new : List Int} {k : ℕ} (hlen : new.length = old.length)
    (hk : k < new.length) :
    (new.take k ++ old.drop k).set k new[k] = new.take (k + 1) ++ old.drop (k + 1) := by
  rw [List.set_append_right _ _ (by simp), List.length_take, Nat.min_eq_left hk.le, Nat.sub_self,
    List.drop_eq_getElem_cons (hlen ▸ hk), List.set_cons_zero, ← List.take_concat_get' _ _ hk,
    List.append_assoc]
  rfl

/-- The rows `new` are reached from the rows `old` when every slider in turn can be dragged. `I`
is kept by every drag. -/
theorem exists_drags_sweep {I : BucketTable → Prop} {new : List Int}
    (hI : ∀ vc : MyBucket, I ⟨⟨vc, .rows⟩, vc.configured⟩) (hf : t.screen.front = .rows) (hi : I t)
    (hlen : new.length = t.screen.vc.tableData.length)
    (hdrag : ∀ (s : BucketTable) (k : ℕ) (hk : k < new.length), I s → s.screen.front = .rows →
      Relation.ReflTransGen Drag (u, t) (u, s) →
      s.screen.vc.donateAmount = t.screen.vc.donateAmount →
      s.screen.vc.tableData.map (·.amount) =
        new.take k ++ (t.screen.vc.tableData.map (·.amount)).drop k →
      new[k] = s.screen.vc.amountAt k ∨ ∃ c, s.cells[k]? = some c ∧ c.maxSliderValue k ≠ 0 ∧
        0 ≤ new[k] ∧ new[k] ≤ Binary32.ofInt (c.maxSliderValue k) ∧ Binary32.Exact new[k]) :
    ∃ s, Relation.ReflTransGen Drag (u, t) (u, s) ∧ I s ∧ s.screen.front = .rows ∧
      s.screen.vc.donateAmount = t.screen.vc.donateAmount ∧
      s.screen.vc.tableData.map (·.amount) = new := by
  have hall : ∀ k ≤ new.length, ∃ s, Relation.ReflTransGen Drag (u, t) (u, s) ∧ I s ∧
      s.screen.front = .rows ∧ s.screen.vc.donateAmount = t.screen.vc.donateAmount ∧
      s.screen.vc.tableData.map (·.amount) =
        new.take k ++ (t.screen.vc.tableData.map (·.amount)).drop k := by
    intro k hk
    induction k with
    | zero => exact ⟨t, .refl, hi, hf, rfl, by simp⟩
    | succ k ih =>
      obtain ⟨s, hs, hi, hf, hd, hrows⟩ := ih (Nat.le_of_succ_le hk)
      have hlength : new.length = (t.screen.vc.tableData.map (·.amount)).length := by simpa using hlen
      have hset := set_take_append_drop hlength hk
      rcases hdrag s k hk hi hf hs hd hrows with hsame | ⟨c, hcell, hne, h0, hv, he⟩
      · refine ⟨s, hs, hi, hf, hd, ?_⟩
        rw [hrows, ← hset]
        refine (List.ext_getElem? fun i => ?_)
        rw [List.getElem?_set]
        split
        · rename_i hki
          subst hki
          have hlt : k < (new.take k ++ (t.screen.vc.tableData.map (·.amount)).drop k).length := by
            simp only [List.length_append, List.length_take, List.length_drop, List.length_map]
            omega
          rw [if_pos hlt, hsame, MyBucket.amountAt, hrows, List.getElem?_eq_getElem hlt,
            Option.getD_some]
        · rfl
      · refine ⟨_, hs.tail (drag_to hf hcell hne h0 hv he), hI _, rfl, hd, ?_⟩
        show (s.screen.vc.sliderMoved k new[k]).tableData.map (·.amount) = _
        rw [amounts_sliderMoved, hrows, hset]
  obtain ⟨s, hs, hi, hf, hd, hrows⟩ := hall new.length le_rfl
  refine ⟨s, hs, hi, hf, hd, ?_⟩
  rw [hrows, List.take_length, List.drop_eq_nil_of_le (by simp [hlen]), List.append_nil]

theorem sum_replicate_zero (n : ℕ) : (List.replicate n (0 : Int)).sum = 0 := by
  simp

/-- Every row can be brought to nothing. -/
theorem exists_drags_zero (h : Reachable u t) (hf : t.screen.front = .rows)
    (hrows : ∀ row ∈ t.screen.vc.tableData, 0 ≤ row.amount) :
    ∃ s, Relation.ReflTransGen Drag (u, t) (u, s) ∧ s.screen.front = .rows ∧
      s.screen.vc.donateAmount = t.screen.vc.donateAmount ∧
      s.screen.vc.tableData.map (·.amount) = List.replicate t.screen.vc.tableData.length 0 := by
  refine (exists_drags_sweep (I := fun _ => True) (fun _ => trivial) hf trivial (by simp) ?_).imp
    fun s hs => ⟨hs.1, hs.2.2⟩
  intro s k hk _ hf hs _ hsrows
  rw [List.getElem_replicate]
  have hconf : Configured s := reachable_configured (reachable_drags h hs)
  simp only [List.length_replicate] at hk
  have hlen : s.screen.vc.tableData.length = t.screen.vc.tableData.length := by
    have hl := congrArg List.length hsrows
    simp only [List.length_append, List.length_take, List.length_drop, List.length_map,
      List.length_replicate] at hl
    omega
  have hk' : k < s.cells.length := by rw [hconf.length, hlen]; exact hk
  have hcell : s.cells[k]? = some s.cells[k] := List.getElem?_eq_getElem hk'
  have hamount : s.screen.vc.amountAt k = t.screen.vc.amountAt k := by
    unfold MyBucket.amountAt
    rw [hsrows, List.getElem?_append_right (by simp), List.getElem?_drop]
    simp [hk.le]
  have h0 : 0 ≤ s.screen.vc.amountAt k := hamount ▸ amountAt_nonneg hrows k
  rcases eq_or_lt_of_le h0 with heq | hpos
  · exact .inl heq
  · have hmax := maximum_nonneg hconf hcell h0
    refine .inr ⟨_, hcell, fun hzero => ?_, le_rfl, hmax, by decide⟩
    have hle := hconf.amount_le k _ hcell
    rw [hzero, show Binary32.ofInt 0 = 0 by decide] at hle
    omega

/-- The sliders hold values that add up to `amount`. -/
def Fillable (rows : ℕ) (amount : Int) : Prop :=
  ∃ values : List Int, values.length = rows ∧ (∀ v ∈ values, 0 ≤ v ∧ Binary32.Exact v) ∧
    values.sum = amount

theorem totalSum_eq (vc : MyBucket) : totalSum vc.tableData = (vc.tableData.map (·.amount)).sum := rfl

/-- Empty rows with fresh cells are filled one after the other. -/
theorem exists_drags_fill {values : List Int} (hf : t.screen.front = .rows)
    (hfresh : t.cells = t.screen.vc.configured) (hlen : values.length = t.screen.vc.tableData.length)
    (hzero : t.screen.vc.tableData.map (·.amount) = List.replicate t.screen.vc.tableData.length 0)
    (hvalues : ∀ v ∈ values, 0 ≤ v ∧ Binary32.Exact v) (hsum : values.sum = t.screen.vc.donateAmount) :
    ∃ s, Relation.ReflTransGen Drag (u, t) (u, s) ∧ s.screen.vc.donateAmount = t.screen.vc.donateAmount ∧
      totalSum s.screen.vc.tableData = t.screen.vc.donateAmount := by
  refine (exists_drags_sweep (I := fun t => t.cells = t.screen.vc.configured) (fun _ => rfl) hf hfresh
    hlen ?_).imp fun s ⟨hs, _, _, hd, hrows⟩ => ⟨hs, hd, by rw [totalSum_eq, hrows, hsum]⟩
  intro s k hk hfresh hf _ hd hsrows
  obtain ⟨h0, he⟩ := hvalues _ (List.getElem_mem hk)
  have hslen : s.screen.vc.tableData.length = values.length := by
    have hl := congrArg List.length hsrows
    simp only [List.length_append, List.length_take, List.length_drop, List.length_map] at hl
    omega
  have hcell : s.cells[k]? = some s.screen.vc := by
    rw [hfresh]
    exact getElem_configured (hslen ▸ hk)
  have hamount : s.screen.vc.amountAt k = 0 := by
    unfold MyBucket.amountAt
    rw [hsrows, hzero, List.getElem?_append_right (by simp), List.getElem?_drop,
      List.getElem?_replicate]
    split <;> rfl
  have htotal : totalSum s.screen.vc.tableData = (values.take k).sum := by
    rw [totalSum_eq, hsrows, hzero, List.sum_append, List.drop_replicate, sum_replicate_zero, add_zero]
  have hrest : (values.take k).sum + values[k] ≤ values.sum := by
    have hsplit := congrArg List.sum (List.take_append_drop k values)
    rw [List.drop_eq_getElem_cons hk, List.sum_append, List.sum_cons] at hsplit
    have hnonneg : 0 ≤ (values.drop (k + 1)).sum :=
      List.sum_nonneg fun v hv => (hvalues v (List.mem_of_mem_drop hv)).1
    omega
  have hmax := s.screen.vc.maxSliderValue_eq k
  rcases eq_or_lt_of_le h0 with heq | hpos
  · exact .inl (heq.symm.trans hamount.symm)
  · exact .inr ⟨_, hcell, by omega, h0, he.le_ofInt (by omega), he⟩

/-- From the rows in front the amount is reached: all rows down to nothing, one more drag so that
every cell is fresh, then the values one after the other. -/
theorem exists_drags (h : Reachable u t) (hf : t.screen.front = .rows)
    (hne : t.screen.vc.tableData ≠ []) (hrows : ∀ row ∈ t.screen.vc.tableData, 0 ≤ row.amount)
    (hfill : Fillable t.screen.vc.tableData.length t.screen.vc.donateAmount) :
    ∃ s, Relation.ReflTransGen Drag (u, t) (u, s) ∧
      totalSum s.screen.vc.tableData = s.screen.vc.donateAmount := by
  obtain ⟨values, hlen, hvalues, hsum⟩ := hfill
  have hd0 : 0 ≤ t.screen.vc.donateAmount := hsum ▸ List.sum_nonneg fun v hv => (hvalues v hv).1
  obtain ⟨s, hs, hfs, hds, hzero⟩ := exists_drags_zero h hf hrows
  have hslen : s.screen.vc.tableData.length = t.screen.vc.tableData.length := by
    simpa using congrArg List.length hzero
  have htotal : totalSum s.screen.vc.tableData = 0 := by
    rw [totalSum_eq, hzero, sum_replicate_zero]
  rcases eq_or_lt_of_le hd0 with heq | hpos
  · exact ⟨s, hs, by rw [htotal, hds, ← heq]⟩
  have hconf : Configured s := reachable_configured (reachable_drags h hs)
  have hnes : s.screen.vc.tableData ≠ [] := by
    rw [← List.length_pos_iff, hslen]
    exact List.length_pos_iff.mpr hne
  obtain ⟨k, c, hcell, hspare⟩ := hconf.spare hnes
  have hk : k < t.screen.vc.tableData.length := by
    rw [← hslen, ← hconf.length]
    exact (List.getElem?_eq_some_iff.mp hcell).1
  have hamount : s.screen.vc.amountAt k = 0 := by
    unfold MyBucket.amountAt
    rw [hzero, List.getElem?_replicate, if_pos hk, Option.getD_some]
  have hmaxpos : 0 < c.maxSliderValue k := by
    unfold MyBucket.othersAt at hspare
    omega
  have hrenew := drag_to (u := u) hfs hcell (by omega) le_rfl (Binary32.ofInt_nonneg hmaxpos.le)
    (by decide)
  have hset : (List.replicate t.screen.vc.tableData.length (0 : Int)).set k 0 =
      List.replicate t.screen.vc.tableData.length 0 := by
    refine List.ext_getElem? fun i => ?_
    rw [List.getElem?_set]
    split
    · rename_i hki
      subst hki
      simp [hk]
    · rfl
  have hlength : (s.screen.vc.sliderMoved k 0).tableData.length = t.screen.vc.tableData.length := by
    simpa [MyBucket.sliderMoved] using hslen
  have hzeros : (s.screen.vc.sliderMoved k 0).tableData.map (·.amount) =
      List.replicate (s.screen.vc.sliderMoved k 0).tableData.length 0 := by
    rw [amounts_sliderMoved, hzero, hset, hlength]
  obtain ⟨s', hs', hds', htotal'⟩ := exists_drags_fill (u := u)
    (t := ⟨⟨s.screen.vc.sliderMoved k 0, .rows⟩, (s.screen.vc.sliderMoved k 0).configured⟩)
    rfl rfl (hlen.trans hlength.symm) hzeros hvalues (hsum.trans hds.symm)
  exact ⟨s', (hs.tail hrenew).trans hs', htotal'.trans hds'.symm⟩

/-! ## What sliders can hold -/

/-- Up to `2 ^ 24` a single slider is enough. -/
theorem fillable_of_le {rows : ℕ} {amount : Int} (hrows : 0 < rows) (h0 : 0 ≤ amount)
    (hle : amount ≤ 2 ^ 24) : Fillable rows amount := by
  refine ⟨amount :: List.replicate (rows - 1) 0, by simp; omega, fun v hv => ?_, by simp⟩
  rcases List.mem_cons.mp hv with rfl | hv
  · exact ⟨h0, Binary32.exact_of_natAbs_le (by unfold Binary32.precision; omega)⟩
  · rw [List.eq_of_mem_replicate hv]
    exact ⟨le_rfl, by decide⟩

/-- Three sliders can hold every amount of a 64-bit integer: the leading 24 bits, the next ones,
the rest. -/
theorem fillable_of_three {rows : ℕ} {amount : Int} (hrows : 3 ≤ rows) (h0 : 0 ≤ amount)
    (hlt : amount < 2 ^ 63) : Fillable rows amount := by
  obtain ⟨n, rfl⟩ := Int.eq_ofNat_of_zero_le h0
  have hn : n < 2 ^ 63 := by exact_mod_cast hlt
  -- what `Float` leaves out of an integer has at most its lower bits
  have hsplit : ∀ {n k : ℕ}, n < 2 ^ (k + 24) → ∃ a b, n = a + b ∧ b < 2 ^ k ∧
      Binary32.Exact (a : Int) := by
    intro n k hn
    refine ⟨n / 2 ^ k * 2 ^ k, n % 2 ^ k, ?_, Nat.mod_lt _ (Nat.two_pow_pos k), ?_⟩
    · rw [Nat.mul_comm]
      exact (Nat.div_add_mod n (2 ^ k)).symm
    · rw [Binary32.exact_iff, Int.natAbs_natCast]
      have hle := Binary32.shift_le_of_lt (lt_of_le_of_lt (Nat.div_mul_le_self n (2 ^ k)) hn)
      exact (Nat.pow_dvd_pow 2 hle).trans (Nat.dvd_mul_left _ _)
  obtain ⟨a, b, rfl, hb, ha⟩ := hsplit (k := 39) hn
  obtain ⟨b, c, rfl, hc, hb'⟩ := hsplit (k := 15) hb
  have hc' : Binary32.Exact (c : Int) :=
    Binary32.exact_of_natAbs_le (by unfold Binary32.precision; omega)
  refine ⟨[(a : Int), b, c] ++ List.replicate (rows - 3) 0, by simp; omega, fun v hv => ?_, ?_⟩
  · rcases List.mem_append.mp hv with hv | hv
    · simp only [List.mem_cons, List.not_mem_nil, or_false] at hv
      rcases hv with rfl | rfl | rfl
      · exact ⟨Int.natCast_nonneg a, ha⟩
      · exact ⟨Int.natCast_nonneg b, hb'⟩
      · exact ⟨Int.natCast_nonneg c, hc'⟩
    · rw [List.eq_of_mem_replicate hv]
      exact ⟨le_rfl, by decide⟩
  · rw [List.sum_append, sum_replicate_zero]
    push_cast
    simp

theorem completeEnabled_iff (h : Reachable u t) : t.screen.vc.completeEnabled = true ↔
    totalSum t.screen.vc.tableData = t.screen.vc.donateAmount := by
  rw [BucketScreen.run_enabled (reachable_run h), beq_iff_eq]

/-- Complete is enabled exactly when the rows add up to the amount. And unless the screen is
loading or has been left, it can be enabled when the sliders can hold the amount: what is in front
of the rows is left, and then single sliders are dragged. -/
theorem complete_exact_and_reachable (h : Reachable u t) :
    (t.screen.vc.completeEnabled = true ↔
      totalSum t.screen.vc.tableData = t.screen.vc.donateAmount) ∧
    (t.screen.front ≠ .loading → t.screen.front ≠ .left → t.screen.vc.tableData ≠ [] →
      (∀ row ∈ t.screen.vc.tableData, 0 ≤ row.amount) →
      Fillable t.screen.vc.tableData.length t.screen.vc.donateAmount →
      ∃ s s', Relation.ReflTransGen Return (u, t) (u, s) ∧ Relation.ReflTransGen Drag (u, s) (u, s') ∧
        s'.screen.vc.completeEnabled = true) := by
  refine ⟨completeEnabled_iff h, fun hl hleft hne hrows hfill => ?_⟩
  have hreturns := exists_returns (u := u) hl hleft
  have hreach : Reachable u ⟨⟨t.screen.vc, .rows⟩, t.cells⟩ := reachable_returns h hreturns
  obtain ⟨s', hs', htotal⟩ := exists_drags hreach rfl hne hrows hfill
  exact ⟨_, s', hreturns, hs', (completeEnabled_iff (reachable_drags hreach hs')).mpr htotal⟩

/-- A bucket of ten loaded with two empty rows can be completed, also from its slider screen. -/
theorem complete_exact_and_reachable_twoRows :
    ∃ u t, Reachable u t ∧ t.screen.vc.tableData.length = 2 ∧ t.screen.vc.donateAmount = 10 ∧
      t.screen.front ≠ .rows ∧ ∃ s s', Relation.ReflTransGen Return (u, t) (u, s) ∧
        Relation.ReflTransGen Drag (u, s) (u, s') ∧ s'.screen.vc.completeEnabled = true := by
  have hrun : ∃ s, steps [.screen (.loaded (some [BucketScreen.shelter, { id := "school" }]) []),
      .screen .editButtonPressed] (BucketScreen.donor, causeTable) = some s ∧
      s.2.screen.front ≠ .rows ∧ s.2.screen.front ≠ .loading ∧ s.2.screen.front ≠ .left ∧
      s.2.screen.vc.tableData.length = 2 ∧ (∀ row ∈ s.2.screen.vc.tableData, 0 ≤ row.amount) ∧
      s.2.screen.vc.donateAmount = 10 :=
    ⟨_, rfl, by decide, by decide, by decide, rfl, by decide, rfl⟩
  obtain ⟨⟨u, t⟩, hs, hf, hl, hleft, hlen, hrows, hd⟩ := hrun
  have hreach := reachable_steps reachable_causeTable hs
  have hne : t.screen.vc.tableData ≠ [] := by
    intro hnil
    rw [hnil] at hlen
    cases hlen
  have hfill : Fillable t.screen.vc.tableData.length t.screen.vc.donateAmount := by
    rw [hlen, hd]
    exact fillable_of_le (by decide) (by decide) (by decide)
  exact ⟨u, t, hreach, hlen, hd, hf, (complete_exact_and_reachable hreach).2 hl hleft hne hrows hfill⟩

/-! ## An amount between two values of `Float` -/

/-- What a slider leaves on a row is a value of `Float`, and the amount stays. -/
theorem exact_steps {l : List TableEvent} (hl : ∀ e ∈ l, ∃ k, e = .ended k ∨ ∃ v, e = .moved k v)
    (hs : steps l (u, t) = some (u', t'))
    (hexact : ∀ a ∈ t.screen.vc.tableData.map (·.amount), Binary32.Exact a) :
    (∀ a ∈ t'.screen.vc.tableData.map (·.amount), Binary32.Exact a) ∧
      t'.screen.vc.tableData.length = t.screen.vc.tableData.length ∧
      t'.screen.vc.donateAmount = t.screen.vc.donateAmount := by
  induction l generalizing u t with
  | nil =>
    cases hs
    exact ⟨hexact, rfl, rfl⟩
  | cons e l ih =>
    obtain ⟨⟨u₁, t₁⟩, h₁, hrest⟩ := Option.bind_eq_some_iff.mp hs
    have hstep : (∀ a ∈ t₁.screen.vc.tableData.map (·.amount), Binary32.Exact a) ∧
        t₁.screen.vc.tableData.length = t.screen.vc.tableData.length ∧
        t₁.screen.vc.donateAmount = t.screen.vc.donateAmount := by
      obtain ⟨k, rfl | ⟨v, rfl⟩⟩ := hl e List.mem_cons_self
      · obtain ⟨-, h₁⟩ := Option.ite_none_right_eq_some.mp h₁
        cases h₁
        exact ⟨hexact, rfl, rfl⟩
      · obtain ⟨-, -, ⟨c, -, -, -, he⟩, rfl⟩ := step_moved h₁
        refine ⟨fun a ha => ?_, by simp [MyBucket.sliderMoved], rfl⟩
        rw [amounts_sliderMoved] at ha
        rcases List.mem_or_eq_of_mem_set ha with ha | rfl
        · exact hexact a ha
        · exact he
    obtain ⟨hx, hlen, hd⟩ := ih (fun e he => hl e (List.mem_cons_of_mem _ he)) hrest hstep.1
    exact ⟨hx, hlen.trans hstep.2.1, hd.trans hstep.2.2⟩

theorem exact_drags {s s' : UserManager × BucketTable} (hd : Relation.ReflTransGen Drag s s')
    (hexact : ∀ a ∈ s.2.screen.vc.tableData.map (·.amount), Binary32.Exact a) :
    (∀ a ∈ s'.2.screen.vc.tableData.map (·.amount), Binary32.Exact a) ∧
      s'.2.screen.vc.tableData.length = s.2.screen.vc.tableData.length ∧
      s'.2.screen.vc.donateAmount = s.2.screen.vc.donateAmount := by
  induction hd with
  | refl => exact ⟨hexact, rfl, rfl⟩
  | tail _ hd ih =>
    cases hd with
    | @mk index values he hs =>
      have hevents : ∀ e ∈ values.map (TableEvent.moved index) ++ [.ended index],
          ∃ k, e = .ended k ∨ ∃ v, e = .moved k v := by
        intro e he
        rcases List.mem_append.mp he with he | he
        · obtain ⟨v, -, rfl⟩ := List.mem_map.mp he
          exact ⟨index, .inr ⟨v, rfl⟩⟩
        · exact ⟨index, .inl (List.mem_singleton.mp he)⟩
      obtain ⟨hx, hlen, hamount⟩ := exact_steps hevents hs ih.1
      exact ⟨hx, hlen.trans ih.2.1, hamount.trans ih.2.2⟩

/-- A user whose monthly amount is the first one that `Float` does not hold. -/
def patron : UserManager :=
  { user := some { email := "sam@mail.com", displayName := none, defaultDonateAmount := 16777217 } }

/-- The single row of the patron's bucket, once moved, cannot come back to the amount. -/
theorem not_complete_reachable :
    ¬ ∀ (u : UserManager) (t : BucketTable), Reachable u t → t.screen.front = .rows →
      t.screen.vc.tableData ≠ [] → (∀ row ∈ t.screen.vc.tableData, 0 ≤ row.amount) →
      0 ≤ t.screen.vc.donateAmount →
      ∃ s, Relation.ReflTransGen Drag (u, t) s ∧ s.2.screen.vc.completeEnabled = true := by
  intro h
  have hrun : ∃ s, steps [.screen (.loaded (some [BucketScreen.shelter]) []), .moved 0 5, .ended 0]
      (patron, viewDidLoad patron { cause := some { id := "homes" } }) = some s ∧
      s.2.screen.front = .rows ∧ s.2.screen.vc.tableData.map (·.amount) = [5] ∧
      s.2.screen.vc.donateAmount = 16777217 :=
    ⟨_, rfl, rfl, rfl, rfl⟩
  obtain ⟨⟨u, t⟩, hs, hf, hrows, hd⟩ := hrun
  have hreach := reachable_steps (.opened patron (some { id := "homes" }) false none none) hs
  have hamounts : ∀ a ∈ t.screen.vc.tableData.map (·.amount), a = 5 := by simp [hrows]
  obtain ⟨⟨u', t'⟩, hds, hen⟩ := h u t hreach hf (by rintro hnil; simp [hnil] at hrows)
    (fun row hrow => by rw [hamounts row.amount (List.mem_map_of_mem hrow)]; decide)
    (by rw [show t.screen.vc.donateAmount = 16777217 from hd]; decide)
  obtain ⟨hexact, hlen, hamount⟩ := exact_drags hds
    (fun a ha => by rw [hamounts a ha]; decide)
  have htotal := (completeEnabled_iff (reachable_drags hreach hds)).mp hen
  have hone : (t'.screen.vc.tableData.map (·.amount)).length = 1 := by
    have hold := congrArg List.length hrows
    simp only [List.length_map, List.length_singleton] at hold ⊢
    exact hlen.trans hold
  obtain ⟨a, ha⟩ := List.length_eq_one_iff.mp hone
  have hvalue := hexact a (by simp [ha])
  rw [totalSum_eq, ha, List.sum_singleton, hamount, hd] at htotal
  rw [htotal] at hvalue
  exact absurd hvalue (by decide)

end BucketTable

end Pledge
