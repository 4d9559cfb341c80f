import Mathlib

/-!
First-minimum scans over the indices below a bound, and what is built from
them on the number line.

`scanMin` is the loop `best = -1; m = cap; for (i = 0; i < n; i++) if (!skip i
&& key i < m) { best = i; m = key i; }`: it finds the first index of the least
key below `cap`, or none. Scanning the distances to a family of centers assigns
a point to its nearest center, and that assignment is monotone: a larger point
never goes to a smaller center (`nearest_mono`). Repeating the scan over the
indices not yet taken is a selection sort (`selectOrder`); the order it builds
sorts by key, then by index (`Before`), and positions in it respect that order
(`idxOf_lt_of_before`). Floor means of two lists, one wholly below the other,
are strictly ordered (`mean_lt_mean`).
-/

namespace MStream.Nearest

/-! ## The scan -/

def scanMin (skip : Nat → Bool) (key : Nat → Nat) (cap : Nat) : Nat → Option Nat × Nat
  | 0 => (none, cap)
  | n + 1 =>
    let r := scanMin skip key cap n
    if !skip n && decide (key n < r.2) then (some n, key n) else r

/-- What the scan over the indices below `n` leaves: the cap when no kept key
is below it, otherwise the first index of the least kept key, with that key. -/
def ScanResult (skip : Nat → Bool) (key : Nat → Nat) (cap n : Nat) : Option Nat × Nat → Prop
  | (none, m) => m = cap ∧ ∀ i < n, skip i = false → cap ≤ key i
  | (some j, m) => j < n ∧ skip j = false ∧ m = key j ∧ key j < cap ∧
      (∀ i < n, skip i = false → key j ≤ key i) ∧ (∀ i < j, skip i = false → key j < key i)

section Scan

variable {skip : Nat → Bool} {key : Nat → Nat} {cap : Nat}

theorem scanMin_spec (n : Nat) : ScanResult skip key cap n (scanMin skip key cap n) := by
  induction n with
  | zero => simp [scanMin, ScanResult]
  | succ n ih =>
    simp only [scanMin]
    generalize scanMin skip key cap n = r at ih ⊢
    obtain ⟨best, m⟩ := r
    by_cases take : skip n = false ∧ key n < m
    · -- index `n` becomes the best so far: its key is below every earlier kept key
      rw [if_pos (by simpa using take)]
      have below : ∀ i < n, skip i = false → key n < key i := by
        intro i hi kept
        refine lt_of_lt_of_le take.2 ?_
        cases best with
        | none => rw [ih.1]; exact ih.2 i hi kept
        | some j => rw [ih.2.2.1]; exact ih.2.2.2.2.1 i hi kept
      have capped : key n < cap := by
        cases best with
        | none => exact ih.1 ▸ take.2
        | some j => exact lt_trans take.2 (ih.2.2.1 ▸ ih.2.2.2.1)
      refine ⟨by omega, take.1, rfl, capped, fun i hi kept => ?_, below⟩
      rcases Nat.lt_succ_iff_lt_or_eq.mp hi with lt | rfl
      · exact (below i lt kept).le
      · exact le_rfl
    · rw [if_neg (by simpa using take)]
      have passed : skip n = false → m ≤ key n := fun kept => by
        by_contra h
        exact take ⟨kept, by omega⟩
      cases best with
      | none =>
        obtain ⟨rfl, above⟩ := ih
        refine ⟨rfl, fun i hi kept => ?_⟩
        rcases Nat.lt_succ_iff_lt_or_eq.mp hi with lt | rfl
        · exact above i lt kept
        · exact passed kept
      | some j =>
        obtain ⟨hj, keptj, rfl, below, least, first⟩ := ih
        refine ⟨by omega, keptj, rfl, below, fun i hi kept => ?_, first⟩
        rcases Nat.lt_succ_iff_lt_or_eq.mp hi with lt | rfl
        · exact least i lt kept
        · exact passed kept

theorem scanMin_some {n j : Nat} (found : (scanMin skip key cap n).1 = some j) :
    j < n ∧ skip j = false ∧ key j < cap ∧ (∀ i < n, skip i = false → key j ≤ key i) ∧
      ∀ i < j, skip i = false → key j < key i := by
  have spec := @scanMin_spec skip key cap n
  rcases scan : scanMin skip key cap n with ⟨_ | j', m⟩
  · simp [scan] at found
  · rw [scan] at spec found
    cases found
    obtain ⟨hj, kept, -, below, least, first⟩ := spec
    exact ⟨hj, kept, below, least, first⟩

theorem scanMin_none {n : Nat} (none : (scanMin skip key cap n).1 = none) :
    ∀ i < n, skip i = false → cap ≤ key i := by
  have spec := @scanMin_spec skip key cap n
  rcases scan : scanMin skip key cap n with ⟨_ | j, m⟩
  · rw [scan] at spec
    exact spec.2
  · simp [scan] at none

end Scan

/-! ## Nearest centers -/

/-- Scanning the distances from a point to the centers `c 0, …, c (k-1)`
picks its nearest center, the first one on a tie. A larger point never picks a
smaller center, and two points never pick different centers of one value. -/
theorem nearest_mono {c : Nat → Nat} {cap k x y i j : Nat} (le : x ≤ y)
    (hx : (scanMin (fun _ => false) (fun a => Nat.dist (c a) x) cap k).1 = some i)
    (hy : (scanMin (fun _ => false) (fun a => Nat.dist (c a) y) cap k).1 = some j) :
    c i ≤ c j ∧ (c i = c j → i = j) := by
  obtain ⟨hi, -, -, leastx, firstx⟩ := scanMin_some hx
  obtain ⟨hj, -, -, leasty, firsty⟩ := scanMin_some hy
  have nearx := leastx j hj rfl
  have neary := leasty i hi rfl
  refine ⟨?_, fun same => ?_⟩
  · -- `c j < c i` would put `x` at or above their midpoint and `y` at or below it
    by_contra above
    rcases Nat.lt_or_ge x y with lt | ge
    · simp only [Nat.dist] at nearx neary
      omega
    · obtain rfl : x = y := by omega
      rw [hx] at hy
      cases hy
      exact above le_rfl
  · -- on a tie the scan keeps the first center, whichever point it measures from
    rcases Nat.lt_trichotomy i j with lt | eq | gt
    · have := firsty i lt rfl
      rw [same] at this
      exact absurd this (lt_irrefl _)
    · exact eq
    · have := firstx j gt rfl
      rw [same] at this
      exact absurd this (lt_irrefl _)

/-! ## Selection order -/

/-- `a` comes before `b` in the order the scans select: by key, then by index. -/
def Before (key : Nat → Nat) (a b : Nat) : Prop := key a < key b ∨ key a = key b ∧ a < b

/-- `r` rounds of the selection sort over the indices below `n`: each round
takes the first least key among the indices not taken yet, and the sort stops
when none is below `cap`. -/
def selectOrder (key : Nat → Nat) (cap n : Nat) : Nat → List Nat → List Nat
  | 0, taken => taken
  | r + 1, taken =>
    match (scanMin (fun j => decide (j ∈ taken)) key cap n).1 with
    | none => taken
    | some j => selectOrder key cap n r (taken ++ [j])

/-- What the selection keeps true: the taken indices are below `n` with keys
under `cap`, in order, and each comes before every index not taken yet. -/
structure SelectInv (key : Nat → Nat) (cap n : Nat) (taken : List Nat) : Prop where
  bounded : ∀ t ∈ taken, t < n ∧ key t < cap
  sorted : taken.Pairwise (Before key)
  first : ∀ t ∈ taken, ∀ u < n, u ∉ taken → key u < cap → Before key t u

section Select

variable {key : Nat → Nat} {cap n : Nat}

theorem Before.irrefl (a : Nat) : ¬ Before key a a := by
  rintro (lt | ⟨-, lt⟩) <;> omega

theorem Before.asymm {a b : Nat} (ab : Before key a b) : ¬ Before key b a := by
  rcases ab with lt | ⟨eq, lt⟩ <;> rintro (lt' | ⟨eq', lt'⟩) <;> omega

theorem SelectInv.nodup {taken : List Nat} (inv : SelectInv key cap n taken) : taken.Nodup :=
  inv.sorted.imp fun {a b} (ab : Before key a b) => by
    rintro rfl
    exact Before.irrefl a ab

theorem selectInv_nil : SelectInv key cap n [] := ⟨by simp, by simp, by simp⟩

theorem SelectInv.take {taken : List Nat} {j : Nat} (inv : SelectInv key cap n taken)
    (scan : (scanMin (fun j => decide (j ∈ taken)) key cap n).1 = some j) :
    SelectInv key cap n (taken ++ [j]) := by
  obtain ⟨hj, fresh, below, least, firstj⟩ := scanMin_some scan
  have fresh : j ∉ taken := by simpa using fresh
  refine ⟨fun t mem => ?_, ?_, fun t mem u hu untaken lt => ?_⟩
  · rcases List.mem_append.mp mem with old | new
    · exact inv.bounded t old
    · obtain rfl := List.mem_singleton.mp new
      exact ⟨hj, below⟩
  · refine List.pairwise_append.mpr ⟨inv.sorted, by simp, fun t mem j' mem' => ?_⟩
    obtain rfl := List.mem_singleton.mp mem'
    exact inv.first t mem j' hj fresh below
  · have old : u ∉ taken := fun h => untaken (List.mem_append_left _ h)
    have other : u ≠ j := fun h => untaken (h ▸ List.mem_append_right _ (List.mem_singleton_self _))
    rcases List.mem_append.mp mem with mem | new
    · exact inv.first t mem u hu old lt
    · obtain rfl := List.mem_singleton.mp new
      have le := least u hu (by simpa using old)
      rcases Nat.lt_or_ge u t with ut | tu
      · exact .inl (firstj u ut (by simpa using old))
      · exact if eq : key t = key u then .inr ⟨eq, by omega⟩ else .inl (by omega)

theorem selectOrder_inv {taken : List Nat} (inv : SelectInv key cap n taken) (r : Nat) :
    SelectInv key cap n (selectOrder key cap n r taken) := by
  induction r generalizing taken with
  | zero => exact inv
  | succ r ih =>
    rcases scan : (scanMin (fun j => decide (j ∈ taken)) key cap n).1 with _ | j
    · simpa [selectOrder, scan] using inv
    · simpa [selectOrder, scan] using ih (inv.take scan)

theorem exists_not_mem_of_length_lt {taken : List Nat} (short : taken.length < n) :
    ∃ u < n, u ∉ taken := by
  by_contra full
  push Not at full
  have covered : List.range n ⊆ taken := fun u mem => full u (List.mem_range.mp mem)
  have := (List.Nodup.subperm List.nodup_range covered).length_le
  simp at this
  omega

theorem selectOrder_length {taken : List Nat} (inv : SelectInv key cap n taken)
    (capped : ∀ u < n, key u < cap) (r : Nat) (room : taken.length + r ≤ n) :
    (selectOrder key cap n r taken).length = taken.length + r := by
  induction r generalizing taken with
  | zero => rfl
  | succ r ih =>
    obtain ⟨u, hu, untaken⟩ := exists_not_mem_of_length_lt (show taken.length < n by omega)
    rcases scan : (scanMin (fun j => decide (j ∈ taken)) key cap n).1 with _ | j
    · exact absurd (scanMin_none scan u hu (by simpa using untaken)) (Nat.not_le.mpr (capped u hu))
    · simp only [selectOrder, scan]
      rw [ih (inv.take scan) (by simp; omega)]
      simp
      omega

theorem selectOrder_perm (capped : ∀ u < n, key u < cap) :
    (selectOrder key cap n n []).Perm (List.range n) := by
  have inv := @selectOrder_inv key cap n [] selectInv_nil n
  have length := selectOrder_length selectInv_nil capped n (by simp)
  refine (inv.nodup.subperm fun t mem => List.mem_range.mpr (inv.bounded t mem).1).perm_of_length_le ?_
  simp [length]

theorem idxOf_lt_of_before {order : List Nat} (sorted : order.Pairwise (Before key)) {a b : Nat}
    (ha : a ∈ order) (hb : b ∈ order) (ab : Before key a b) : order.idxOf a < order.idxOf b := by
  have ia := List.idxOf_lt_length_of_mem ha
  have ib := List.idxOf_lt_length_of_mem hb
  rcases Nat.lt_trichotomy (order.idxOf a) (order.idxOf b) with lt | eq | gt
  · exact lt
  · have : a = b := by
      rw [← List.getElem_idxOf ia, ← List.getElem_idxOf ib]
      simp only [eq]
    subst this
    exact absurd ab (Before.irrefl a)
  · have ba := List.pairwise_iff_getElem.mp sorted _ _ ib ia gt
    rw [List.getElem_idxOf, List.getElem_idxOf] at ba
    exact absurd ba ab.asymm

theorem idxOf_eq_of_last {order : List Nat} (sorted : order.Pairwise (Before key))
    (full : order.Perm (List.range n)) {b : Nat} (hb : b < n)
    (top : ∀ j < n, j ≠ b → Before key j b) : order.idxOf b = n - 1 := by
  have length : order.length = n := by simpa using full.length_eq
  have mem : ∀ j, j ∈ order ↔ j < n := fun j => by simpa using full.mem_iff (a := j)
  have nodup : order.Nodup := full.nodup_iff.mpr List.nodup_range
  have ib := List.idxOf_lt_length_of_mem ((mem b).mpr hb)
  by_contra notLast
  -- the last element is another index, so it comes before `b`, yet sits after it
  have last : n - 1 < order.length := by omega
  have other : order[n - 1] ≠ b := fun same => by
    apply notLast
    rw [← same, nodup.idxOf_getElem]
  have before := idxOf_lt_of_before sorted (List.getElem_mem last) ((mem b).mpr hb)
    (top _ ((mem _).mp (List.getElem_mem last)) other)
  rw [nodup.idxOf_getElem] at before
  omega

/-! ### Positions in a full order

A full order read by position, `order.getD p 0`, is how a caller that copies
its arrays in sorted order sees it. -/

theorem getD_lt_of_full {order : List Nat} (full : order.Perm (List.range n)) {p : Nat} (hp : p < n) :
    order.getD p 0 < n := by
  have hp' : p < order.length := by simpa [full.length_eq] using hp
  rw [List.getD_eq_getElem _ _ hp']
  exact List.mem_range.mp (full.subset (List.getElem_mem hp'))

theorem exists_position_of_full {order : List Nat} (full : order.Perm (List.range n)) {i : Nat}
    (hi : i < n) : ∃ p < n, order.getD p 0 = i := by
  obtain ⟨p, hp, found⟩ := List.getElem_of_mem (full.symm.subset (List.mem_range.mpr hi))
  exact ⟨p, by simpa [full.length_eq] using hp, by rw [List.getD_eq_getElem _ _ hp, found]⟩

theorem position_inj_of_full {order : List Nat} (full : order.Perm (List.range n)) {p q : Nat}
    (hp : p < n) (hq : q < n) (same : order.getD p 0 = order.getD q 0) : p = q := by
  have nodup : order.Nodup := full.nodup_iff.mpr List.nodup_range
  have length : order.length = n := by simpa using full.length_eq
  rw [List.getD_eq_getElem _ _ (length ▸ hp), List.getD_eq_getElem _ _ (length ▸ hq)] at same
  exact nodup.getElem_inj_iff.mp same

theorem before_of_lt {order : List Nat} (sorted : order.Pairwise (Before key))
    (full : order.Perm (List.range n)) {p q : Nat} (pq : p < q) (hq : q < n) :
    Before key (order.getD p 0) (order.getD q 0) := by
  have length : order.length = n := by simpa using full.length_eq
  rw [List.getD_eq_getElem _ _ (show p < order.length by omega), List.getD_eq_getElem _ _ (show q < order.length by omega)]
  exact List.pairwise_iff_getElem.mp sorted p q (by omega) (by omega) pq

theorem map_positions_perm {α : Type} {order : List Nat} (full : order.Perm (List.range n)) (f : Nat → α) :
    ((List.range n).map fun p => f (order.getD p 0)).Perm ((List.range n).map f) := by
  have length : order.length = n := by simpa using full.length_eq
  have positions : ((List.range n).map fun p => f (order.getD p 0)) = order.map f := by
    apply List.ext_getElem (by simp [length])
    intro p h1 h2
    simp only [List.getElem_map, List.getElem_range]
    rw [List.getD_eq_getElem _ _ (by simpa [length] using h1)]
  rw [positions]
  exact full.map f

theorem key_le_of_le {order : List Nat} (sorted : order.Pairwise (Before key))
    (full : order.Perm (List.range n)) {p q : Nat} (pq : p ≤ q) (hq : q < n) :
    key (order.getD p 0) ≤ key (order.getD q 0) := by
  have length : order.length = n := by simpa using full.length_eq
  rcases Nat.eq_or_lt_of_le pq with rfl | lt
  · exact le_rfl
  · have before := List.pairwise_iff_getElem.mp sorted p q (by omega) (by omega) lt
    rw [List.getD_eq_getElem _ _ (show p < order.length by omega), List.getD_eq_getElem _ _ (show q < order.length by omega)]
    rcases before with below | ⟨same, -⟩ <;> omega

end Select

/-! ## Floor means -/

theorem mean_le {xs : List Nat} {b : Nat} (above : ∀ x ∈ xs, x ≤ b) : xs.sum / xs.length ≤ b := by
  have total : xs.sum ≤ xs.length * b := by simpa using List.sum_le_card_nsmul xs b above
  exact Nat.div_le_of_le_mul (by simpa [Nat.mul_comm] using total)

theorem le_mean {xs : List Nat} {b : Nat} (nonempty : xs ≠ []) (below : ∀ x ∈ xs, b ≤ x) :
    b ≤ xs.sum / xs.length := by
  have total : xs.length * b ≤ xs.sum := by simpa using List.card_nsmul_le_sum xs b below
  have pos : 0 < xs.length := List.length_pos_iff.mpr nonempty
  exact (Nat.le_div_iff_mul_le pos).mpr (by simpa [Nat.mul_comm] using total)

theorem mean_lt_mean {xs ys : List Nat} (hx : xs ≠ []) (hy : ys ≠ [])
    (sep : ∀ x ∈ xs, ∀ y ∈ ys, x < y) : xs.sum / xs.length < ys.sum / ys.length := by
  obtain ⟨x, mem⟩ := List.exists_mem_of_ne_nil xs hx
  have least := sep x mem _ (List.min_mem hy)
  calc xs.sum / xs.length ≤ ys.min hy - 1 := mean_le fun x' mem' => by
          have := sep x' mem' _ (List.min_mem hy)
          omega
    _ < ys.min hy := by omega
    _ ≤ ys.sum / ys.length := le_mean hy fun y mem' => List.min_le_of_mem mem'

end MStream.Nearest
