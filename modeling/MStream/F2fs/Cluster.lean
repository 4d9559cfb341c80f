import MStream.F2fs.State

/-!
The clustering pass `f2fs_update_cluster` (kmeans.c) with the routines it
calls: the walk of the file-group tree, `sort_and_cut_data`, `init_center`,
`kmeans_org`, the ranking of the final centers (`order_result`), the
assignment loop, `kmeans_cluster_minmax` and `f2fs_issue_expect_lifetime`.

The pass runs with `KMEANS_ENABLE` defined and `FIX_HOT` and `CLUSTER_TIME`
undefined, and `NR_DATABASE` is `0`, so no group is classified by a fixed rule.
An access past an array whose value steers the pass is a `wild` fault; the
stores of the assignment loop past `cluster_arr` change nothing the pass
reads again and are recorded in `strays`.
-/

namespace MStream.F2fs

open Machine Nearest

/-! ## The tree walk and the sorts -/

/-- The groups the tree walk keeps, in key order: those whose `update_new_ema`
is not `0`. -/
def consideredEntries (t : FgroupTree) : List FgroupEntry := t.entries.filter fun e => e.ema ≠ 0

structure Arrays where
  fgroup : Nat → Nat
  data : Nat → Nat
  weight : Nat → Int

/-- The arrays the tree walk fills: the group's key, its lifetime in 512-block
units, and its `valid` count, `1` in place of `0`. -/
def entryArrays (es : List FgroupEntry) : Arrays where
  fgroup i := (es[i]?.map FgroupEntry.fgroup).getD 0
  data i := (es[i]?.map fun e => e.ema / 512).getD 0
  weight i := (es[i]?.map fun e => if e.valid = 0 then 1 else e.valid).getD 0

def Arrays.permute (a : Arrays) (order : List Nat) : Arrays where
  fgroup i := a.fgroup (order.getD i 0)
  data i := a.data (order.getD i 0)
  weight i := a.weight (order.getD i 0)

def Arrays.triple (a : Arrays) (i : Nat) : Nat × Nat × Int := (a.fgroup i, a.data i, a.weight i)

@[simp] theorem Arrays.permute_triple (a : Arrays) (order : List Nat) (i : Nat) :
    (a.permute order).triple i = a.triple (order.getD i 0) := rfl

/-- `sort_and_cut_data(&nr_group, fgroup, data, weight)`: the arrays in the
order of a selection sort by `data` and the `n * VALID_FGROUP_RATE / 100`
groups the pass clusters. The sort stops at a key of `4294967295` or more,
and the copy-back then reads entries of its temporary arrays never written. -/
def sortAndCutData (n : Nat) (a : Arrays) : Except Fault (Nat × Arrays) := do
  let order := selectOrder a.data distCap n n []
  if order.length < n then throw .wild
  pure (n * validFgroupRate / 100, a.permute order)

/-- One cluster's walk in `init_center` over the sorted indices left: it takes
points until their weight reaches `interval`, and the center is the last point
at which the weight had reached `interval_center`. The loop reads
`sort_index[j]` before its `j > n` test, so a walk that runs out of points
reads past the array. -/
def centerWalk (data : Nat → Nat) (weight : Nat → Int) (interval : Nat) (intervalCenter : Int) :
    List Int → Int → Nat → Except Fault (List Int × Int × Nat)
  | [], _, _ => throw .wild
  | index :: rest, sumW, center => do
    if index = -1 then throw .bug
    let sumW := toInt32 (wrap32 (sumW + weight index.toNat))
    let center := if intervalCenter ≤ sumW then data index.toNat else center
    -- `sum_w >= interval` compares the `int` sum as an `unsigned long long`
    if interval ≤ wrap64 sumW then pure (rest, sumW, center)
    else centerWalk data weight interval intervalCenter rest sumW center

/-- Cluster `i` of `init_center`: its interval is an equal share of the weight
the earlier clusters left. -/
def initCenterStep (k : Nat) (data : Nat → Nat) (weight : Nat → Int)
    (acc : List Int × Int × (Nat → Nat)) (i : Nat) : Except Fault (List Int × Int × (Nat → Nat)) := do
  let interval := wrap64 (acc.2.1.tdiv (k - i))
  let intervalCenter := toInt32 (wrap32 (interval / 2))
  let walk ← centerWalk data weight interval intervalCenter acc.1 0 0
  pure (walk.1, toInt32 (wrap32 (acc.2.1 - walk.2.1)), Function.update acc.2.2 i walk.2.2)

/-- `init_center(n, k, data, center, weight)`: weighted quantiles of the
points in sorted order, `sort_index` padded with `-1` past the points the sort
reached. -/
def initCenter (n k : Nat) (data : Nat → Nat) (weight : Nat → Int) : Except Fault (Nat → Nat) := do
  let weightSum := toInt32 (wrap32 ((List.range n).map weight).sum)
  let order := selectOrder data distCap n n []
  let sortIndex := order.map Int.ofNat ++ List.replicate (n - order.length) (-1)
  let walked ← (List.range k).foldlM (initCenterStep k data weight) (sortIndex, weightSum, fun _ => 0)
  pure walked.2.2

/-! ## Ranking and assignment -/

/-- The ranking loop of `f2fs_update_cluster`: round `i` gives rank `i` to the
first least center not ranked yet, or to center `0` when none is below
`4294967295` ("index minus"). -/
def orderResultLoop (k : Nat) (center : Nat → Nat) : Nat → Nat → (Nat → Int) → Nat → Int
  | 0, _, ord => ord
  | r + 1, i, ord =>
    let index := ((scanMin (fun j => decide (0 ≤ ord j)) center distCap k).1).getD 0
    orderResultLoop k center r (i + 1) (Function.update ord index i)

def orderResult (k : Nat) (center : Nat → Nat) : Nat → Int := orderResultLoop k center k 0 fun _ => -1

/-- What the assignment loop carries: the tree, `cluster_arr`, `weight`,
`max_cluster`, and the positions it stored to past `cluster_arr`. -/
structure AssignState where
  tree : FgroupTree
  clusterArr : Nat → Int
  weight : Nat → Int
  maxCluster : Nat → Nat
  strays : List Nat

/-- The cluster the loop gives sorted position `j`: the rank of its k-means
cluster, and `nr_cluster - 1` when k-means left it unassigned or the cut
dropped it. -/
def clusterOf (cut : Nat) (result ord : Nat → Int) (j : Nat) : Int :=
  if j < cut then
    if result j < 0 then (nrCluster : Int) - 1 - 1 else ord (result j).toNat
  else (nrCluster : Int) - 1 - 1

/-- One position of the assignment loop: `update_cluster`, the store to
`cluster_arr` (allocated for the `cut` groups only), and for a group still in
the tree its `count` as weight and its lifetime in `max_cluster`. -/
def assignStep (cut : Nat) (fgroup data : Nat → Nat) (result ord : Nat → Int) (s : AssignState)
    (j : Nat) : Except Fault AssignState := do
  let cluster := clusterOf cut result ord j
  let tree := s.tree.updateCluster (fgroup j) (wrap32 cluster)
  let s := { s with
    tree
    clusterArr := Function.update s.clusterArr j cluster
    strays := if cut ≤ j then s.strays ++ [j] else s.strays }
  match tree.lookupFgroupEntry (fgroup j) with
  | none => pure s
  | some e =>
    -- `max_cluster` has `NR_CLUSTER` entries
    if cluster < 0 ∨ (nrCluster : Int) ≤ cluster then throw .wild
    let c := cluster.toNat
    pure { s with
      weight := Function.update s.weight j (toInt32 (wrap32 e.count))
      maxCluster := if s.maxCluster c < data j then Function.update s.maxCluster c (data j)
        else s.maxCluster }

/-! ## What the phases compute -/

section Walk

variable {t : FgroupTree}

theorem mem_considered {e : FgroupEntry} : e ∈ consideredEntries t ↔ e ∈ t.entries ∧ e.ema ≠ 0 := by
  simp [consideredEntries]

theorem considered_fgroup_inj {i j : Nat} (hi : i < (consideredEntries t).length)
    (hj : j < (consideredEntries t).length)
    (same : (consideredEntries t)[i].fgroup = (consideredEntries t)[j].fgroup) : i = j := by
  have nodup : (consideredEntries t).Nodup :=
    (t.ordered.sublist List.filter_sublist).imp fun lt eq => by
      subst eq
      exact Nat.lt_irrefl _ lt
  have mi := (mem_considered.mp (List.getElem_mem hi)).1
  have mj := (mem_considered.mp (List.getElem_mem hj)).1
  exact nodup.getElem_inj_iff.mp (FgroupTree.eq_of_fgroup_eq mi mj same)

@[simp] theorem entryArrays_fgroup {es : List FgroupEntry} {i : Nat} (hi : i < es.length) :
    (entryArrays es).fgroup i = es[i].fgroup := by
  simp [entryArrays, hi]

@[simp] theorem entryArrays_data {es : List FgroupEntry} {i : Nat} (hi : i < es.length) :
    (entryArrays es).data i = es[i].ema / 512 := by
  simp [entryArrays, hi]

end Walk

section Sorting

variable {n : Nat} {a : Arrays}

theorem sortAndCutData_ok (capped : ∀ i < n, a.data i < distCap) :
    sortAndCutData n a = .ok (n * validFgroupRate / 100, a.permute (selectOrder a.data distCap n n [])) := by
  have length : (selectOrder a.data distCap n n []).length = n := by
    simpa using (selectOrder_perm capped).length_eq
  simp [sortAndCutData, length]

/-- With every key below the sentinel `4294967295`, `sort_and_cut_data` sets
`*nr_group` to `n * 95 / 100` and leaves the first `n` triples of the arrays a
permutation of the triples it was given, in the order of the keys, ties in the
order of the original positions. -/
theorem sort_and_cut_data_sorts (capped : ∀ i < n, a.data i < distCap) :
    ∃ order : List Nat, order.Perm (List.range n) ∧
      sortAndCutData n a = .ok (n * validFgroupRate / 100, a.permute order) ∧
      ((List.range n).map (a.permute order).triple).Perm ((List.range n).map a.triple) ∧
      ∀ p q, p < q → q < n → Before a.data (order.getD p 0) (order.getD q 0) := by
  have full := selectOrder_perm capped
  have sorted := (@selectOrder_inv a.data distCap n [] selectInv_nil n).sorted
  refine ⟨selectOrder a.data distCap n n [], full, sortAndCutData_ok capped, ?_, ?_⟩
  · -- the output reads each triple through the position the sort gave it
    exact map_positions_perm full a.triple
  · intro p q pq hq
    exact before_of_lt sorted full pq hq

/-- Three groups, the first and the last with the same key. -/
def tiedArrays : Arrays where
  fgroup i := 10 + i
  data i := if i = 1 then 2 else 5
  weight _ := 1

/-- The tied groups keep their order: the sort gives positions 1, 0, 2, and
two of the three groups are clustered. -/
theorem sort_and_cut_data_sorts_tied :
    selectOrder tiedArrays.data distCap 3 3 [] = [1, 0, 2] ∧
      ∃ order : List Nat, order.Perm (List.range 3) ∧
        sortAndCutData 3 tiedArrays = .ok (3 * validFgroupRate / 100, tiedArrays.permute order) ∧
        ((List.range 3).map (tiedArrays.permute order).triple).Perm ((List.range 3).map tiedArrays.triple) ∧
        ∀ p q, p < q → q < 3 → Before tiedArrays.data (order.getD p 0) (order.getD q 0) :=
  ⟨by decide, sort_and_cut_data_sorts (by decide)⟩

theorem sortAndCutData_cut {nr : Nat} {a' : Arrays} (sorted : sortAndCutData n a = .ok (nr, a')) :
    nr = n * validFgroupRate / 100 := by
  dsimp only [sortAndCutData] at sorted
  split at sorted
  · simp at sorted
  · exact (Prod.mk.inj (pure_eq_ok.mp sorted)).1.symm

end Sorting

section Ranking

variable {k : Nat} {center : Nat → Nat}

/-- The ranks `order_result` holds once the centers of `taken` are ranked. -/
def rankOf (taken : List Nat) (j : Nat) : Int := if j ∈ taken then taken.idxOf j else -1

theorem rankOf_nil : rankOf [] = fun _ => -1 := by
  funext j
  simp [rankOf]

theorem rankOf_append {taken : List Nat} {j : Nat} (fresh : j ∉ taken) :
    rankOf (taken ++ [j]) = Function.update (rankOf taken) j taken.length := by
  funext i
  by_cases same : i = j
  · subst same
    simp [rankOf, fresh, List.idxOf_append_of_notMem fresh]
  · by_cases old : i ∈ taken
    · simp [rankOf, same, old, List.idxOf_append_of_mem old]
    · simp [rankOf, same, old]

theorem skip_rankOf (taken : List Nat) :
    (fun j => decide (0 ≤ rankOf taken j)) = fun j => decide (j ∈ taken) := by
  funext j
  by_cases mem : j ∈ taken <;> simp [rankOf, mem]

theorem orderResultLoop_rank {taken : List Nat} (inv : SelectInv center distCap k taken)
    (capped : ∀ j < k, center j < distCap) (r : Nat) (room : taken.length + r ≤ k) :
    orderResultLoop k center r taken.length (rankOf taken) = rankOf (selectOrder center distCap k r taken) := by
  induction r generalizing taken with
  | zero => rfl
  | succ r ih =>
    obtain ⟨u, hu, untaken⟩ := exists_not_mem_of_length_lt (show taken.length < k by omega)
    rcases scan : (scanMin (fun j => decide (j ∈ taken)) center distCap k).1 with _ | j
    · exact absurd (scanMin_none scan u hu (by simpa using untaken)) (Nat.not_le.mpr (capped u hu))
    · have fresh : j ∉ taken := by simpa using (scanMin_some scan).2.1
      have next := ih (inv.take scan) (by simp; omega)
      simp only [List.length_append, List.length_singleton, rankOf_append fresh] at next
      simp only [orderResultLoop, selectOrder, skip_rankOf, scan, Option.getD_some]
      exact next

theorem orderResult_eq (capped : ∀ j < k, center j < distCap) {j : Nat} (hj : j < k) :
    orderResult k center j = (selectOrder center distCap k k []).idxOf j := by
  have loop := orderResultLoop_rank selectInv_nil capped k (by simp)
  have mem : j ∈ selectOrder center distCap k k [] :=
    (selectOrder_perm capped).symm.subset (List.mem_range.mpr hj)
  rw [List.length_nil, rankOf_nil] at loop
  rw [orderResult, loop]
  simp [rankOf, mem]

theorem orderResult_lt (capped : ∀ j < k, center j < distCap) {j : Nat} (hj : j < k) :
    0 ≤ orderResult k center j ∧ orderResult k center j < k := by
  have full := selectOrder_perm capped
  have mem : j ∈ selectOrder center distCap k k [] := full.symm.subset (List.mem_range.mpr hj)
  have lt := List.idxOf_lt_length_of_mem mem
  rw [full.length_eq, List.length_range] at lt
  rw [orderResult_eq capped hj]
  omega

end Ranking

section Clusters

variable {cut : Nat} {index : Nat → Int} {center : Nat → Nat}

theorem clusterOf_range (capped : ∀ j < nrCluster - 1, center j < distCap)
    (below : ∀ p, index p < nrCluster - 1) (p : Nat) :
    0 ≤ clusterOf cut index (orderResult (nrCluster - 1) center) p ∧
      clusterOf cut index (orderResult (nrCluster - 1) center) p ≤ nrCluster - 2 := by
  have four : nrCluster = 4 := rfl
  unfold clusterOf
  split_ifs with inside neg
  · simp [four]
  · have rank := orderResult_lt capped (show (index p).toNat < nrCluster - 1 by have := below p; omega)
    omega
  · simp [four]

/-- Of two positions, the longer-lived gets the same cluster or a colder one:
the sort puts it later, k-means puts it in the same cluster or in one whose
center ranks later, and the ranks are positions in the order of the centers. -/
theorem clusterOf_mono {prev : Nat} {data : Nat → Nat} (final : FinalPair cut (nrCluster - 1) data index center)
    (bounded : ∀ p < cut, data p < 2 ^ 31) (capped : ∀ j < nrCluster - 1, center j < distCap)
    (sorted : ∀ p < prev, ∀ q < prev, p ≤ q → data p ≤ data q) {p q : Nat} (hp : p < prev) (hq : q < prev)
    (lt : data p < data q) :
    clusterOf cut index (orderResult (nrCluster - 1) center) p ≤
      clusterOf cut index (orderResult (nrCluster - 1) center) q := by
  have four : nrCluster = 4 := rfl
  have pq : p < q := by
    by_contra qp
    have := sorted q hq p hp (by omega)
    omega
  have range : ∀ p, 0 ≤ clusterOf cut index (orderResult (nrCluster - 1) center) p ∧
      clusterOf cut index (orderResult (nrCluster - 1) center) p ≤ nrCluster - 2 :=
    clusterOf_range capped final.lt
  have order := (@selectOrder_inv center distCap (nrCluster - 1) [] selectInv_nil (nrCluster - 1)).sorted
  have full := selectOrder_perm capped
  have mem : ∀ j < nrCluster - 1, j ∈ selectOrder center distCap (nrCluster - 1) (nrCluster - 1) [] :=
    fun j hj => full.symm.subset (List.mem_range.mpr hj)
  -- past the cut the later position is in the coldest cluster
  obtain qcut | qcut := (Nat.lt_or_ge q cut).symm
  · have top : clusterOf cut index (orderResult (nrCluster - 1) center) q = nrCluster - 2 := by
      simp [clusterOf, Nat.not_lt.mpr qcut, four]
    rw [top]
    exact (range p).2
  have pcut : p < cut := by omega
  have ordered := final.ordered bounded p pcut q (by omega) lt
  by_cases unassignedq : index q < 0
  · have top : clusterOf cut index (orderResult (nrCluster - 1) center) q = nrCluster - 2 := by
      simp [clusterOf, qcut, unassignedq, four]
    rw [top]
    exact (range p).2
  have hq' : (index q).toNat < nrCluster - 1 := by have := final.lt q; omega
  obtain ⟨assigned, unassigned⟩ := ordered (by omega)
  by_cases unassignedp : index p < 0
  · -- every other center comes before that of `q`, which therefore ranks last
    have last := idxOf_eq_of_last order full hq' (unassigned unassignedp)
    simp only [clusterOf, if_pos pcut, if_pos unassignedp, if_pos qcut, if_neg unassignedq,
      orderResult_eq capped hq', last]
    omega
  · have hp' : (index p).toNat < nrCluster - 1 := by have := final.lt p; omega
    rcases assigned (by omega) with same | before
    · simp [clusterOf, pcut, qcut, unassignedq, same]
    · have ranks := idxOf_lt_of_before order (mem _ hp') (mem _ hq') before
      simp only [clusterOf, if_pos pcut, if_neg unassignedp, if_pos (qcut), if_neg unassignedq,
        orderResult_eq capped hp', orderResult_eq capped hq']
      omega

end Clusters

section Assign

variable (cl fg : Nat → Nat)

/-- The cluster that the last of the positions below `m` with key `f` was
given. -/
def lastAssigned (f : Nat) : Nat → Option Nat
  | 0 => none
  | j + 1 => if fg j = f then some (cl j) else lastAssigned f j

/-- An entry once the loop has given the positions below `m` their clusters. -/
def assignedEntry (m : Nat) (e : FgroupEntry) : FgroupEntry :=
  match lastAssigned cl fg e.fgroup m with
  | some c => { e with cluster := c }
  | none => e

variable {cl fg}

@[simp] theorem assignedEntry_fgroup (m : Nat) (e : FgroupEntry) :
    (assignedEntry cl fg m e).fgroup = e.fgroup := by
  unfold assignedEntry
  split <;> rfl

@[simp] theorem assignedEntry_ema (m : Nat) (e : FgroupEntry) : (assignedEntry cl fg m e).ema = e.ema := by
  unfold assignedEntry
  split <;> rfl

theorem assignedEntry_zero (e : FgroupEntry) : assignedEntry cl fg 0 e = e := rfl

theorem assignedEntry_succ (m : Nat) (e : FgroupEntry) :
    assignedEntry cl fg (m + 1) e =
      if (assignedEntry cl fg m e).fgroup = fg m then { assignedEntry cl fg m e with cluster := cl m }
      else assignedEntry cl fg m e := by
  rw [assignedEntry_fgroup]
  by_cases key : fg m = e.fgroup
  · rw [if_pos key.symm]
    have last : lastAssigned cl fg e.fgroup (m + 1) = some (cl m) := by simp [lastAssigned, key]
    simp only [assignedEntry, last]
    split <;> rfl
  · rw [if_neg (Ne.symm key)]
    have last : lastAssigned cl fg e.fgroup (m + 1) = lastAssigned cl fg e.fgroup m := by
      simp [lastAssigned, key]
    rw [assignedEntry, last, assignedEntry]

theorem lastAssigned_unique {f m p : Nat} (hp : p < m) (key : fg p = f)
    (unique : ∀ q < m, fg q = f → q = p) : lastAssigned cl fg f m = some (cl p) := by
  induction m with
  | zero => omega
  | succ m ih =>
    by_cases last : fg m = f
    · obtain rfl := unique m (by omega) last
      simp [lastAssigned, last]
    · have below : p < m := by
        rcases Nat.lt_succ_iff_lt_or_eq.mp hp with lt | rfl
        · exact lt
        · exact absurd key last
      rw [lastAssigned, if_neg last]
      exact ih below fun q hq => unique q (by omega)

theorem assignedEntry_unique {m p : Nat} {e : FgroupEntry} (hp : p < m) (key : fg p = e.fgroup)
    (unique : ∀ q < m, fg q = e.fgroup → q = p) : assignedEntry cl fg m e = { e with cluster := cl p } := by
  rw [assignedEntry, lastAssigned_unique hp key unique]

end Assign

theorem raise_apply (f : Nat → Nat) (c v c' : Nat) :
    (if f c < v then Function.update f c v else f) c' = if c' = c then max (f c) v else f c' := by
  by_cases same : c' = c
  · subst same
    by_cases lt : f c' < v <;> simp [lt] <;> omega
  · by_cases lt : f c < v <;> simp [lt, same]

section Loop

variable {cut : Nat} {fgroup data : Nat → Nat} {result ord : Nat → Int}

/-- What the assignment loop keeps over the positions below `m`: the tree
relabelled position by position, the stores past `cluster_arr`, and
`max_cluster` as the largest lifetime of each cluster. -/
structure AssignInv (cut : Nat) (fgroup data : Nat → Nat) (cluster : Nat → Int)
    (entries : List FgroupEntry) (m : Nat) (s : AssignState) : Prop where
  tree : s.tree.entries = entries.map (assignedEntry (fun j => wrap32 (cluster j)) fgroup m)
  strays : s.strays = (List.range m).filter (cut ≤ ·)
  maxAbove : ∀ p < m, data p ≤ s.maxCluster (cluster p).toNat
  maxOf : ∀ c, s.maxCluster c = 0 ∨ ∃ p < m, (cluster p).toNat = c ∧ s.maxCluster c = data p

theorem assignStep_found {s : AssignState} {j : Nat} {e : FgroupEntry}
    (found : (s.tree.updateCluster (fgroup j) (wrap32 (clusterOf cut result ord j))).lookupFgroupEntry
      (fgroup j) = some e)
    (range : 0 ≤ clusterOf cut result ord j ∧ clusterOf cut result ord j < nrCluster) :
    assignStep cut fgroup data result ord s j = .ok
      { tree := s.tree.updateCluster (fgroup j) (wrap32 (clusterOf cut result ord j))
        clusterArr := Function.update s.clusterArr j (clusterOf cut result ord j)
        weight := Function.update s.weight j (toInt32 (wrap32 e.count))
        maxCluster := if s.maxCluster (clusterOf cut result ord j).toNat < data j then
            Function.update s.maxCluster (clusterOf cut result ord j).toNat (data j)
          else s.maxCluster
        strays := if cut ≤ j then s.strays ++ [j] else s.strays } := by
  have inside : ¬ (clusterOf cut result ord j < 0 ∨ (nrCluster : Int) ≤ clusterOf cut result ord j) := by
    omega
  simp only [assignStep, found, if_neg inside]
  rfl

theorem assignStep_strays {s s' : AssignState} {j : Nat} (step : assignStep cut fgroup data result ord s j = .ok s') :
    s'.strays = if cut ≤ j then s.strays ++ [j] else s.strays := by
  rcases found : (s.tree.updateCluster (fgroup j) (wrap32 (clusterOf cut result ord j))).lookupFgroupEntry
    (fgroup j) with _ | e
  · simp only [assignStep, found, pure_eq_ok] at step
    rw [← step]
  · by_cases out : clusterOf cut result ord j < 0 ∨ (nrCluster : Int) ≤ clusterOf cut result ord j
    · simp [assignStep, found, out] at step
    · rw [assignStep_found found (by omega)] at step
      rw [← Except.ok.inj step]

theorem assignInv_zero {entries : List FgroupEntry} {s : AssignState} (tree : s.tree.entries = entries)
    (strays : s.strays = []) (zero : s.maxCluster = fun _ => 0) :
    AssignInv cut fgroup data (clusterOf cut result ord) entries 0 s where
  tree := by
    rw [tree]
    exact ((List.map_congr_left fun e _ => assignedEntry_zero e).trans (List.map_id' entries)).symm
  strays := by simp [strays]
  maxAbove := by simp
  maxOf := by simp [zero]

theorem assignStep_inv {entries : List FgroupEntry} {m : Nat} {s : AssignState}
    (inv : AssignInv cut fgroup data (clusterOf cut result ord) entries m s)
    (range : 0 ≤ clusterOf cut result ord m ∧ clusterOf cut result ord m < nrCluster)
    (key : ∃ e ∈ entries, e.fgroup = fgroup m) :
    ∃ s', assignStep cut fgroup data result ord s m = .ok s' ∧
      AssignInv cut fgroup data (clusterOf cut result ord) entries (m + 1) s' := by
  obtain ⟨e, mem, same⟩ := key
  have tree : (s.tree.updateCluster (fgroup m) (wrap32 (clusterOf cut result ord m))).entries =
      entries.map (assignedEntry (fun j => wrap32 (clusterOf cut result ord j)) fgroup (m + 1)) := by
    rw [FgroupTree.updateCluster_entries, inv.tree, List.map_map]
    exact List.map_congr_left fun e _ => (assignedEntry_succ m e).symm
  -- the group of position `m` is still in the tree, so the lookup finds it
  have present : assignedEntry (fun j => wrap32 (clusterOf cut result ord j)) fgroup (m + 1) e ∈
      (s.tree.updateCluster (fgroup m) (wrap32 (clusterOf cut result ord m))).entries := by
    rw [tree]
    exact List.mem_map_of_mem mem
  obtain ⟨e', found⟩ := FgroupTree.lookup_of_mem present
  rw [assignedEntry_fgroup, same] at found
  refine ⟨_, assignStep_found found range, tree, ?strays, ?above, ?maxOf⟩
  case strays =>
    simp only [inv.strays, List.range_succ, List.filter_append]
    split <;> simp_all
  case above =>
    intro p hp
    simp only [raise_apply]
    rcases Nat.lt_succ_iff_lt_or_eq.mp hp with lt | rfl
    · have le := inv.maxAbove p lt
      split
      · rename_i same
        rw [← same]
        omega
      · exact le
    · simp
  case maxOf =>
    intro c
    simp only [raise_apply]
    split
    · rename_i here
      subst here
      by_cases lt : s.maxCluster (clusterOf cut result ord m).toNat < data m
      · exact .inr ⟨m, by omega, rfl, by omega⟩
      · rcases inv.maxOf (clusterOf cut result ord m).toNat with zero | ⟨p, hp, hc, eq⟩
        · exact .inl (by omega)
        · exact .inr ⟨p, by omega, hc, by omega⟩
    · rcases inv.maxOf c with zero | ⟨p, hp, hc, eq⟩
      · exact .inl zero
      · exact .inr ⟨p, by omega, hc, eq⟩

end Loop

/-! ## The pass -/

/-- The initial centers: `init_center` over the cut groups for the first ten
passes, the previous pass's `kmeans_center` after them. -/
def passCenters (sbi : SbInfo) (nrFgroup : Nat) (a : Arrays) : Except Fault (Nat → Nat) :=
  if sbi.kmeansCount < 10 then initCenter nrFgroup (nrCluster - 1) a.data a.weight
  else pure sbi.kmeansCenter

/-- The assignment loop over the `prevFgroup` sorted groups, with the final
centers and assignment of `kmeans_org`. -/
def assignClusters (tree : FgroupTree) (prevFgroup nrFgroup : Nat) (a : Arrays) (final : KmeansState) :
    Except Fault AssignState :=
  (List.range prevFgroup).foldlM
    (assignStep nrFgroup a.fgroup a.data final.indexCur (orderResult (nrCluster - 1) final.center))
    { tree, clusterArr := fun _ => 0, weight := a.weight, maxCluster := fun _ => 0, strays := [] }

theorem assignClusters_strays {tree : FgroupTree} {prev nr : Nat} {a : Arrays} {final : KmeansState}
    {s : AssignState} (run : assignClusters tree prev nr a final = .ok s) :
    s.strays = (List.range prev).filter (nr ≤ ·) := by
  refine @foldlM_range_inv _ _ _ (fun m s => s.strays = (List.range m).filter (nr ≤ ·)) _ _ _ rfl ?_ run
  intro j _ s s' strays step
  rw [assignStep_strays step, strays, List.range_succ, List.filter_append]
  split <;> simp_all

theorem assignClusters_ok {tree : FgroupTree} {prev nr : Nat} {a : Arrays} {final : KmeansState}
    (range : ∀ p < prev, 0 ≤ clusterOf nr final.indexCur (orderResult (nrCluster - 1) final.center) p ∧
      clusterOf nr final.indexCur (orderResult (nrCluster - 1) final.center) p < nrCluster)
    (keys : ∀ p < prev, ∃ e ∈ tree.entries, e.fgroup = a.fgroup p) :
    ∃ s, assignClusters tree prev nr a final = .ok s ∧
      AssignInv nr a.fgroup a.data (clusterOf nr final.indexCur (orderResult (nrCluster - 1) final.center))
        tree.entries prev s :=
  foldlM_range_ok (assignInv_zero rfl rfl rfl) fun j hj _ inv => assignStep_inv inv (range j hj) (keys j hj)

def f2fsUpdateCluster (sbi : SbInfo) : Except Fault SbInfo := do
  let curSeq := sbi.userDataBlocks
  if curSeq < sbi.lastCluster then return sbi
  let later := { sbi with lastCluster := curSeq + clusterT }
  if sbi.fgroupTree.entries.length ≤ nrCluster - 1 then return later
  let considered := consideredEntries sbi.fgroupTree
  let prevFgroup := considered.length
  if prevFgroup ≤ nrCluster - 1 then return later
  let (nrFgroup, a) ← sortAndCutData prevFgroup (entryArrays considered)
  let center ← passCenters sbi nrFgroup a
  let final := (kmeansOrg nrFgroup (nrCluster - 1) a.data center).1
  let s ← assignClusters sbi.fgroupTree prevFgroup nrFgroup a final
  let sbi := { sbi with
    fgroupTree := s.tree
    strays := sbi.strays ++ s.strays
    kmeansMax := fun i => if i < nrCluster - 1 then s.maxCluster i else sbi.kmeansMax i
    kmeansCenter := fun i => if i < nrCluster - 1 then final.center i else sbi.kmeansCenter i }
  let sbi ← kmeansClusterMinmax sbi a.data s.weight s.clusterArr nrFgroup (nrCluster - 1)
  let sbi ← (List.range (nrCluster - 1)).foldlM f2fsIssueExpectLifetime sbi
  pure { sbi with kmeansCount := wrap32 (sbi.kmeansCount + 1), lastCluster := curSeq + clusterT }

theorem f2fsUpdateCluster_inv {sbi sbi' : SbInfo} (due : sbi.lastCluster ≤ sbi.userDataBlocks)
    (enough : nrCluster - 1 < (consideredEntries sbi.fgroupTree).length)
    (run : f2fsUpdateCluster sbi = .ok sbi') :
    ∃ nr a center s,
      sortAndCutData (consideredEntries sbi.fgroupTree).length (entryArrays (consideredEntries sbi.fgroupTree)) =
        .ok (nr, a) ∧
      passCenters sbi nr a = .ok center ∧
      assignClusters sbi.fgroupTree (consideredEntries sbi.fgroupTree).length nr a
        (kmeansOrg nr (nrCluster - 1) a.data center).1 = .ok s ∧
      sbi'.fgroupTree = s.tree ∧ sbi'.strays = sbi.strays ++ s.strays ∧
      (∀ i < nrCluster - 1, sbi'.kmeansMax i = s.maxCluster i) ∧
      sbi'.kmeansCount = wrap32 (sbi.kmeansCount + 1) := by
  have tree : nrCluster - 1 < sbi.fgroupTree.entries.length :=
    lt_of_lt_of_le enough (List.length_filter_le _ _)
  simp only [f2fsUpdateCluster, if_neg (Nat.not_lt.mpr due), if_neg (Nat.not_le.mpr tree),
    if_neg (Nat.not_le.mpr enough), bind_eq_ok] at run
  obtain ⟨⟨nr, a⟩, sorted, center, centers, s, assign, sbi2, minmax, sbi3, issue, done⟩ := run
  -- the history routines after the loop touch only the history and the issued bios
  obtain ⟨history, rfl⟩ := kmeansClusterMinmax_frame _ minmax
  obtain ⟨issued, rfl⟩ := issueExpectLifetimes_frame _ issue
  obtain rfl := pure_eq_ok.mp done
  exact ⟨nr, a, center, s, sorted, centers, assign, rfl, rfl, fun i hi => if_pos hi, rfl⟩

/-! ## The pass over lifetimes below `2 ^ 31`

With every lifetime below `2 ^ 31` the sort orders all considered groups, the
final centers rank, and the assignment loop gives every position a cluster
with a `max_cluster` entry, whatever centers k-means started from. -/

section Considered

variable {t : FgroupTree}

def sortedOrder (t : FgroupTree) : List Nat :=
  selectOrder (entryArrays (consideredEntries t)).data distCap (consideredEntries t).length
    (consideredEntries t).length []

def sortedArrays (t : FgroupTree) : Arrays := (entryArrays (consideredEntries t)).permute (sortedOrder t)

def cutCount (t : FgroupTree) : Nat := (consideredEntries t).length * validFgroupRate / 100

/-- The clusters the assignment loop gives the sorted positions, from the
final state of `kmeans_org`. -/
def finalCluster (t : FgroupTree) (final : KmeansState) : Nat → Int :=
  clusterOf (cutCount t) final.indexCur (orderResult (nrCluster - 1) final.center)

theorem cutCount_le : cutCount t ≤ (consideredEntries t).length := by
  unfold cutCount validFgroupRate
  omega

theorem assignedEntry_of_position (full : (sortedOrder t).Perm (List.range (consideredEntries t).length))
    (cl : Nat → Nat) {p i : Nat} (hp : p < (consideredEntries t).length) (hi : i < (consideredEntries t).length)
    (pos : (sortedOrder t).getD p 0 = i) :
    assignedEntry cl (sortedArrays t).fgroup (consideredEntries t).length (consideredEntries t)[i] =
      { (consideredEntries t)[i] with cluster := cl p } := by
  apply assignedEntry_unique hp
  · simp only [sortedArrays, Arrays.permute]
    rw [pos, entryArrays_fgroup hi]
  · intro q hq key
    have hq' := getD_lt_of_full full hq
    simp only [sortedArrays, Arrays.permute] at key
    rw [entryArrays_fgroup hq'] at key
    have same : (sortedOrder t).getD q 0 = i := considered_fgroup_inj hq' hi key
    exact position_inj_of_full full hq hp (same.trans pos.symm)

section Bounded

variable (bounded : ∀ e ∈ t.entries, e.ema / 512 < 2 ^ 31)
include bounded

theorem entryArrays_data_lt {i : Nat} (hi : i < (consideredEntries t).length) :
    (entryArrays (consideredEntries t)).data i < 2 ^ 31 := by
  rw [entryArrays_data hi]
  exact bounded _ (mem_considered.mp (List.getElem_mem hi)).1

theorem sortedOrder_full : (sortedOrder t).Perm (List.range (consideredEntries t).length) :=
  selectOrder_perm fun _ hi => lt_trans (entryArrays_data_lt bounded hi) (by decide)

theorem sortAndCutData_considered :
    sortAndCutData (consideredEntries t).length (entryArrays (consideredEntries t)) =
      .ok (cutCount t, sortedArrays t) :=
  sortAndCutData_ok fun _ hi => lt_trans (entryArrays_data_lt bounded hi) (by decide)

theorem sortedArrays_data_lt {p : Nat} (hp : p < (consideredEntries t).length) :
    (sortedArrays t).data p < 2 ^ 31 :=
  entryArrays_data_lt bounded (getD_lt_of_full (sortedOrder_full bounded) hp)

theorem sortedArrays_sorted {p q : Nat} (pq : p ≤ q) (hq : q < (consideredEntries t).length) :
    (sortedArrays t).data p ≤ (sortedArrays t).data q :=
  key_le_of_le (selectOrder_inv selectInv_nil _).sorted (sortedOrder_full bounded) pq hq

theorem finalPair_considered (center : Nat → Nat) :
    FinalPair (cutCount t) (nrCluster - 1) (sortedArrays t).data
      (kmeansOrg (cutCount t) (nrCluster - 1) (sortedArrays t).data center).1.indexCur
      (kmeansOrg (cutCount t) (nrCluster - 1) (sortedArrays t).data center).1.center :=
  kmeansOrg_final (by decide) (fun _ hp => sortedArrays_data_lt bounded (by have := @cutCount_le t; omega)) center

theorem finalCenter_lt (center : Nat → Nat) (j : Nat) :
    (kmeansOrg (cutCount t) (nrCluster - 1) (sortedArrays t).data center).1.center j < distCap :=
  lt_trans (kmeansOrg_center_lt (fun _ hp => sortedArrays_data_lt bounded (by have := @cutCount_le t; omega))
    center j) (by decide)

theorem finalCluster_range (center : Nat → Nat) (p : Nat) :
    0 ≤ finalCluster t (kmeansOrg (cutCount t) (nrCluster - 1) (sortedArrays t).data center).1 p ∧
      finalCluster t (kmeansOrg (cutCount t) (nrCluster - 1) (sortedArrays t).data center).1 p ≤ nrCluster - 2 :=
  clusterOf_range (fun j _ => finalCenter_lt bounded center j) (finalPair_considered bounded center).lt p

theorem assignClusters_considered (center : Nat → Nat) :
    ∃ s, assignClusters t (consideredEntries t).length (cutCount t) (sortedArrays t)
        (kmeansOrg (cutCount t) (nrCluster - 1) (sortedArrays t).data center).1 = .ok s ∧
      AssignInv (cutCount t) (sortedArrays t).fgroup (sortedArrays t).data
        (finalCluster t (kmeansOrg (cutCount t) (nrCluster - 1) (sortedArrays t).data center).1)
        t.entries (consideredEntries t).length s := by
  apply assignClusters_ok
  · intro p _
    have range := finalCluster_range bounded center p
    exact ⟨range.1, by unfold finalCluster at range; omega⟩
  · intro p hp
    have hi := getD_lt_of_full (sortedOrder_full bounded) hp
    refine ⟨(consideredEntries t)[(sortedOrder t).getD p 0], (mem_considered.mp (List.getElem_mem hi)).1, ?_⟩
    simp only [sortedArrays, Arrays.permute]
    rw [entryArrays_fgroup hi]

end Bounded

theorem f2fsUpdateCluster_full {sbi : SbInfo} (due : sbi.lastCluster ≤ sbi.userDataBlocks)
    (enough : nrCluster - 1 < (consideredEntries sbi.fgroupTree).length)
    (bounded : ∀ e ∈ sbi.fgroupTree.entries, e.ema / 512 < 2 ^ 31) (full : maxHistory ≤ sbi.kmeansCount) :
    f2fsUpdateCluster sbi = .error .wild := by
  have tree : nrCluster - 1 < sbi.fgroupTree.entries.length :=
    lt_of_lt_of_le enough (List.length_filter_le _ _)
  -- past ten passes the centers are the previous pass's
  have centers : passCenters sbi (cutCount sbi.fgroupTree) (sortedArrays sbi.fgroupTree) = .ok sbi.kmeansCenter := by
    have late : ¬ sbi.kmeansCount < 10 := by unfold maxHistory at full; omega
    simp [passCenters, late]
  obtain ⟨s, assign, -⟩ := assignClusters_considered bounded sbi.kmeansCenter
  simp only [f2fsUpdateCluster, if_neg (Nat.not_lt.mpr due), if_neg (Nat.not_le.mpr tree),
    if_neg (Nat.not_le.mpr enough), sortAndCutData_considered bounded, ok_bind, centers, assign]
  -- the record is not written, and the first bound read goes past the history
  rw [show nrCluster - 1 = 2 + 1 from rfl]
  simp only [kmeansClusterMinmax_full, issueExpectLifetimes_full, full, ok_bind, error_bind]

end Considered

end MStream.F2fs
