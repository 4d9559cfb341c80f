import MStream.Machine
import MStream.Nearest

/-!
`kmeans_org` of kmeans.c, the clustering `f2fs_update_cluster` runs, with the
routines it calls. Arrays are functions on their indices: `n` points `data`,
`k` clusters, an assignment `index` of `int`s where `-1` is no cluster.

The distances are exact differences, and `choose_all_clusters_from_distances`
keeps a point unassigned when every distance is at least `4294967295`.
`calc_total_distance_org` squares the wrapped difference and sums in
`unsigned long long`. The centroid sums are kept exact: with points below
`2 ^ 33` they would need more than `2 ^ 31` points, more than the `int` count
of the source, to wrap.

`kmeans_org` also returns which of its exits it took (`KmeansExit`), with the
iteration it left in; the source only returns `0`. The allocation failures that
make it return early are left out.
-/

namespace MStream.F2fs

open Machine Nearest

/-- `MAX_ITERATIONS` -/
def maxIterations : Nat := 10

/-- `4294967295`, where the nearest-center scan and the objective of
`kmeans_org` start. -/
def distCap : Nat := 4294967295

section Routines

variable (n k : Nat) (data : Nat → Nat)

def calcAllDistances (centroid : Nat → Nat) (ii jj : Nat) : Nat :=
  if data ii < centroid jj then centroid jj - data ii else data ii - centroid jj

def chooseAllClustersFromDistances (dist : Nat → Nat → Nat) (ii : Nat) : Int :=
  match (scanMin (fun _ => false) (dist ii) distCap k).1 with
  | some jj => jj
  | none => -1

/-- `calc_all_distances` followed by `choose_all_clusters_from_distances`, as
`kmeans_org` calls them. -/
def nearestIndex (centroid : Nat → Nat) : Nat → Int :=
  chooseAllClustersFromDistances k (calcAllDistances data centroid)

def nearestScan (centroid : Nat → Nat) (x : Nat) : Option Nat :=
  (scanMin (fun _ => false) (fun j => Nat.dist (centroid j) x) distCap k).1

/-- The cluster `calc_cluster_centroids_org` counts a point in: an index out of
range counts in the last one. -/
def activeCluster (index : Int) : Nat := if index < 0 ∨ k ≤ index then k - 1 else index.toNat

def members (index : Nat → Int) (j : Nat) : List Nat :=
  (List.range n).filter fun ii => activeCluster k (index ii) = j

/-- `calc_cluster_centroids_org`: the floor mean of a cluster's points, `0` for
an empty cluster. -/
def calcClusterCentroidsOrg (index : Nat → Int) (j : Nat) : Nat :=
  let points := (members n k index j).map data
  if points.length = 0 then 0 else points.sum / points.length

def calcTotalDistanceOrg (centroid : Nat → Nat) (index : Nat → Int) : Nat :=
  (List.range n).foldl (fun totD ii =>
    if index ii = -1 then totD
    else
      let diff := wrap64 ((centroid (index ii).toNat : Int) - data ii)
      wrap64 (totD + diff * diff)) 0

def assignmentChangeCount (a b : Nat → Int) : Nat :=
  ((List.range n).filter fun ii => a ii ≠ b ii).length

end Routines

structure KmeansState where
  center : Nat → Nat
  indexCur : Nat → Int
  indexPrev : Nat → Int
  prevTotD : Nat

/-- The `break`s of `kmeans_org` and its loop bound, with the value of
`batch_iteration` at a `break`. -/
inductive KmeansExit where
  | rollback (iteration : Nat)
  | converged (iteration : Nat)
  | limit
  deriving DecidableEq, Repr

section Loop

variable (n k : Nat) (data : Nat → Nat)

/-- The loop of `kmeans_org` with `fuel` rounds left, at `batch_iteration = it`. -/
def kmeansLoop : Nat → Nat → KmeansState → KmeansState × KmeansExit
  | 0, _, st => (st, .limit)
  | fuel + 1, it, st =>
    let center := calcClusterCentroidsOrg n k data st.indexCur
    let totD := calcTotalDistanceOrg n data center st.indexCur
    if st.prevTotD < totD then
      -- the objective went up: back to `index_prev` and its centroids
      ({ st with center := calcClusterCentroidsOrg n k data st.indexPrev, indexCur := st.indexPrev },
        .rollback it)
    else
      let indexCur := nearestIndex k data center
      let next : KmeansState := { center, indexCur, indexPrev := st.indexCur, prevTotD := totD }
      if assignmentChangeCount n indexCur st.indexCur = 0 then (next, .converged it)
      else kmeansLoop fuel (it + 1) next

/-- `kmeans_org(n, k, data, center, index_cur)`: the centers and assignment it
leaves, and the exit it took. -/
def kmeansOrg (center : Nat → Nat) : KmeansState × KmeansExit :=
  let index := nearestIndex k data center
  kmeansLoop n k data maxIterations 0 { center, indexCur := index, indexPrev := index, prevTotD := distCap }

end Loop

/-! ## The routines -/

section Spec

variable {n k : Nat} {data : Nat → Nat}

@[simp] theorem calcAllDistances_eq (centroid : Nat → Nat) (ii jj : Nat) :
    calcAllDistances data centroid ii jj = Nat.dist (centroid jj) (data ii) := by
  unfold calcAllDistances Nat.dist
  split <;> omega

theorem nearestIndex_cases (centroid : Nat → Nat) (p : Nat) :
    (∃ j, nearestScan k centroid (data p) = some j ∧ nearestIndex k data centroid p = j) ∨
      (nearestScan k centroid (data p) = none ∧ nearestIndex k data centroid p = -1) := by
  have row : calcAllDistances data centroid p = fun j => Nat.dist (centroid j) (data p) := by
    funext j
    simp
  rcases scan : nearestScan k centroid (data p) with _ | j
  · right
    refine ⟨rfl, ?_⟩
    simp only [nearestScan] at scan
    simp only [nearestIndex, chooseAllClustersFromDistances, row, scan]
  · left
    refine ⟨j, rfl, ?_⟩
    simp only [nearestScan] at scan
    simp only [nearestIndex, chooseAllClustersFromDistances, row, scan]

theorem nearestIndex_lt (centroid : Nat → Nat) (p : Nat) : nearestIndex k data centroid p < k := by
  rcases nearestIndex_cases centroid p with ⟨j, found, eq⟩ | ⟨-, eq⟩
  · rw [eq]
    exact_mod_cast (scanMin_some found).1
  · rw [eq]
    omega

theorem far_of_unassigned {centroid : Nat → Nat} {p : Nat} (neg : nearestIndex k data centroid p < 0) :
    ∀ j < k, distCap ≤ Nat.dist (centroid j) (data p) := by
  rcases nearestIndex_cases centroid p with ⟨j, -, eq⟩ | ⟨none, -⟩
  · rw [eq] at neg
    omega
  · exact fun j hj => scanMin_none none j hj rfl

/-- Points and centers below `2 ^ 31` are never left unassigned. -/
theorem nearestIndex_assigned {centroid : Nat → Nat} {p : Nat} (hk : 0 < k) (point : data p < 2 ^ 31)
    (centers : ∀ j < k, centroid j < 2 ^ 31) : 0 ≤ nearestIndex k data centroid p := by
  by_contra neg
  have far := far_of_unassigned (Int.lt_of_not_ge neg) 0 hk
  have := centers 0 hk
  simp only [Nat.dist, distCap] at far
  omega

theorem mem_members {index : Nat → Int} {j ii : Nat} :
    ii ∈ members n k index j ↔ ii < n ∧ activeCluster k (index ii) = j := by
  simp [members]

theorem centroid_of_nil {index : Nat → Int} {j : Nat} (empty : members n k index j = []) :
    calcClusterCentroidsOrg n k data index j = 0 := by
  simp [calcClusterCentroidsOrg, empty]

theorem centroid_eq {index : Nat → Int} {j : Nat} (nonempty : members n k index j ≠ []) :
    calcClusterCentroidsOrg n k data index j =
      ((members n k index j).map data).sum / ((members n k index j).map data).length := by
  have : (members n k index j).length ≠ 0 := by simpa using nonempty
  simp [calcClusterCentroidsOrg, this]

theorem centroid_lt {index : Nat → Int} {b : Nat} (pos : 0 < b) (bounded : ∀ p < n, data p < b) (j : Nat) :
    calcClusterCentroidsOrg n k data index j < b := by
  by_cases empty : members n k index j = []
  · rw [centroid_of_nil empty]
    exact pos
  · rw [centroid_eq empty]
    have le : ((members n k index j).map data).sum / ((members n k index j).map data).length ≤ b - 1 :=
      mean_le fun x mem => by
        obtain ⟨p, hp, rfl⟩ := List.mem_map.mp mem
        have := bounded p (mem_members.mp hp).1
        omega
    omega

theorem le_centroid {index : Nat → Int} {j b : Nat} (nonempty : members n k index j ≠ [])
    (below : ∀ p ∈ members n k index j, b ≤ data p) : b ≤ calcClusterCentroidsOrg n k data index j := by
  rw [centroid_eq nonempty]
  exact le_mean (by simpa using nonempty) fun x mem => by
    obtain ⟨p, hp, rfl⟩ := List.mem_map.mp mem
    exact below p hp

theorem centroid_lt_centroid {index : Nat → Int} {a b : Nat} (ha : members n k index a ≠ [])
    (hb : members n k index b ≠ [])
    (sep : ∀ p ∈ members n k index a, ∀ q ∈ members n k index b, data p < data q) :
    calcClusterCentroidsOrg n k data index a < calcClusterCentroidsOrg n k data index b := by
  rw [centroid_eq ha, centroid_eq hb]
  refine mean_lt_mean (by simpa using ha) (by simpa using hb) fun x memx y memy => ?_
  obtain ⟨p, hp, rfl⟩ := List.mem_map.mp memx
  obtain ⟨q, hq, rfl⟩ := List.mem_map.mp memy
  exact sep p hp q hq

theorem nearestIndex_of_nonneg {centroid : Nat → Nat} {p : Nat} (nonneg : 0 ≤ nearestIndex k data centroid p) :
    ∃ j, nearestScan k centroid (data p) = some j ∧ nearestIndex k data centroid p = j := by
  rcases nearestIndex_cases centroid p with found | ⟨-, eq⟩
  · exact found
  · rw [eq] at nonneg
    omega

theorem activeCluster_of_nonneg {a : Int} (nonneg : 0 ≤ a) (lt : a < k) : activeCluster k a = a.toNat := by
  have : ¬ (a < 0 ∨ (k : Int) ≤ a) := by omega
  simp [activeCluster, this]

theorem activeCluster_of_neg {a : Int} (neg : a < 0) : activeCluster k a = k - 1 := by
  simp [activeCluster, neg]

end Spec

/-! ## Unassigned points

A point below `2 ^ 31` is left unassigned only when every center lies at
least `4294967295` above it. Every assigned point then lies above it and goes
to the lowest center, the same for all. -/

section Unassigned

variable {n k : Nat} {data : Nat → Nat} {centroid : Nat → Nat}

theorem above_of_unassigned {r : Nat} (neg : nearestIndex k data centroid r < 0) (point : data r < 2 ^ 31) :
    ∀ j < k, data r + distCap ≤ centroid j := by
  intro j hj
  have far := far_of_unassigned neg j hj
  simp only [Nat.dist, distCap] at far ⊢
  omega

theorem unassigned_lt_assigned {r q : Nat} (neg : nearestIndex k data centroid r < 0)
    (nonneg : 0 ≤ nearestIndex k data centroid q) (point : data r < 2 ^ 31) : data r < data q := by
  obtain ⟨j, found, -⟩ := nearestIndex_of_nonneg nonneg
  obtain ⟨hj, -, near, -⟩ := scanMin_some found
  have above := above_of_unassigned neg point j hj
  simp only [Nat.dist, distCap] at near above
  omega

theorem assigned_eq_of_unassigned {r p q : Nat} (neg : nearestIndex k data centroid r < 0)
    (hp : 0 ≤ nearestIndex k data centroid p) (hq : 0 ≤ nearestIndex k data centroid q)
    (br : data r < 2 ^ 31) (bp : data p < 2 ^ 31) (bq : data q < 2 ^ 31) :
    nearestIndex k data centroid p = nearestIndex k data centroid q := by
  obtain ⟨i, foundp, eqp⟩ := nearestIndex_of_nonneg hp
  obtain ⟨j, foundq, eqq⟩ := nearestIndex_of_nonneg hq
  obtain ⟨hi, -, -, leastp, -⟩ := scanMin_some foundp
  obtain ⟨hj, -, -, leastq, -⟩ := scanMin_some foundq
  have abovei := above_of_unassigned neg br i hi
  have abovej := above_of_unassigned neg br j hj
  have pi := leastp j hj rfl
  have qj := leastq i hi rfl
  -- both points see every center above them, so both pick the lowest one
  have same : centroid i = centroid j := by
    simp only [Nat.dist, distCap] at pi qj abovei abovej
    omega
  rw [eqp, eqq]
  rcases le_total (data p) (data q) with le | le
  · exact congrArg _ ((nearest_mono le foundp foundq).2 same)
  · exact congrArg _ ((nearest_mono le foundq foundp).2 same.symm).symm

end Unassigned

/-! ## What `kmeans_org` returns -/

/-- The assignments and centers `kmeans_org` can leave: the assignment to the
nearest of the centers left, with every point assigned (a fixed point, or the
iteration bound); or, after a rollback, the assignment to the nearest of some
earlier centers with its own centroids. -/
inductive FinalPair (n k : Nat) (data : Nat → Nat) : (Nat → Int) → (Nat → Nat) → Prop
  | nearest {center : Nat → Nat} (assigned : ∀ p < n, 0 ≤ nearestIndex k data center p) :
      FinalPair n k data (nearestIndex k data center) center
  | rollback (earlier : Nat → Nat) :
      FinalPair n k data (nearestIndex k data earlier)
        (calcClusterCentroidsOrg n k data (nearestIndex k data earlier))

/-- How a final assignment sits on the line, as the ranking of the centers
needs it: of two points, the larger is in the same cluster or in one whose
center comes later; and while a point is left unassigned, every other cluster
comes before the cluster of a larger assigned point. -/
def Ordered (n k : Nat) (data : Nat → Nat) (index : Nat → Int) (center : Nat → Nat) : Prop :=
  ∀ p < n, ∀ q < n, data p < data q → 0 ≤ index q →
    (0 ≤ index p → index p = index q ∨ Before center (index p).toNat (index q).toNat) ∧
    (index p < 0 → ∀ j < k, j ≠ (index q).toNat → Before center j (index q).toNat)

section Final

variable {n k : Nat} {data : Nat → Nat}

theorem kmeansLoop_final (hk : 0 < k) (bounded : ∀ p < n, data p < 2 ^ 31) (fuel : Nat) :
    ∀ (it : Nat) (st : KmeansState), st.indexCur = nearestIndex k data st.center →
      (∃ earlier, st.indexPrev = nearestIndex k data earlier) →
      (fuel = 0 → ∀ j < k, st.center j < 2 ^ 31) →
      FinalPair n k data (kmeansLoop n k data fuel it st).1.indexCur (kmeansLoop n k data fuel it st).1.center := by
  -- the rounds left carry the induction: each round recomputes the centers as centroids
  have centroids : ∀ index j, calcClusterCentroidsOrg n k data index j < 2 ^ 31 :=
    fun _ j => centroid_lt (Nat.two_pow_pos 31) bounded j
  induction fuel with
  | zero =>
    intro it st cur _ started
    simp only [kmeansLoop]
    rw [cur]
    exact .nearest fun p hp => nearestIndex_assigned hk (bounded p hp) (started rfl)
  | succ fuel ih =>
    intro it st cur prev _
    obtain ⟨earlier, prev⟩ := prev
    simp only [kmeansLoop]
    split
    · rw [prev]
      exact .rollback earlier
    · split
      · exact .nearest fun p hp => nearestIndex_assigned hk (bounded p hp) fun j _ => centroids _ j
      · exact ih (it + 1) _ rfl ⟨st.center, cur⟩ fun _ j _ => centroids _ j

theorem kmeansOrg_final (hk : 0 < k) (bounded : ∀ p < n, data p < 2 ^ 31) (center : Nat → Nat) :
    FinalPair n k data (kmeansOrg n k data center).1.indexCur (kmeansOrg n k data center).1.center :=
  kmeansLoop_final hk bounded maxIterations 0 _ rfl ⟨center, rfl⟩ (by simp [maxIterations])

theorem nearest_ordered {center : Nat → Nat} (assigned : ∀ p < n, 0 ≤ nearestIndex k data center p) :
    Ordered n k data (nearestIndex k data center) center := by
  intro p hp q hq lt hq'
  obtain ⟨j, foundq, eqq⟩ := nearestIndex_of_nonneg hq'
  refine ⟨fun hp' => ?_, fun neg => absurd (assigned p hp) (Int.not_le.mpr neg)⟩
  obtain ⟨i, foundp, eqp⟩ := nearestIndex_of_nonneg hp'
  obtain ⟨le, same⟩ := nearest_mono lt.le foundp foundq
  rw [eqp, eqq]
  by_cases tie : center i = center j
  · exact .inl (congrArg _ (same tie))
  · exact .inr (.inl (by simp only [Int.toNat_natCast]; omega))

/-- After a rollback, two assigned points in different clusters: no point is
left unassigned, so each cluster holds exactly the points assigned to it, and
the clusters of the earlier centers lie one below the other on the line. -/
theorem rollback_ordered_assigned {earlier : Nat → Nat} (bounded : ∀ p < n, data p < 2 ^ 31)
    {p q : Nat} (hp : p < n) (hq : q < n) (lt : data p < data q)
    (hp' : 0 ≤ nearestIndex k data earlier p) (hq' : 0 ≤ nearestIndex k data earlier q) :
    nearestIndex k data earlier p = nearestIndex k data earlier q ∨
      Before (calcClusterCentroidsOrg n k data (nearestIndex k data earlier))
        (nearestIndex k data earlier p).toNat (nearestIndex k data earlier q).toNat := by
  obtain ⟨i, foundp, eqp⟩ := nearestIndex_of_nonneg hp'
  obtain ⟨j, foundq, eqq⟩ := nearestIndex_of_nonneg hq'
  obtain ⟨le, same⟩ := nearest_mono lt.le foundp foundq
  by_cases tie : earlier i = earlier j
  · exact .inl (by rw [eqp, eqq, same tie])
  right
  rw [eqp, eqq, Int.toNat_natCast, Int.toNat_natCast]
  have differ : nearestIndex k data earlier p ≠ nearestIndex k data earlier q := by
    rw [eqp, eqq]
    intro h
    exact tie (by rw [Int.ofNat_inj.mp h])
  have assigned : ∀ r < n, 0 ≤ nearestIndex k data earlier r := fun r hr => by
    by_contra neg
    exact differ (assigned_eq_of_unassigned (Int.lt_of_not_ge neg) hp' hq' (bounded r hr) (bounded p hp) (bounded q hq))
  -- a point of cluster `i` and a point of cluster `j` are assigned to `i` and to `j`
  have inCluster : ∀ {c r c'}, nearestScan k earlier (data r) = some c →
      r ∈ members n k (nearestIndex k data earlier) c' → c = c' := by
    intro c r c' foundr mem
    obtain ⟨hr, active⟩ := mem_members.mp mem
    obtain ⟨c'', found'', eq''⟩ := nearestIndex_of_nonneg (assigned r hr)
    rw [foundr] at found''
    cases found''
    rw [activeCluster_of_nonneg (assigned r hr) (nearestIndex_lt earlier r), eq''] at active
    simpa using active
  refine .inl (centroid_lt_centroid ?_ ?_ fun r memr s mems => ?_)
  · exact List.ne_nil_of_mem (mem_members.mpr ⟨hp, by rw [activeCluster_of_nonneg hp' (nearestIndex_lt earlier p), eqp]; rfl⟩)
  · exact List.ne_nil_of_mem (mem_members.mpr ⟨hq, by rw [activeCluster_of_nonneg hq' (nearestIndex_lt earlier q), eqq]; rfl⟩)
  · obtain ⟨hr, -⟩ := mem_members.mp memr
    obtain ⟨hs, -⟩ := mem_members.mp mems
    obtain ⟨i', foundr, -⟩ := nearestIndex_of_nonneg (assigned r hr)
    obtain ⟨j', founds, -⟩ := nearestIndex_of_nonneg (assigned s hs)
    obtain rfl := inCluster foundr memr
    obtain rfl := inCluster founds mems
    by_contra ge
    have back := (nearest_mono (Nat.le_of_not_lt ge) founds foundr).1
    omega

/-- After a rollback that left a point unassigned: all assigned points share
one cluster and lie above the unassigned ones, which the centroids count in the
last cluster; every other cluster is empty. -/
theorem rollback_ordered_unassigned {earlier : Nat → Nat} (bounded : ∀ p < n, data p < 2 ^ 31)
    {p q : Nat} (hp : p < n) (hq : q < n) (neg : nearestIndex k data earlier p < 0)
    (hq' : 0 ≤ nearestIndex k data earlier q) :
    ∀ j < k, j ≠ (nearestIndex k data earlier q).toNat →
      Before (calcClusterCentroidsOrg n k data (nearestIndex k data earlier)) j
        (nearestIndex k data earlier q).toNat := by
  intro j hj other
  set index := nearestIndex k data earlier with hindex
  set b := (index q).toNat with hb
  have lt : index q < k := nearestIndex_lt earlier q
  have eqb : index q = b := (Int.toNat_of_nonneg hq').symm
  -- every point is unassigned or in the cluster of `q`
  have active : ∀ r < n, activeCluster k (index r) = if index r < 0 then k - 1 else b := by
    intro r hr
    by_cases nr : index r < 0
    · rw [if_pos nr, activeCluster_of_neg nr]
    · have nonneg : 0 ≤ index r := Int.not_lt.mp nr
      have same : index r = index q :=
        assigned_eq_of_unassigned neg nonneg hq' (bounded p hp) (bounded r hr) (bounded q hq)
      have rk : index r < k := nearestIndex_lt earlier r
      rw [if_neg nr, activeCluster_of_nonneg nonneg rk, same]
  have assignedIn : ∀ {c s}, c ≠ k - 1 → s ∈ members n k index c → 0 ≤ index s := by
    intro c s notLast mems
    obtain ⟨hs, as⟩ := mem_members.mp mems
    by_contra h
    rw [active s hs, if_pos (Int.lt_of_not_ge h)] at as
    exact notLast as.symm
  have qmem : q ∈ members n k index b := mem_members.mpr ⟨hq, by rw [active q hq, if_neg (by omega)]⟩
  by_cases last : j = k - 1
  · -- cluster `j` holds the unassigned points, all below those of `b`
    have pmem : p ∈ members n k index j := mem_members.mpr ⟨hp, by rw [active p hp, if_pos neg, last]⟩
    refine .inl (centroid_lt_centroid (List.ne_nil_of_mem pmem) (List.ne_nil_of_mem qmem) fun r memr s mems => ?_)
    obtain ⟨hr, ar⟩ := mem_members.mp memr
    have nr : index r < 0 := by
      by_contra h
      rw [active r hr, if_neg h] at ar
      exact other ar.symm
    exact unassigned_lt_assigned nr (assignedIn (fun h => other (by omega)) mems) (bounded r hr)
  · have empty : members n k index j = [] := by
      refine List.eq_nil_iff_forall_not_mem.mpr fun r memr => ?_
      obtain ⟨hr, ar⟩ := mem_members.mp memr
      rw [active r hr] at ar
      split at ar
      · exact last ar.symm
      · exact other ar.symm
    rw [Before, centroid_of_nil empty]
    by_cases blast : b = k - 1
    · -- an empty cluster at `0` comes before the last cluster by its index
      rcases Nat.eq_zero_or_pos (calcClusterCentroidsOrg n k data index b) with zero | pos
      · exact .inr ⟨zero.symm, by omega⟩
      · exact .inl pos
    · -- cluster `b` holds assigned points only, all above `p`
      have above : 1 ≤ calcClusterCentroidsOrg n k data index b :=
        le_centroid (List.ne_nil_of_mem qmem) fun s mems => by
          have := unassigned_lt_assigned neg (assignedIn blast mems) (bounded p hp)
          omega
      exact .inl (by omega)

theorem FinalPair.ordered {index : Nat → Int} {center : Nat → Nat} (final : FinalPair n k data index center)
    (bounded : ∀ p < n, data p < 2 ^ 31) : Ordered n k data index center := by
  cases final with
  | nearest assigned => exact nearest_ordered assigned
  | rollback earlier =>
    intro p hp q hq lt hq'
    exact ⟨fun hp' => rollback_ordered_assigned bounded hp hq lt hp' hq',
      fun neg => rollback_ordered_unassigned bounded hp hq neg hq'⟩

theorem FinalPair.lt {index : Nat → Int} {center : Nat → Nat} (final : FinalPair n k data index center)
    (p : Nat) : index p < k := by
  cases final with
  | nearest => exact nearestIndex_lt _ p
  | rollback earlier => exact nearestIndex_lt earlier p

/-- Every round recomputes the centers as centroids, so the centers
`kmeans_org` leaves lie below `2 ^ 31` whatever it started from. -/
theorem kmeansLoop_center_lt (bounded : ∀ p < n, data p < 2 ^ 31) (fuel : Nat) :
    ∀ (it : Nat) (st : KmeansState), (fuel = 0 → ∀ j, st.center j < 2 ^ 31) →
      ∀ j, (kmeansLoop n k data fuel it st).1.center j < 2 ^ 31 := by
  have centroids : ∀ index j, calcClusterCentroidsOrg n k data index j < 2 ^ 31 :=
    fun _ j => centroid_lt (Nat.two_pow_pos 31) bounded j
  induction fuel with
  | zero => exact fun _ _ start => start rfl
  | succ fuel ih =>
    intro it st _
    simp only [kmeansLoop]
    split
    · exact centroids _
    · split
      · exact centroids _
      · exact ih (it + 1) _ fun _ => centroids _

theorem kmeansOrg_center_lt (bounded : ∀ p < n, data p < 2 ^ 31) (center : Nat → Nat) (j : Nat) :
    (kmeansOrg n k data center).1.center j < 2 ^ 31 :=
  kmeansLoop_center_lt bounded maxIterations 0 _ (by simp [maxIterations]) j

end Final

/-! ## The first comparison -/

/-- On its first iteration `kmeans_org` compares the objective with the
sentinel `4294967295` it starts from, not with an earlier total: whenever the
centroids of the initial assignment leave a total squared distance above it,
the loop rolls back at once, before any Lloyd step, to the initial
assignment. -/
theorem kmeans_org_rolls_back_first (n k : Nat) (data center : Nat → Nat)
    (large : distCap < calcTotalDistanceOrg n data
      (calcClusterCentroidsOrg n k data (nearestIndex k data center)) (nearestIndex k data center)) :
    kmeansOrg n k data center =
      ({ center := calcClusterCentroidsOrg n k data (nearestIndex k data center),
         indexCur := nearestIndex k data center, indexPrev := nearestIndex k data center,
         prevTotD := distCap }, .rollback 0) := by
  simp only [kmeansOrg, maxIterations, kmeansLoop, if_pos large]

/-- Two points `0` and `2 ^ 17`, far below `2 ^ 31`. -/
def spreadData (i : Nat) : Nat := if i = 1 then 2 ^ 17 else 0

/-- One cluster from center `0`: its centroid `2 ^ 16` leaves a total of
`2 ^ 33`, above the sentinel, and `kmeans_org` rolls back on its first
iteration. -/
theorem kmeans_org_rolls_back_first_spread :
    distCap < calcTotalDistanceOrg 2 spreadData
        (calcClusterCentroidsOrg 2 1 spreadData (nearestIndex 1 spreadData fun _ => 0))
        (nearestIndex 1 spreadData fun _ => 0) ∧
      (kmeansOrg 2 1 spreadData fun _ => 0).2 = .rollback 0 := by
  have large : distCap < calcTotalDistanceOrg 2 spreadData
      (calcClusterCentroidsOrg 2 1 spreadData (nearestIndex 1 spreadData fun _ => 0))
      (nearestIndex 1 spreadData fun _ => 0) := by decide
  exact ⟨large, by rw [kmeans_org_rolls_back_first 2 1 spreadData _ large]⟩

end MStream.F2fs
