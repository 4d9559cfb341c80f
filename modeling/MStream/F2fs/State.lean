import MStream.F2fs.Kmeans

/-!
What the file-group clustering of `F2FS_FGROUP` keeps in `struct f2fs_sb_info`
(f2fs.h, super.c), and the routines that read it outside the clustering pass:
the file-group tree, the last pass's centers and per-cluster maxima, and the
history of passes that `kmeans_cluster_minmax` writes and
`f2fs_issue_expect_lifetime`, `find_kmeans_num` and `get_cb_cost` read.

`sbi->kmeans_history` is `vmalloc`'ed with `MAX_HISTORY` records and never
initialised: a record is `none` until a pass writes it, and reading it then, or
reading past `MAX_HISTORY`, is a `wild` read. The entries of a record beyond
the clusters a pass fills are never read and are kept as `0`.

`update_new_ema` is not modelled: an entry's `ema` is what it returns for the
group at the pass, in blocks, and `0` for a group the pass leaves out.
-/

namespace MStream.F2fs

open Machine Nearest

/-- `NR_CLUSTER` -/
def nrCluster : Nat := 4

/-- `MAX_HISTORY` -/
def maxHistory : Nat := 2048

/-- `CLUSTER_T`, the user blocks between two passes -/
def clusterT : Nat := 256 * 512 * 8

/-- `VALID_FGROUP_RATE`, the percentage of groups `sort_and_cut_data` keeps -/
def validFgroupRate : Nat := 95

/-- `STREAM_LIFE_RANGE` -/
def streamLifeRange : Nat := 90

/-- The fields of `struct fgroup_entry` the clustering reads and writes. -/
structure FgroupEntry where
  fgroup : Nat
  cluster : Nat
  ema : Nat
  valid : Int
  count : Nat
  deriving DecidableEq, Repr

/-- `sbi->fgroup_tree`, an rbtree keyed by `fgroup`, as its entries in key
order (`rb_first`, `rb_next`). -/
structure FgroupTree where
  entries : List FgroupEntry
  ordered : entries.Pairwise fun a b => a.fgroup < b.fgroup

namespace FgroupTree

def lookupFgroupEntry (t : FgroupTree) (fgroup : Nat) : Option FgroupEntry :=
  t.entries.find? fun e => e.fgroup = fgroup

/-- `update_cluster`: the entry of `fgroup`, if there is one, takes `cluster`. -/
def updateCluster (t : FgroupTree) (fgroup cluster : Nat) : FgroupTree where
  entries := t.entries.map fun e => if e.fgroup = fgroup then { e with cluster } else e
  ordered := List.pairwise_map.mpr (t.ordered.imp fun {a b} lt => by
    split_ifs <;> exact lt)

@[simp] theorem updateCluster_entries (t : FgroupTree) (fgroup cluster : Nat) :
    (t.updateCluster fgroup cluster).entries =
      t.entries.map fun e => if e.fgroup = fgroup then { e with cluster } else e := rfl

theorem lookup_of_mem {t : FgroupTree} {e : FgroupEntry} (mem : e ∈ t.entries) :
    ∃ e', t.lookupFgroupEntry e.fgroup = some e' :=
  Option.isSome_iff_exists.mp (List.find?_isSome.mpr ⟨e, mem, by simp⟩)

theorem eq_of_fgroup_eq {t : FgroupTree} {a b : FgroupEntry} (ha : a ∈ t.entries) (hb : b ∈ t.entries)
    (same : a.fgroup = b.fgroup) : a = b := by
  have nodup : (t.entries.map FgroupEntry.fgroup).Nodup :=
    List.pairwise_map.mpr (t.ordered.imp fun lt => Nat.ne_of_lt lt)
  exact List.inj_on_of_nodup_map nodup ha hb same

end FgroupTree

/-- `struct kmeans_history`: per-cluster quartiles of a pass and its position
`seq`, in 512-block units, all `unsigned int`. -/
structure KmeansHistory where
  q1 : Nat → Nat
  q3 : Nat → Nat
  seq : Nat

/-- `struct history_info`, what a `REQ_OP_CLUSTERLIFE` bio carries. -/
structure HistoryInfo where
  min : Int
  max : Int
  cluster : Nat
  deriving DecidableEq, Repr

/-- The fields of `struct f2fs_sb_info` the clustering reads and writes, with
the bios it submits and, as a record of the pass's memory safety, the indices
it stored to past the end of its `cluster_arr` allocation. -/
structure SbInfo where
  fgroupTree : FgroupTree
  /-- `user_data_blocks(sbi)` -/
  userDataBlocks : Nat
  lastCluster : Nat
  kmeansCount : Nat
  kmeansMax : Nat → Nat
  kmeansCenter : Nat → Nat
  kmeansHistory : Nat → Option KmeansHistory
  issued : List HistoryInfo
  strays : List Nat

/-- The clustering state `init_sb_info` leaves over a file-group tree. -/
def initSbInfo (tree : FgroupTree) (userDataBlocks : Nat) : SbInfo where
  fgroupTree := tree
  userDataBlocks := userDataBlocks
  lastCluster := 0
  kmeansCount := 0
  kmeansMax := fun _ => 0
  kmeansCenter := fun _ => 0
  kmeansHistory := fun _ => none
  issued := []
  strays := []

section History

variable (sbi : SbInfo)

def readHistory (i : Nat) : Except Fault KmeansHistory :=
  if maxHistory ≤ i then throw .wild
  else match sbi.kmeansHistory i with
    | some record => pure record
    | none => throw .wild

/-- The per-cluster walk of `kmeans_cluster_minmax` over the points in
sorted order: how much weight of each cluster it has passed, how far each
cluster's quartiles are found, and the quartiles. -/
structure MinmaxWalk where
  weightPointer : Nat → Int
  steps : Nat → Nat
  q1 : Nat → Nat
  q3 : Nat → Nat

/-- One point of the walk: its cluster's first quartile is the point at which
the cluster's passed weight first exceeds `minbound`, the third where it first
exceeds `maxbound`. -/
def minmaxStep (data : Nat → Nat) (weight : Nat → Int) (cluster : Nat → Int) (k : Nat)
    (minbound maxbound : Nat → Int) (w : MinmaxWalk) (index : Nat) : Except Fault MinmaxWalk := do
  let c := cluster index
  -- the second loop reads its per-cluster arrays unclamped
  if c < 0 ∨ k ≤ c then throw .wild
  let c := c.toNat
  let pointer := w.weightPointer c + weight index
  let w := { w with weightPointer := Function.update w.weightPointer c pointer }
  let w := if w.steps c = 0 ∧ minbound c < pointer then
      { w with q1 := Function.update w.q1 c (wrap32 (data index)), steps := Function.update w.steps c 1 }
    else w
  pure (if w.steps c = 1 ∧ maxbound c < pointer then
      { w with q3 := Function.update w.q3 c (wrap32 (data index)), steps := Function.update w.steps c 2 }
    else w)

/-- The closing loop of `kmeans_cluster_minmax` for cluster `i`: a cluster
whose quartiles were not both found takes the bounds of the per-cluster
maxima. -/
def minmaxClose (w : MinmaxWalk) (i : Nat) : MinmaxWalk :=
  let w := if w.steps i = 0 then
      { w with
        q1 := Function.update w.q1 i (if 0 < i then wrap32 (sbi.kmeansMax (i - 1)) else 0)
        steps := Function.update w.steps i 1 }
    else w
  if w.steps i = 1 then { w with q3 := Function.update w.q3 i (wrap32 (sbi.kmeansMax i)) } else w

/-- `kmeans_cluster_minmax(sbi, data, weight, cluster, n, k)`: the record of
pass `kmeans_count`, unless the history is full. -/
def kmeansClusterMinmax (data : Nat → Nat) (weight : Nat → Int) (cluster : Nat → Int) (n k : Nat) :
    Except Fault SbInfo := do
  let kmeansCount := sbi.kmeansCount
  if maxHistory ≤ kmeansCount then return sbi
  let curSeq := sbi.userDataBlocks / 512
  -- the first loop counts a cluster number beyond `k` in the last cluster
  let clamp (c : Int) : Int := if k ≤ c then k - 1 else c
  let weightSum (i : Nat) : Int :=
    (((List.range n).filter fun p => clamp (cluster p) = i).map weight).sum
  if ∃ p ∈ List.range n, clamp (cluster p) < 0 then throw .wild
  let minbound (i : Nat) : Int := (weightSum i * (50 - (streamLifeRange : Int) / 2)).tdiv 100
  let maxbound (i : Nat) : Int := weightSum i - minbound i
  let order := selectOrder data distCap n n []
  if order.length < n then throw .bug
  let w ← order.foldlM (minmaxStep data weight cluster k minbound maxbound)
    { weightPointer := fun _ => 0, steps := fun _ => 0, q1 := fun _ => 0, q3 := fun _ => 0 }
  -- the first cluster always spans from `0` to its maximum
  let w := { w with
    q1 := Function.update w.q1 0 0
    q3 := Function.update w.q3 0 (wrap32 (sbi.kmeansMax 0))
    steps := Function.update w.steps 0 2 }
  let w := (List.range k).foldl (minmaxClose sbi) w
  let record : KmeansHistory := { q1 := w.q1, q3 := w.q3, seq := wrap32 curSeq }
  pure { sbi with kmeansHistory := Function.update sbi.kmeansHistory kmeansCount (some record) }

/-- `f2fs_issue_expect_lifetime(sbi, cluster)`: the bounds of `cluster` in
record `kmeans_count` go to the device. -/
def f2fsIssueExpectLifetime (cluster : Nat) : Except Fault SbInfo := do
  let record ← readHistory sbi sbi.kmeansCount
  let info : HistoryInfo := { min := toInt32 (record.q1 cluster), max := toInt32 (record.q3 cluster), cluster }
  pure { sbi with issued := sbi.issued ++ [info] }

/-- The loop of `find_kmeans_num` from record `i`, with `fuel` records left
below `kmeans_count`: the first record past `seq`. -/
def findKmeansNumLoop (seq : Nat) : Nat → Nat → Except Fault Nat
  | 0, i => pure i
  | fuel + 1, i => do
    let record ← readHistory sbi i
    if seq < record.seq then pure i else findKmeansNumLoop seq fuel (i + 1)

def findKmeansNum (seq : Nat) : Except Fault Nat := do
  let i ← findKmeansNumLoop sbi seq sbi.kmeansCount 0
  pure (if 0 < i then i - 1 else i)

/-- The record of the clustering history `get_cb_cost` reads for a segment
last modified at `mtime` (512-block units) under `STREAM_GC_STATIC`: the one
`find_kmeans_num` picks, whatever the segment's type. The rest of the cost is
not modelled. -/
def getCbCostHistory (mtime : Nat) : Except Fault KmeansHistory := do
  let num ← findKmeansNum sbi (wrap32 mtime)
  readHistory sbi num

/-- `f2fs_lifetime_to_cluster(sbi, lifetime)`: the first cluster whose maximum
lies above the lifetime, in blocks; `NR_CLUSTER - 2` past all of them. -/
def f2fsLifetimeToCluster (lifetime : Nat) : Nat :=
  if sbi.kmeansMax 0 = 0 then 0
  else match (List.range (nrCluster - 1)).find? fun i => lifetime < wrap64 (sbi.kmeansMax i * 512) with
    | some i => i
    | none => nrCluster - 2

/-- The threshold of a cluster `c` below `NR_CLUSTER - 2` is strict: a
lifetime at or past `512` times its maximum is never classified into it. -/
theorem f2fsLifetimeToCluster_ne {lifetime c : Nat} (hot : c < nrCluster - 2)
    (above : sbi.kmeansMax c ≤ lifetime / 512) (first : c = 0 → sbi.kmeansMax 0 ≠ 0) :
    f2fsLifetimeToCluster sbi lifetime ≠ c := by
  unfold f2fsLifetimeToCluster
  split
  · rename_i zero
    exact fun eq => first eq.symm (eq ▸ zero)
  · split
    · rename_i i found
      rintro rfl
      have below := List.find?_some found
      simp only [decide_eq_true_eq] at below
      have wrapped := wrap64_le (sbi.kmeansMax i * 512)
      push_cast at wrapped
      have floor := Nat.div_mul_le_self lifetime 512
      have scaled := Nat.mul_le_mul_right 512 above
      omega
    · unfold nrCluster at hot ⊢
      omega

/-! ### Past the end of the history -/

theorem readHistory_unwritten {i : Nat} (unwritten : maxHistory ≤ i ∨ sbi.kmeansHistory i = none) :
    readHistory sbi i = .error .wild := by
  unfold readHistory
  rcases unwritten with past | none
  · simp [past]
  · split
    · rfl
    · simp [none]

theorem kmeansClusterMinmax_full {data : Nat → Nat} {weight : Nat → Int} {cluster : Nat → Int} {n k : Nat}
    (full : maxHistory ≤ sbi.kmeansCount) : kmeansClusterMinmax sbi data weight cluster n k = .ok sbi := by
  simp [kmeansClusterMinmax, full]

theorem issueExpectLifetimes_full {k : Nat} (full : maxHistory ≤ sbi.kmeansCount) :
    (List.range (k + 1)).foldlM f2fsIssueExpectLifetime sbi = .error .wild := by
  rw [List.range_succ_eq_map, List.foldlM_cons]
  simp [f2fsIssueExpectLifetime, readHistory_unwritten sbi (.inl full)]

theorem getCbCostHistory_unwritten (first : sbi.kmeansCount = 0) (unwritten : sbi.kmeansHistory 0 = none)
    (mtime : Nat) : getCbCostHistory sbi mtime = .error .wild := by
  simp [getCbCostHistory, findKmeansNum, first, findKmeansNumLoop, readHistory_unwritten sbi (.inr unwritten)]

/-! ### What the history routines leave alone -/

theorem kmeansClusterMinmax_frame {data : Nat → Nat} {weight : Nat → Int} {cluster : Nat → Int}
    {n k : Nat} {sbi' : SbInfo} (run : kmeansClusterMinmax sbi data weight cluster n k = .ok sbi') :
    ∃ history, sbi' = { sbi with kmeansHistory := history } := by
  dsimp only [kmeansClusterMinmax] at run
  split at run
  · exact ⟨sbi.kmeansHistory, (pure_eq_ok.mp run).symm⟩
  -- past the two faults, the pass writes one record
  split at run
  · simp at run
  split at run
  · simp at run
  obtain ⟨_, -, done⟩ := bind_eq_ok.mp run
  exact ⟨_, (pure_eq_ok.mp done).symm⟩

theorem f2fsIssueExpectLifetime_frame {cluster : Nat} {sbi' : SbInfo}
    (run : f2fsIssueExpectLifetime sbi cluster = .ok sbi') : ∃ issued, sbi' = { sbi with issued } := by
  obtain ⟨_, -, done⟩ := bind_eq_ok.mp run
  exact ⟨_, (pure_eq_ok.mp done).symm⟩

theorem issueExpectLifetimes_frame {m : Nat} {sbi' : SbInfo}
    (run : (List.range m).foldlM f2fsIssueExpectLifetime sbi = .ok sbi') :
    ∃ issued, sbi' = { sbi with issued } := by
  refine @foldlM_range_inv _ _ _ (fun _ s => ∃ issued, s = { sbi with issued }) _ _ _ ⟨sbi.issued, rfl⟩ ?_ run
  rintro j - s s' ⟨issued, rfl⟩ step
  obtain ⟨issued', rfl⟩ := f2fsIssueExpectLifetime_frame _ step
  exact ⟨issued', rfl⟩

end History

end MStream.F2fs
