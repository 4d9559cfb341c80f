import MStream.F2fs.Cluster

/-!
What a clustering pass of `f2fs_update_cluster` leaves for the groups it
classifies, and what the readers of its results see.

A pass that runs its clustering sorts the considered groups by lifetime and
labels each sorted position; `PassLabels` says how those labels sit on the
tree it leaves and in `kmeans_max`, and every result below is read off it.
-/

namespace MStream.F2fs

open Machine Nearest

/-- The groups a pass considered, as it leaves them: each sits at a sorted
position `p < prevFgroup` with lifetime `data p` and cluster `cluster p`;
lifetimes grow along the positions, clusters grow with lifetimes, and
`kmeans_max` holds the largest lifetime of each cluster. -/
structure PassLabels (sbi' : SbInfo) (prevFgroup : Nat) (data : Nat → Nat) (cluster : Nat → Int) : Prop where
  ofEntry : ∀ e ∈ sbi'.fgroupTree.entries, e.ema ≠ 0 →
    ∃ p < prevFgroup, e.ema / 512 = data p ∧ e.cluster = wrap32 (cluster p)
  ofPosition : ∀ p < prevFgroup, ∃ e ∈ sbi'.fgroupTree.entries,
    e.ema ≠ 0 ∧ e.ema / 512 = data p ∧ e.cluster = wrap32 (cluster p)
  sorted : ∀ p < prevFgroup, ∀ q < prevFgroup, p ≤ q → data p ≤ data q
  range : ∀ p, 0 ≤ cluster p ∧ cluster p ≤ nrCluster - 2
  mono : ∀ p < prevFgroup, ∀ q < prevFgroup, data p < data q → cluster p ≤ cluster q
  maxAbove : ∀ p < prevFgroup, data p ≤ sbi'.kmeansMax (cluster p).toNat
  maxOf : ∀ c < nrCluster - 1,
    sbi'.kmeansMax c = 0 ∨ ∃ p < prevFgroup, (cluster p).toNat = c ∧ sbi'.kmeansMax c = data p

/-- A pass that ran its clustering over lifetimes below `2 ^ 31` and returned
labels the groups it considered. -/
theorem f2fsUpdateCluster_labels {sbi sbi' : SbInfo} (due : sbi.lastCluster ≤ sbi.userDataBlocks)
    (enough : nrCluster - 1 < (consideredEntries sbi.fgroupTree).length)
    (bounded : ∀ e ∈ sbi.fgroupTree.entries, e.ema / 512 < 2 ^ 31)
    (run : f2fsUpdateCluster sbi = .ok sbi') :
    ∃ data cluster, PassLabels sbi' (consideredEntries sbi.fgroupTree).length data cluster := by
  obtain ⟨nr, a, center, s, sorting, -, assign, tree, -, maxes, -⟩ := f2fsUpdateCluster_inv due enough run
  rw [sortAndCutData_considered bounded] at sorting
  obtain ⟨rfl, rfl⟩ := Prod.mk.inj (Except.ok.inj sorting)
  set t := sbi.fgroupTree
  set final := (kmeansOrg (cutCount t) (nrCluster - 1) (sortedArrays t).data center).1
  have full := sortedOrder_full bounded
  obtain ⟨s', assign', inv⟩ := assignClusters_considered bounded center
  obtain rfl : s = s' := Except.ok.inj (assign.symm.trans assign')
  have entries : sbi'.fgroupTree.entries =
      t.entries.map (assignedEntry (fun j => wrap32 (finalCluster t final j)) (sortedArrays t).fgroup
        (consideredEntries t).length) := by
    rw [tree, inv.tree]
  have range : ∀ p, 0 ≤ finalCluster t final p ∧ finalCluster t final p ≤ nrCluster - 2 :=
    finalCluster_range bounded center
  refine ⟨(sortedArrays t).data, finalCluster t final,
    ⟨?ofEntry, ?ofPosition, ?sorted, range, ?mono, ?maxAbove, ?maxOf⟩⟩
  case ofEntry =>
    intro e mem ema
    rw [entries] at mem
    obtain ⟨e0, mem0, rfl⟩ := List.mem_map.mp mem
    have considered : e0 ∈ consideredEntries t := mem_considered.mpr ⟨mem0, by simpa using ema⟩
    obtain ⟨i, hi, rfl⟩ := List.getElem_of_mem considered
    obtain ⟨p, hp, pos⟩ := exists_position_of_full full hi
    rw [assignedEntry_of_position full _ hp hi pos]
    refine ⟨p, hp, ?_, rfl⟩
    simp only [sortedArrays, Arrays.permute]
    rw [pos, entryArrays_data hi]
  case ofPosition =>
    intro p hp
    have hi := getD_lt_of_full full hp
    have mem0 := mem_considered.mp (List.getElem_mem hi)
    refine ⟨{ (consideredEntries t)[(sortedOrder t).getD p 0] with
      cluster := wrap32 (finalCluster t final p) }, ?_, mem0.2, ?_, rfl⟩
    · rw [entries]
      exact List.mem_map.mpr ⟨_, mem0.1, assignedEntry_of_position full _ hp hi rfl⟩
    · simp only [sortedArrays, Arrays.permute]
      rw [entryArrays_data hi]
  case sorted =>
    intro p _ q hq pq
    exact sortedArrays_sorted bounded pq hq
  case mono =>
    intro p hp q hq lt
    exact clusterOf_mono (finalPair_considered bounded center)
      (fun _ hp => sortedArrays_data_lt bounded (by have := @cutCount_le t; omega))
      (fun j _ => finalCenter_lt bounded center j) (fun _ _ _ hq pq => sortedArrays_sorted bounded pq hq) hp hq lt
  case maxAbove =>
    intro p hp
    have four : nrCluster = 4 := rfl
    rw [maxes _ (by have := range p; omega)]
    exact inv.maxAbove p hp
  case maxOf =>
    intro c hc
    rw [maxes c hc]
    exact inv.maxOf c

theorem PassLabels.cluster_eq {sbi' : SbInfo} {prev : Nat} {data : Nat → Nat} {cluster : Nat → Int}
    (labels : PassLabels sbi' prev data cluster) (p : Nat) : wrap32 (cluster p) = (cluster p).toNat := by
  have four : nrCluster = 4 := rfl
  have range := labels.range p
  exact wrap32_of_lt range.1 (by omega)

/-! ## A pass over five groups -/

/-- Five groups of one file each, with lifetimes of 10, 20, 300, 310 and 900
units of 512 blocks, before the first pass. -/
def fiveGroups : SbInfo :=
  initSbInfo ⟨[⟨1, 0, 512 * 10, 1, 1⟩, ⟨2, 0, 512 * 20, 1, 1⟩, ⟨3, 0, 512 * 300, 1, 1⟩,
    ⟨4, 0, 512 * 310, 1, 1⟩, ⟨5, 0, 512 * 900, 1, 1⟩], by decide⟩ 0

def fivePass : SbInfo := (f2fsUpdateCluster fiveGroups).toOption.getD fiveGroups

theorem fiveGroups_run : f2fsUpdateCluster fiveGroups = .ok fivePass :=
  eq_ok_of_toBool fiveGroups (by decide +kernel)

/-! ## The classification -/

/-- Whenever a pass runs its clustering over lifetimes below `2 ^ 31` and
returns, every group it considered is in a cluster of `[0, NR_CLUSTER - 2]`,
and a group never lives shorter than one in a colder cluster: whichever exit
`kmeans_org` took and wherever its initial centers came from. -/
theorem update_cluster_monotone {sbi sbi' : SbInfo} (due : sbi.lastCluster ≤ sbi.userDataBlocks)
    (enough : nrCluster - 1 < (consideredEntries sbi.fgroupTree).length)
    (bounded : ∀ e ∈ sbi.fgroupTree.entries, e.ema / 512 < 2 ^ 31)
    (run : f2fsUpdateCluster sbi = .ok sbi') :
    ∀ a ∈ sbi'.fgroupTree.entries, a.ema ≠ 0 →
      a.cluster ≤ nrCluster - 2 ∧
        ∀ b ∈ sbi'.fgroupTree.entries, b.ema ≠ 0 → a.ema / 512 < b.ema / 512 → a.cluster ≤ b.cluster := by
  obtain ⟨data, cluster, labels⟩ := f2fsUpdateCluster_labels due enough bounded run
  have four : nrCluster = 4 := rfl
  intro a ha ema
  obtain ⟨p, hp, da, ca⟩ := labels.ofEntry a ha ema
  rw [labels.cluster_eq] at ca
  constructor
  · have := labels.range p
    omega
  · intro b hb emb lt
    obtain ⟨q, hq, db, cb⟩ := labels.ofEntry b hb emb
    rw [labels.cluster_eq] at cb
    have mono := labels.mono p hp q hq (by rw [← da, ← db]; exact lt)
    have := labels.range p
    omega

theorem update_cluster_monotone_five :
    fiveGroups.lastCluster ≤ fiveGroups.userDataBlocks ∧
      nrCluster - 1 < (consideredEntries fiveGroups.fgroupTree).length ∧
      (∀ e ∈ fiveGroups.fgroupTree.entries, e.ema / 512 < 2 ^ 31) ∧
      f2fsUpdateCluster fiveGroups = .ok fivePass ∧
      ∀ a ∈ fivePass.fgroupTree.entries, a.ema ≠ 0 →
        a.cluster ≤ nrCluster - 2 ∧
          ∀ b ∈ fivePass.fgroupTree.entries, b.ema ≠ 0 → a.ema / 512 < b.ema / 512 → a.cluster ≤ b.cluster :=
  ⟨by decide, by decide, by decide, fiveGroups_run,
    update_cluster_monotone (by decide) (by decide) (by decide) fiveGroups_run⟩

/-- Five groups of which only two have a lifetime, the shorter-lived one
left in the coldest cluster by an earlier classification. -/
def staleGroups : SbInfo :=
  initSbInfo ⟨[⟨1, 2, 512 * 10, 1, 1⟩, ⟨2, 0, 512 * 900, 1, 1⟩, ⟨3, 0, 0, 1, 1⟩, ⟨4, 0, 0, 1, 1⟩,
    ⟨5, 0, 0, 1, 1⟩], by decide⟩ 0

/-- With more than `NR_CLUSTER - 1` groups in the tree but no more than that
with a lifetime, the pass stops before clustering and leaves the clusters it
found: the group of lifetime 10 stays colder than the one of lifetime 900. -/
theorem update_cluster_leaves_stale_clusters :
    staleGroups.lastCluster ≤ staleGroups.userDataBlocks ∧
      nrCluster - 1 < staleGroups.fgroupTree.entries.length ∧
      (∀ e ∈ staleGroups.fgroupTree.entries, e.ema / 512 < 2 ^ 31) ∧
      f2fsUpdateCluster staleGroups = .ok { staleGroups with lastCluster := clusterT } ∧
      ∃ a ∈ staleGroups.fgroupTree.entries, ∃ b ∈ staleGroups.fgroupTree.entries,
        a.ema ≠ 0 ∧ b.ema ≠ 0 ∧ a.ema / 512 < b.ema / 512 ∧ b.cluster < a.cluster :=
  ⟨by decide, by decide, by decide, rfl, by decide⟩

/-! ## The online thresholds -/

/-- `f2fs_lifetime_to_cluster` disagrees with the pass it reads at the top of
every cluster below `NR_CLUSTER - 2`: the longest-lived group of such a
cluster, its lifetime being `512` times the cluster's `kmeans_max` or more, is
classified into another cluster. -/
theorem lifetime_to_cluster_misses_longest {sbi sbi' : SbInfo} (due : sbi.lastCluster ≤ sbi.userDataBlocks)
    (enough : nrCluster - 1 < (consideredEntries sbi.fgroupTree).length)
    (bounded : ∀ e ∈ sbi.fgroupTree.entries, e.ema / 512 < 2 ^ 31)
    (run : f2fsUpdateCluster sbi = .ok sbi') {g : FgroupEntry} (hg : g ∈ sbi'.fgroupTree.entries)
    (live : 0 < g.ema / 512) (hot : g.cluster < nrCluster - 2)
    (longest : ∀ e ∈ sbi'.fgroupTree.entries, e.ema ≠ 0 → e.cluster = g.cluster → e.ema / 512 ≤ g.ema / 512) :
    f2fsLifetimeToCluster sbi' g.ema ≠ g.cluster := by
  obtain ⟨data, cluster, labels⟩ := f2fsUpdateCluster_labels due enough bounded run
  have four : nrCluster = 4 := rfl
  obtain ⟨p, hp, dp, cp⟩ := labels.ofEntry g hg (by omega)
  rw [labels.cluster_eq] at cp
  -- `kmeans_max` of the cluster is the lifetime of its longest-lived group
  have above : g.ema / 512 ≤ sbi'.kmeansMax g.cluster := by
    rw [dp, cp]
    exact labels.maxAbove p hp
  have top : sbi'.kmeansMax g.cluster ≤ g.ema / 512 := by
    rcases labels.maxOf g.cluster (by omega) with zero | ⟨q, hq, cq, eq⟩
    · omega
    · obtain ⟨e, he, ema, de, ce⟩ := labels.ofPosition q hq
      rw [labels.cluster_eq, cq] at ce
      have := longest e he ema ce
      omega
  apply f2fsLifetimeToCluster_ne sbi' hot top
  intro first
  rw [← first]
  omega

/-- In the first pass over `fiveGroups` the group of lifetime 10 is alone in
cluster `0`, and `f2fs_lifetime_to_cluster` puts its lifetime in cluster `1`. -/
theorem lifetime_to_cluster_misses_longest_five :
    ⟨1, 0, 512 * 10, 1, 1⟩ ∈ fivePass.fgroupTree.entries ∧
      f2fsLifetimeToCluster fivePass (512 * 10) = 1 ∧ f2fsLifetimeToCluster fivePass (512 * 10) ≠ 0 :=
  ⟨by decide +kernel, by decide +kernel,
    @lifetime_to_cluster_misses_longest fiveGroups fivePass (by decide) (by decide) (by decide) fiveGroups_run
      ⟨1, 0, 512 * 10, 1, 1⟩ (by decide +kernel) (by decide) (by decide) (by decide +kernel)⟩

/-! ## Memory safety -/

/-- Every pass that runs its clustering and returns stores to `cluster_arr`
past its allocation: the array is allocated for the groups the cut keeps,
and the loop writes it for every considered group. -/
theorem update_cluster_stores_past_cluster_arr {sbi sbi' : SbInfo} (due : sbi.lastCluster ≤ sbi.userDataBlocks)
    (enough : nrCluster - 1 < (consideredEntries sbi.fgroupTree).length)
    (run : f2fsUpdateCluster sbi = .ok sbi') :
    (consideredEntries sbi.fgroupTree).length * validFgroupRate / 100 < (consideredEntries sbi.fgroupTree).length ∧
      sbi'.strays = sbi.strays ++ (List.range (consideredEntries sbi.fgroupTree).length).filter
        fun j => (consideredEntries sbi.fgroupTree).length * validFgroupRate / 100 ≤ j := by
  obtain ⟨nr, a, center, s, sorting, -, assign, -, strays, -, -⟩ := f2fsUpdateCluster_inv due enough run
  obtain rfl := sortAndCutData_cut sorting
  refine ⟨?_, by rw [strays, assignClusters_strays assign]⟩
  unfold validFgroupRate nrCluster at *
  omega

theorem update_cluster_stores_past_cluster_arr_five :
    f2fsUpdateCluster fiveGroups = .ok fivePass ∧ fivePass.strays = [4] :=
  ⟨fiveGroups_run, by
    rw [(update_cluster_stores_past_cluster_arr (by decide) (by decide) fiveGroups_run).2]
    decide⟩

/-! ## The history -/

/-- The history is a bounded array indexed by an unbounded count: every pass
that runs its clustering and returns counts one more, a pass that runs its
clustering once `MAX_HISTORY` have run reads past the history, and before the
first pass `get_cb_cost` reads a record never written. -/
theorem cluster_history_overruns :
    (∀ sbi sbi' : SbInfo, sbi.lastCluster ≤ sbi.userDataBlocks →
      nrCluster - 1 < (consideredEntries sbi.fgroupTree).length →
      f2fsUpdateCluster sbi = .ok sbi' → sbi'.kmeansCount = wrap32 (sbi.kmeansCount + 1)) ∧
    (∀ sbi : SbInfo, sbi.lastCluster ≤ sbi.userDataBlocks →
      nrCluster - 1 < (consideredEntries sbi.fgroupTree).length →
      (∀ e ∈ sbi.fgroupTree.entries, e.ema / 512 < 2 ^ 31) → maxHistory ≤ sbi.kmeansCount →
      f2fsUpdateCluster sbi = .error .wild) ∧
    ∀ (tree : FgroupTree) (userDataBlocks mtime : Nat),
      getCbCostHistory (initSbInfo tree userDataBlocks) mtime = .error .wild := by
  refine ⟨?count, ?full, ?first⟩
  case count =>
    intro sbi sbi' due enough run
    obtain ⟨-, -, -, -, -, -, -, -, -, -, count⟩ := f2fsUpdateCluster_inv due enough run
    exact count
  case full =>
    intro sbi due enough bounded full
    exact f2fsUpdateCluster_full due enough bounded full
  case first =>
    intro tree userDataBlocks mtime
    exact getCbCostHistory_unwritten _ rfl rfl mtime

theorem cluster_history_overruns_five :
    f2fsUpdateCluster { fiveGroups with kmeansCount := maxHistory } = .error .wild ∧
      fivePass.kmeansCount = 1 ∧ getCbCostHistory fiveGroups 0 = .error .wild :=
  ⟨cluster_history_overruns.2.1 _ (by decide) (by decide) (by decide) (by decide),
    (cluster_history_overruns.1 _ _ (by decide) (by decide) fiveGroups_run).trans (by decide),
    cluster_history_overruns.2.2 _ 0 0⟩

end MStream.F2fs
