import MStream.Machine
import MStream.Address
import MStream.Fuel

/-!
rrpc, the round-robin page-mapped target of lightnvm (rrpc.c, rrpc.h), one
request at a time. `trans_map` sends a logical page to the block it was last
written to and the page address `rrpc_alloc_addr` gave it there; the reverse
map `rev_trans_map`, which garbage collection reads, sends a page address back
to a logical page. Each LUN hands out its blocks from a free list; host writes
fill the LUN's `cur` block, garbage collection its `gc_cur`, and full blocks
wait on `prio_list` to be collected.

A block is named by its LUN and its id in the LUN. `rrpc_ppa_to_gaddr` turns a
block and a page address into a device address one to one, and the model keeps
the pair. The in-flight locks on logical pages (`rrpc_lock_rq`) and the block
and LUN spinlocks are left out, as is the wrap of the `atomic_t` `next_lun`
after 2^31 round-robin picks.
-/

namespace MStream.Rrpc

open Machine Address Fuel

structure Geo where
  nrLuns : Nat
  blksPerLun : Nat
  secPerBlk : Nat
  deriving DecidableEq, Repr

namespace Geo

/-- `geo->sec_per_lun`, as `nvm_core_init` sets it -/
def secPerLun (g : Geo) : Nat := g.secPerBlk * g.blksPerLun

/-- `rrpc->nr_sects`, as `rrpc_init` sets it -/
def nrSects (g : Geo) : Nat := g.secPerLun * g.nrLuns

end Geo

structure BlkRef where
  lun : Nat
  id : Nat
  deriving DecidableEq, Repr

structure Ppa where
  blk : BlkRef
  addr : Nat
  deriving DecidableEq, Repr

inductive BlkState where
  /-- `NVM_BLK_T_FREE`, as `rrpc_luns_init` leaves every block -/
  | tFree
  /-- `NVM_BLK_ST_FREE`, put back on the free list -/
  | stFree
  /-- `NVM_BLK_ST_TGT`, handed out to the target -/
  | stTgt
  /-- `NVM_BLK_ST_BAD` -/
  | stBad
  deriving DecidableEq, Repr

structure Block where
  invalidPages : Nat → Bool
  nextPage : Nat
  nrInvalidPages : Nat
  dataCmntSize : Nat
  state : BlkState

/-- `struct rrpc_lun`; `cur` and `gc_cur` are block ids in the LUN, which
`rrpc_luns_configure` sets before anything reads them. -/
structure Lun where
  cur : Nat
  gcCur : Nat
  freeList : List Nat
  prioList : List Nat
  wblkList : List Nat
  nrFreeBlocks : Nat
  reservedBlocks : Nat

structure RrpcAddr where
  addr : Nat
  rblk : Option BlkRef
  deriving DecidableEq, Repr

inductive Work where
  /-- `rrpc_gc_queue`: a full block goes on its LUN's `prio_list` -/
  | gcQueue (rb : BlkRef)
  /-- `rrpc_block_gc`: collect a block -/
  | blockGc (rb : BlkRef)
  deriving DecidableEq, Repr

set_option linter.dupNamespace false in
/-- What `struct rrpc` holds that the modelled functions read. -/
structure Rrpc where
  transMap : Nat → RrpcAddr
  revTransMap : Nat → Nat
  blocks : BlkRef → Block
  luns : Nat → Lun
  nextLun : Int
  /-- the works waiting on `kgc_wq`, oldest first -/
  kgcWq : List Work

section Ops

variable (g : Geo)

def rrpcPageInvalidate (r : Rrpc) (a : RrpcAddr) : Rrpc :=
  if a.addr = addrEmpty then r
  else match a.rblk with
    | none => r
    | some rb =>
      let blk := r.blocks rb
      -- the WARN_ON on a page already invalid only warns
      { r with
        blocks := Function.update r.blocks rb
          { blk with
            invalidPages := Function.update blk.invalidPages (a.addr % g.secPerBlk) true
            nrInvalidPages := blk.nrInvalidPages + 1 }
        revTransMap := Function.update r.revTransMap a.addr addrEmpty }

def invalidatePage (r : Rrpc) (i : Nat) : Rrpc :=
  let r := rrpcPageInvalidate g r (r.transMap i)
  { r with transMap := Function.update r.transMap i { r.transMap i with rblk := none } }

/-- `rrpc_invalidate_range`, which `rrpc_discard` runs over the logical pages
of a discard. -/
def rrpcInvalidateRange (r : Rrpc) (slba len : Nat) : Rrpc :=
  (List.range' slba len).foldl (invalidatePage g) r

def blockIsFull (blk : Block) : Bool := blk.nextPage == g.secPerBlk

def rrpcAllocAddr (r : Rrpc) (rb : BlkRef) : Nat × Rrpc :=
  let blk := r.blocks rb
  if blockIsFull g blk then (addrEmpty, r)
  else (blk.nextPage,
    { r with blocks := Function.update r.blocks rb { blk with nextPage := blk.nextPage + 1 } })

/-- `rrpc_get_blk` with `__rrpc_get_blk`: the first block of the LUN's free
list, cleared for writing. A request other than GC's may not take the LUN's
reserved blocks. -/
def rrpcGetBlk (r : Rrpc) (lun : Nat) (isGc : Bool) : Option (Nat × Rrpc) :=
  let rl := r.luns lun
  if isGc = false ∧ rl.nrFreeBlocks < rl.reservedBlocks then none
  else match rl.freeList with
    | [] => none
    | b :: rest =>
      let blk := r.blocks ⟨lun, b⟩
      some (b, { r with
        luns := Function.update r.luns lun
          { rl with freeList := rest, nrFreeBlocks := rl.nrFreeBlocks - 1 }
        blocks := Function.update r.blocks ⟨lun, b⟩
          { blk with state := .stTgt, invalidPages := (fun _ => false), nextPage := 0,
                     nrInvalidPages := 0, dataCmntSize := 0 } })

/-- `rrpc_set_lun_cur` on the slot `cur_rblk` points at, `gc_cur` when
`gcSlot`. Its WARN_ON on a block not yet full only warns. -/
def rrpcSetLunCur (rl : Lun) (b : Nat) (gcSlot : Bool) : Lun :=
  if gcSlot then { rl with gcCur := b } else { rl with cur := b }

@[simp] theorem setLunCur_freeList (rl : Lun) (b : Nat) (gcSlot : Bool) :
    (rrpcSetLunCur rl b gcSlot).freeList = rl.freeList := by
  unfold rrpcSetLunCur
  split <;> rfl

def getNextLun (r : Rrpc) : Nat × Rrpc :=
  let next := r.nextLun + 1
  ((next % g.nrLuns).toNat, { r with nextLun := next })

/-- The LUN `rrpc_get_lun_rr` gives GC: the first of those with the most free
blocks. -/
def maxFreeLun (r : Rrpc) : Nat :=
  (List.range g.nrLuns).foldl
    (fun m i => if (r.luns m).nrFreeBlocks < (r.luns i).nrFreeBlocks then i else m) 0

def rrpcGetLunRr (r : Rrpc) (isGc : Bool) : Nat × Rrpc :=
  if isGc then (maxFreeLun g r, r) else getNextLun g r

def rrpcUpdateMap (r : Rrpc) (laddr : Nat) (rb : BlkRef) (paddr : Nat) : Except Fault Rrpc :=
  if g.nrSects ≤ laddr then throw .bug
  else
    let gp := r.transMap laddr
    let r := if gp.rblk.isSome then rrpcPageInvalidate g r gp else r
    pure { r with
      transMap := Function.update r.transMap laddr ⟨paddr, some rb⟩
      revTransMap := Function.update r.revTransMap paddr laddr }

/-! ## rrpc_map_page

The page allocation of `rrpc_map_page` is a loop through its `retry` label:
allocate from the block `rblk`; failing that, take the first block queued on
`wblk_list`, or a new block from the free list, as the block `cur_rblk` points
at; failing that, a GC request retries once from the emergency block `gc_cur`
with `gc_force` set. Each pass that goes round again uses up a queued block, a
free block or the one switch to `gc_cur`, so the loop always ends. -/

structure Retry where
  r : Rrpc
  rblk : Nat
  /-- `cur_rblk` points at `gc_cur` rather than at `cur` -/
  gcSlot : Bool
  gcForce : Bool

/-- The `new_blk` label: the first block on `wblk_list` leaves it and becomes
the block `cur_rblk` points at. -/
def newBlk (lun : Nat) (st : Retry) (b : Nat) (rest : List Nat) : Retry :=
  let rl := st.r.luns lun
  { st with
    r := { st.r with
      luns := Function.update st.r.luns lun { rrpcSetLunCur rl b st.gcSlot with wblkList := rest } }
    rblk := b }

/-- One pass from the `retry` label: leave with the page address allocated, or
with none when no block is left; otherwise go round again. -/
def mapPageRetry (lun : Nat) (isGc : Bool) (st : Retry) : (Option Nat × Retry) ⊕ Retry :=
  let alloc := rrpcAllocAddr g st.r ⟨lun, st.rblk⟩
  let st := { st with r := alloc.2 }
  if alloc.1 ≠ addrEmpty then .inl (some alloc.1, st)
  else match (st.r.luns lun).wblkList with
    | b :: rest => .inr (newBlk lun st b rest)
    | [] =>
      match rrpcGetBlk st.r lun st.gcForce with
      -- list_add_tail puts the block on the empty wblk_list, and new_blk takes it
      | some (b, r) => .inr (newBlk lun { st with r } b [])
      | none =>
        if isGc = true ∧ st.gcForce = false then
          .inr { st with rblk := (st.r.luns lun).gcCur, gcSlot := true, gcForce := true }
        else .inl (none, st)

/-- What is left to use up: the queued blocks, the free blocks and the switch
to `gc_cur`. -/
def retryMeasure (lun : Nat) (st : Retry) : Nat :=
  (st.r.luns lun).wblkList.length + (st.r.luns lun).freeList.length +
    if st.gcForce then 0 else 1

@[simp] theorem allocAddr_luns (r : Rrpc) (rb : BlkRef) : (rrpcAllocAddr g r rb).2.luns = r.luns := by
  unfold rrpcAllocAddr
  by_cases full : blockIsFull g (r.blocks rb) <;> simp [full]

theorem getBlk_eq {r r' : Rrpc} {lun b : Nat} {isGc : Bool}
    (got : rrpcGetBlk r lun isGc = some (b, r')) :
    ∃ rest, (r.luns lun).freeList = b :: rest ∧
      r' = { r with
        luns := Function.update r.luns lun
          { (r.luns lun) with freeList := rest, nrFreeBlocks := (r.luns lun).nrFreeBlocks - 1 }
        blocks := Function.update r.blocks ⟨lun, b⟩
          { (r.blocks ⟨lun, b⟩) with
            state := .stTgt, invalidPages := (fun _ => false), nextPage := 0,
            nrInvalidPages := 0, dataCmntSize := 0 } } := by
  dsimp only [rrpcGetBlk] at got
  split at got
  · simp at got
  · split at got
    · simp at got
    · rename_i b' rest listed
      simp only [Option.some.injEq, Prod.mk.injEq] at got
      obtain ⟨rfl, rfl⟩ := got
      exact ⟨rest, listed, rfl⟩

theorem mapPageRetry_lowers (lun : Nat) (isGc : Bool) {st st' : Retry}
    (again : mapPageRetry g lun isGc st = .inr st') : retryMeasure lun st' < retryMeasure lun st := by
  dsimp only [mapPageRetry] at again
  split at again
  · simp at again
  · simp only [allocAddr_luns] at again
    split at again
    · -- a block queued on wblk_list
      rename_i b rest listed
      cases again
      simp [retryMeasure, newBlk, listed]
    · rename_i _ empty
      split at again
      · -- a block off the free list
        rename_i b r' got
        obtain ⟨rest, listed, rfl⟩ := getBlk_eq got
        simp only [allocAddr_luns] at listed
        cases again
        simp [retryMeasure, newBlk, listed, empty]
      · split at again
        · -- the switch to gc_cur
          rename_i switch
          cases again
          simp [retryMeasure, switch.2]
        · simp at again

theorem mapPageRetry_completes (lun : Nat) (isGc : Bool) (st : Retry) :
    (loopFuel (mapPageRetry g lun isGc) (retryMeasure lun st + 1) st).isSome :=
  loopFuel_completes (retryMeasure lun) (fun _ _ again => mapPageRetry_lowers g lun isGc again)
    _ st (Nat.lt_succ_self _)

/-- The retry loop of `rrpc_map_page` from the LUN's `cur` block, run to its
end: `retryMeasure` passes always suffice. -/
def mapPageAlloc (lun : Nat) (isGc : Bool) (r : Rrpc) : Option Nat × Retry :=
  let start : Retry := ⟨r, (r.luns lun).cur, false, false⟩
  (loopFuel (mapPageRetry g lun isGc) (retryMeasure lun start + 1) start).get
    (mapPageRetry_completes g lun isGc start)

/-- `rrpc_map_page`: the page a logical page is written to, or none when the
LUN has too few free blocks for a host write or no block to give. -/
def rrpcMapPage (r : Rrpc) (laddr : Nat) (isGc : Bool) : Except Fault (Option Ppa × Rrpc) :=
  let pick := rrpcGetLunRr g r isGc
  let lun := pick.1
  let r := pick.2
  if isGc = false ∧ (r.luns lun).nrFreeBlocks < g.nrLuns * 4 then pure (none, r)
  else
    match mapPageAlloc g lun isGc r with
    | (some paddr, st) => do
      let r ← rrpcUpdateMap g st.r laddr ⟨lun, st.rblk⟩ paddr
      pure (some ⟨⟨lun, st.rblk⟩, paddr⟩, r)
    -- "failed to allocate new block"
    | (none, st) => pure (none, st.r)

/-! ## Requests -/

/-- `rrpc_write_rq` for a one-page bio: the page `rrpc_map_page` gives, or
none when the bio goes back on the requeue list. -/
def rrpcWriteRq (r : Rrpc) (laddr : Nat) (isGc : Bool) : Except Fault (Option Ppa × Rrpc) := do
  let mapped ← rrpcMapPage g r laddr isGc
  -- ADDR_EMPTY: BUG_ON(is_gc); a host bio is requeued and rrpc_gc_kick queues LUN GC
  if isGc = true ∧ mapped.1 = none then throw .bug
  pure mapped

/-- `rrpc_read_rq`: the page `trans_map` gives, or none for a page that holds
nothing (`NVM_IO_DONE`). -/
def rrpcReadRq (r : Rrpc) (laddr : Nat) (isGc : Bool) : Except Fault (Option Ppa) :=
  if g.nrSects ≤ laddr then throw .bug
  else match (r.transMap laddr).rblk with
    | some rb => pure (some ⟨rb, (r.transMap laddr).addr⟩)
    | none => if isGc then throw .bug else pure none

/-- One page of `rrpc_end_io_write`: the page's block counts it, and a block
whose pages are all written gets an `rrpc_gc_queue` work (`rrpc_run_gc`). -/
def endIoWritePage (laddr : Nat) (r : Rrpc) (i : Nat) : Except Fault Rrpc :=
  match (r.transMap (laddr + i)).rblk with
  | none => throw .wild
  | some rb =>
    let blk := r.blocks rb
    let r := { r with
      blocks := Function.update r.blocks rb { blk with dataCmntSize := blk.dataCmntSize + 1 } }
    pure (if blk.dataCmntSize + 1 = g.secPerBlk then { r with kgcWq := r.kgcWq ++ [.gcQueue rb] }
      else r)

def rrpcEndIoWrite (r : Rrpc) (laddr npages : Nat) : Except Fault Rrpc :=
  (List.range npages).foldlM (endIoWritePage g laddr) r

/-! ## Start -/

/-- What `rrpc_luns_init` and `rrpc_map_init` leave on a device without bad
blocks whose L2P table is empty: every block free, both maps empty, and
`next_lun` at -1. -/
def rrpcFresh : Rrpc where
  transMap := fun _ => ⟨addrEmpty, none⟩
  revTransMap := fun _ => addrEmpty
  blocks := fun _ => ⟨fun _ => false, 0, 0, 0, .tFree⟩
  luns := fun _ => ⟨0, 0, List.range g.blksPerLun, [], [], g.blksPerLun, 2⟩
  nextLun := -1
  kgcWq := []

/-- One LUN of `rrpc_luns_configure`: a block for host writes, then the
emergency GC block. -/
def configureLun (r : Rrpc) (i : Nat) : Option Rrpc := do
  let (b, r) ← rrpcGetBlk r i false
  let r := { r with luns := Function.update r.luns i (rrpcSetLunCur (r.luns i) b false) }
  let (b', r) ← rrpcGetBlk r i true
  pure { r with luns := Function.update r.luns i (rrpcSetLunCur (r.luns i) b' true) }

def rrpcLunsConfigure (r : Rrpc) : Option Rrpc :=
  (List.range g.nrLuns).foldlM configureLun r

/-- `rrpc_init`: `rrpc_luns_init` refuses blocks of more pages than
`invalid_pages` has bits, and `rrpc_blocks_init` changes nothing while every
reverse entry is `ADDR_EMPTY`. -/
def rrpcInit : Option Rrpc :=
  if 8 * 64 < g.secPerBlk then none else rrpcLunsConfigure g (rrpcFresh g)

/-! ## The device under rrpc -/

/-- rrpc with its device: what each page of the media holds, one payload per
write as in `Device`. -/
structure Sys where
  ftl : Rrpc
  media : Ppa → Option Nat

/-- `rrpc_make_rq` for a one-page write of `payload`, through `rrpc_submit_io`
to its completion in `rrpc_end_io`: true when the write reached the media,
false when the bio went on the requeue list. -/
def hostWrite (s : Sys) (laddr payload : Nat) : Except Fault (Bool × Sys) := do
  let mapped ← rrpcWriteRq g s.ftl laddr false
  match mapped.1 with
  | none => pure (false, { s with ftl := mapped.2 })
  | some p =>
    let r ← rrpcEndIoWrite g mapped.2 laddr 1
    pure (true, ⟨r, Function.update s.media p (some payload)⟩)

/-- `rrpc_make_rq` for a one-page read: what the page `trans_map` gives holds,
and none for a logical page that holds nothing. -/
def hostRead (s : Sys) (laddr : Nat) : Except Fault (Option Nat) := do
  let p ← rrpcReadRq g s.ftl laddr false
  pure (p.bind s.media)

/-! ## Reading back a write -/

variable {g}

theorem updateMap_ok {r : Rrpc} {laddr : Nat} (inRange : laddr < g.nrSects) (rb : BlkRef) (paddr : Nat) :
    ∃ r', rrpcUpdateMap g r laddr rb paddr = .ok r' ∧ r'.transMap laddr = ⟨paddr, some rb⟩ := by
  unfold rrpcUpdateMap
  rw [if_neg (Nat.not_le.mpr inRange)]
  exact ⟨_, rfl, by simp⟩

/-- `rrpc_map_page` never fails on a logical page inside the device, and the
page it hands out is where `trans_map` now sends the logical page. -/
theorem mapPage_ok (r : Rrpc) {laddr : Nat} (inRange : laddr < g.nrSects) (isGc : Bool) :
    ∃ p r', rrpcMapPage g r laddr isGc = .ok (p, r') ∧
      ∀ q, p = some q → r'.transMap laddr = ⟨q.addr, some q.blk⟩ := by
  dsimp only [rrpcMapPage]
  split
  · exact ⟨none, _, rfl, fun _ none_ => by simp at none_⟩
  · split
    · rename_i paddr st _
      obtain ⟨r', updated, pointed⟩ := updateMap_ok inRange ⟨(rrpcGetLunRr g r isGc).1, st.rblk⟩ paddr (r := st.r)
      refine ⟨_, r', by rw [updated]; rfl, fun q same => ?_⟩
      cases Option.some.inj same
      exact pointed
    · exact ⟨none, _, rfl, fun _ none_ => by simp at none_⟩

theorem endIoWritePage_frame {a b : Rrpc} {laddr i : Nat} (page : endIoWritePage g laddr a i = .ok b) :
    b.transMap = a.transMap ∧ b.revTransMap = a.revTransMap ∧
      ∀ blk, (b.blocks blk).nextPage = (a.blocks blk).nextPage := by
  unfold endIoWritePage at page
  split at page
  · simp at page
  · rename_i rb _
    dsimp only at page
    cases pure_eq_ok.mp page
    have counted : ∀ blk, (Function.update a.blocks rb
        { (a.blocks rb) with dataCmntSize := (a.blocks rb).dataCmntSize + 1 } blk).nextPage =
          (a.blocks blk).nextPage := by
      intro blk
      by_cases same : blk = rb
      · subst same
        simp
      · simp [same]
    -- with or without the rrpc_gc_queue work
    split
    · exact ⟨rfl, rfl, counted⟩
    · exact ⟨rfl, rfl, counted⟩

theorem endIoWrite_transMap {r r' : Rrpc} {laddr npages : Nat}
    (done : rrpcEndIoWrite g r laddr npages = .ok r') : r'.transMap = r.transMap :=
  (foldlM_rel (r := fun a b => a.transMap = b.transMap) (fun _ => rfl)
    Eq.trans (fun _ _ _ page => (endIoWritePage_frame page).1.symm) (List.range npages) r r' done).symm

theorem endIoWrite_one_ok {r : Rrpc} {laddr : Nat} {rb : BlkRef} (mapped : (r.transMap laddr).rblk = some rb) :
    ∃ r', rrpcEndIoWrite g r laddr 1 = .ok r' := by
  simp [rrpcEndIoWrite, endIoWritePage, mapped]

theorem host_write_reads_back (s : Sys) {laddr : Nat} (inRange : laddr < g.nrSects) (payload : Nat) :
    ∃ done s', hostWrite g s laddr payload = .ok (done, s') ∧
      (done = true → hostRead g s' laddr = .ok (some payload)) := by
  obtain ⟨p, r, mapped, pointed⟩ := mapPage_ok s.ftl inRange false
  have requested : rrpcWriteRq g s.ftl laddr false = .ok (p, r) := by
    simp [rrpcWriteRq, mapped]
  cases p with
  | none =>
    -- the bio is requeued: nothing reached the media
    exact ⟨false, { s with ftl := r }, by simp [hostWrite, requested], fun never => by simp at never⟩
  | some q =>
    have here := pointed q rfl
    obtain ⟨r', completed⟩ := @endIoWrite_one_ok g r laddr q.blk (by simp [here])
    have kept := endIoWrite_transMap completed
    refine ⟨true, ⟨r', Function.update s.media q (some payload)⟩, by simp [hostWrite, requested, completed], ?_⟩
    intro _
    have same : (⟨q.blk, q.addr⟩ : Ppa) = q := rfl
    simp [hostRead, rrpcReadRq, Nat.not_le.mpr inRange, kept, here, same]

theorem host_write_reads_back_fresh :
    0 < (⟨2, 10, 2⟩ : Geo).nrSects ∧
      ∃ done s', hostWrite ⟨2, 10, 2⟩ ⟨rrpcFresh ⟨2, 10, 2⟩, fun _ => none⟩ 0 7 = .ok (done, s') ∧
        (done = true → hostRead ⟨2, 10, 2⟩ s' 0 = .ok (some 7)) :=
  ⟨by decide, host_write_reads_back _ (by decide) 7⟩

end Ops

end MStream.Rrpc
