import MStream.Device

/-!
The batching of `pblk_gc_line_prepare_ws` (pblk-gc.c). The valid sectors of a
line taken for GC are the clear bits of its `invalid_bitmap` up to
`emeta_ssec`; their lbas, read from the lba list of the line's emeta, are cut
into requests of at most `max_write_pgs` sectors, and a request that holds
twelve sectors already ends at a page-mapped lba that ends a page.
`sec_left` starts at the line's valid count and drops by each request; the
loop stops when it is no longer positive or a request finds no sector.

The emeta read, the check of its lba list and the allocations are taken to
succeed; a request is the list of its lbas, in the order they were taken.
-/

namespace MStream.Gc

open Machine Device

/-- What `pblk_gc_line_prepare_ws` reads of the line it prepares. -/
structure GcLine where
  invalidBitmap : Nat → Bool
  emetaSsec : Nat
  /-- `pblk_line_vsc` -/
  vsc : Int
  /-- the lba list of the line's emeta -/
  lbaList : Nat → Nat

structure GcConfig where
  secPerLine : Nat
  maxWritePgs : Nat
  /-- whether `pblk_get_maptype` gives `PAGE_MAP` for an lba -/
  pageMapped : Nat → Bool

/-- `PBLK_MAX_REQ_ADDRS` with `RWB_BUFFER` defined, the size of
`gc_rq->lba_list`; `pblk_core_init` refuses a larger `max_write_pgs`. -/
def pblkMaxReqAddrs : Nat := 16

variable (cfg : GcConfig) (line : GcLine)

/-- The `do … while (nr_secs < max_write_pgs)` loop that fills one request
from the clear bit after `bit`. The fuel only bounds the recursion: a run that
needs more is `none`, which `gcRqFill_ok` rules out. -/
def gcRqFill : Nat → Int → List Nat → Option (Int × List Nat)
  | 0, _, _ => none
  | fuel + 1, bit, batch =>
    let bit := findNextZeroBit line.invalidBitmap cfg.secPerLine (bit + 1).toNat
    if line.emetaSsec < bit then some (bit, batch)
    else
      let lba := line.lbaList bit
      if cfg.pageMapped lba ∧ 12 ≤ batch.length ∧ lba % 4 = 3 then some (bit, batch ++ [lba])
      else if batch.length + 1 < cfg.maxWritePgs then gcRqFill fuel bit (batch ++ [lba])
      else some (bit, batch ++ [lba])

/-- The `next_rq` loop: one request a round, until `sec_left` is no longer
positive or a request is empty; the fuel bounds the rounds as above. -/
def gcPrepareLoop : Nat → Int → Int → List (List Nat) → Option (List (List Nat))
  | 0, _, _, _ => none
  | fuel + 1, secLeft, bit, rqs => do
    let (bit, batch) ← gcRqFill cfg line (cfg.maxWritePgs + 1) bit []
    if batch.length = 0 then pure rqs
    else
      let secLeft := secLeft - batch.length
      if 0 < secLeft then gcPrepareLoop fuel secLeft bit (rqs ++ [batch]) else pure (rqs ++ [batch])

/-- `pblk_gc_line_prepare_ws` from `pblk_line_vsc` on: the requests queued, in
order, or `none` for a line whose count is negative, which is put back. -/
def pblkGcLinePrepareWs : Option (List (List Nat)) :=
  if line.vsc < 0 then none
  else gcPrepareLoop cfg line (line.vsc.toNat + 1) line.vsc (-1) []

/-- The valid sectors from `start` on: the clear bits of `invalid_bitmap` up to
`emeta_ssec`, in increasing order. -/
def clearFrom (start : Nat) : List Nat :=
  (List.range' start (line.emetaSsec + 1 - start)).filter fun p =>
    decide (p < cfg.secPerLine) && !line.invalidBitmap p

variable {cfg line}

/-! ## One bit at a time -/

section Step

variable {start r : Nat} (found : findNextZeroBit line.invalidBitmap cfg.secPerLine start = r)
include found

theorem clearFrom_of_past (past : line.emetaSsec < r) : clearFrom cfg line start = [] := by
  obtain ⟨-, set, -⟩ := findNextZeroBit_spec line.invalidBitmap cfg.secPerLine start
  rw [found] at set
  apply List.filter_eq_nil_iff.mpr
  intro p mem
  rw [List.mem_range'_1] at mem
  simp [set p mem.1 (by omega)]

theorem clearFrom_of_found (emeta : line.emetaSsec < cfg.secPerLine) (within : r ≤ line.emetaSsec) :
    clearFrom cfg line start = r :: clearFrom cfg line (r + 1) := by
  obtain ⟨-, set, clear⟩ := findNextZeroBit_spec line.invalidBitmap cfg.secPerLine start
  rw [found] at set clear
  obtain ⟨lo, bit⟩ := clear (by omega)
  -- the range splits at `r`: set bits before it, `r` itself, the rest after it
  have split : List.range' start (line.emetaSsec + 1 - start) =
      List.range' start (r - start) ++ r :: List.range' (r + 1) (line.emetaSsec + 1 - (r + 1)) := by
    have len : line.emetaSsec + 1 - start = (r - start) + (line.emetaSsec + 1 - (r + 1) + 1) := by omega
    rw [len, ← List.range'_append_1, List.range'_succ, show start + (r - start) = r by omega]
  have before : (List.range' start (r - start)).filter
      (fun p => decide (p < cfg.secPerLine) && !line.invalidBitmap p) = [] := by
    apply List.filter_eq_nil_iff.mpr
    intro p mem
    rw [List.mem_range'_1] at mem
    simp [set p mem.1 (by omega)]
  unfold clearFrom
  rw [split, List.filter_append, before, List.filter_cons]
  simp [bit, show r < cfg.secPerLine by omega]

end Step

theorem clearFrom_past_emeta {start : Nat} (past : line.emetaSsec < start) : clearFrom cfg line start = [] := by
  unfold clearFrom
  rw [show line.emetaSsec + 1 - start = 0 by omega]
  rfl

/-! ## The two loops -/

section Loops

variable (emeta : line.emetaSsec < cfg.secPerLine)
include emeta

/-- With enough fuel one request takes the next `m` valid sectors, at least
one if any is left, and no more than `max_write_pgs` once it has one. -/
theorem gcRqFill_ok {fuel : Nat} {bit : Int} {batch : List Nat} (lo : -1 ≤ bit)
    (room : batch.length ≤ cfg.maxWritePgs) (enough : cfg.maxWritePgs < batch.length + fuel) :
    ∃ bit' m, gcRqFill cfg line fuel bit batch =
        some (bit', batch ++ ((clearFrom cfg line (bit + 1).toNat).take m).map line.lbaList) ∧
      -1 ≤ bit' ∧ m ≤ (clearFrom cfg line (bit + 1).toNat).length ∧
      clearFrom cfg line (bit' + 1).toNat = (clearFrom cfg line (bit + 1).toNat).drop m ∧
      (clearFrom cfg line (bit + 1).toNat ≠ [] → 0 < m) ∧ batch.length + m ≤ max (batch.length + 1) cfg.maxWritePgs := by
  -- induction on the fuel; each round either stops or takes one sector and goes on
  induction fuel generalizing bit batch with
  | zero => omega
  | succ fuel ih =>
    simp only [gcRqFill]
    generalize found : findNextZeroBit line.invalidBitmap cfg.secPerLine (bit + 1).toNat = r
    have next : ((r : Int) + 1).toNat = r + 1 := Int.toNat_natCast_add_one
    by_cases past : line.emetaSsec < r
    · have none := clearFrom_of_past found past
      have after : clearFrom cfg line (r + 1) = [] := clearFrom_past_emeta (by omega)
      refine ⟨r, 0, by simp [past], by omega, by simp, by simp [after, none], fun ne => absurd none ne, by omega⟩
    have rest := clearFrom_of_found found emeta (by omega)
    rw [if_neg past]
    by_cases ends : cfg.pageMapped (line.lbaList r) = true ∧ 12 ≤ batch.length ∧ line.lbaList r % 4 = 3
    · refine ⟨r, 1, by simp [ends, rest], by omega, by simp [rest], by simp [rest, next], fun _ => Nat.one_pos,
        by omega⟩
    by_cases more : batch.length + 1 < cfg.maxWritePgs
    · -- the request goes on from `r` with one more sector
      obtain ⟨bit', m, run, lo', within, dropped, took, bound⟩ :=
        @ih r (batch ++ [line.lbaList r]) (by omega) (by simp; omega) (by simp; omega)
      refine ⟨bit', m + 1, ?_, lo', ?_, ?_, fun _ => Nat.succ_pos m, ?_⟩
      · rw [if_neg ends, if_pos more, run, next, rest]
        simp
      · rw [next] at within
        rw [rest, List.length_cons]
        omega
      · rw [dropped, next, rest]
        simp
      · simp only [List.length_append, List.length_singleton] at bound
        omega
    · refine ⟨r, 1, by simp [ends, more, rest], by omega, by simp [rest], by simp [rest, next], fun _ => Nat.one_pos,
        by omega⟩

/-- With enough fuel the rounds run until the valid sectors are used up, when
`sec_left` counts them: the requests taken together are their lbas in order,
each of one to `max_write_pgs` sectors. -/
theorem gcPrepareLoop_ok (one : 1 ≤ cfg.maxWritePgs) {fuel : Nat} {secLeft bit : Int} {rqs : List (List Nat)}
    (lo : -1 ≤ bit) (left : secLeft = (clearFrom cfg line (bit + 1).toNat).length) (enough : secLeft < fuel) :
    ∃ batches, gcPrepareLoop cfg line fuel secLeft bit rqs = some (rqs ++ batches) ∧
      batches.flatten = (clearFrom cfg line (bit + 1).toNat).map line.lbaList ∧
      ∀ b ∈ batches, 0 < b.length ∧ b.length ≤ cfg.maxWritePgs := by
  induction fuel generalizing secLeft bit rqs with
  | zero => omega
  | succ fuel ih =>
    obtain ⟨bit', m, fill, lo', within, dropped, took, bound⟩ :=
      @gcRqFill_ok cfg line emeta (cfg.maxWritePgs + 1) bit [] lo (by simp) (by simp)
    simp only [gcPrepareLoop, fill, List.nil_append, Option.bind_eq_bind, Option.bind_some]
    generalize clearFrom cfg line (bit + 1).toNat = R at left within dropped took ⊢
    have taken : ((R.take m).map line.lbaList).length = m := by simp; omega
    by_cases empty : m = 0
    · -- nothing found: every valid sector was taken before
      have gone : R = [] := by
        by_contra ne
        exact absurd (took ne) (by omega)
      refine ⟨[], by simp [empty], by simp [gone], by simp⟩
    rw [if_neg (by omega), taken]
    by_cases more : 0 < secLeft - m
    · obtain ⟨batches, run, flat, sizes⟩ :=
        @ih (secLeft - m) bit' (rqs ++ [(R.take m).map line.lbaList]) lo'
          (by rw [dropped, List.length_drop]; omega) (by omega)
      refine ⟨(R.take m).map line.lbaList :: batches, ?_, ?_, ?_⟩
      · rw [if_pos more, run]
        simp
      · rw [List.flatten_cons, flat, dropped, ← List.map_append, List.take_append_drop]
      · intro b mem
        rcases List.mem_cons.mp mem with rfl | later
        · rw [taken]
          omega
        · exact sizes b later
    · -- `sec_left` used up: the request took every sector left
      have all : R.take m = R := List.take_of_length_le (by omega)
      refine ⟨[(R.take m).map line.lbaList], ?_, by simp [all], ?_⟩
      · rw [if_neg more]
        rfl
      · intro b mem
        rw [List.mem_singleton.mp mem, taken]
        omega

end Loops

/-- When a line's valid count is the number of clear bits of its
`invalid_bitmap` up to `emeta_ssec`, `pblk_gc_line_prepare_ws` ends, and the
requests it queues hold, taken together, the emeta lbas at exactly those
positions in increasing order, each request one to `max_write_pgs` of them and
so within `gc_rq->lba_list`. -/
theorem gc_batches_cover_valid_sectors (emeta : line.emetaSsec < cfg.secPerLine) (one : 1 ≤ cfg.maxWritePgs)
    (fits : cfg.maxWritePgs ≤ pblkMaxReqAddrs) (counted : line.vsc = (clearFrom cfg line 0).length) :
    ∃ batches, pblkGcLinePrepareWs cfg line = some batches ∧
      batches.flatten = (clearFrom cfg line 0).map line.lbaList ∧
      ∀ b ∈ batches, 0 < b.length ∧ b.length ≤ cfg.maxWritePgs ∧ b.length ≤ pblkMaxReqAddrs := by
  have start : ((-1 : Int) + 1).toNat = 0 := rfl
  obtain ⟨batches, run, flat, sizes⟩ :=
    @gcPrepareLoop_ok cfg line emeta one (line.vsc.toNat + 1) line.vsc (-1) [] (by omega)
      (by rw [start]; exact counted) (by omega)
  refine ⟨batches, ?_, by rw [flat, start], fun b mem => ⟨(sizes b mem).1, (sizes b mem).2, by
    have := (sizes b mem).2
    omega⟩⟩
  rw [pblkGcLinePrepareWs, if_neg (by omega), run, List.nil_append]

/-- A line of 32 sectors whose emeta starts at sector 20, with every third
sector invalid: fourteen valid sectors, lba `p` at sector `p`, all page-mapped. -/
def thirdsInvalid : GcLine where
  invalidBitmap := fun p => p % 3 = 0
  emetaSsec := 20
  vsc := 14
  lbaList := fun p => p

def pageGc : GcConfig where
  secPerLine := 32
  maxWritePgs := 16
  pageMapped := fun _ => true

/-- The first request stops at lba 19, the thirteenth sector, which ends a
page; the second takes the last valid sector. -/
theorem gc_batches_cover_valid_sectors_thirds :
    pblkGcLinePrepareWs pageGc thirdsInvalid = some [[1, 2, 4, 5, 7, 8, 10, 11, 13, 14, 16, 17, 19], [20]] ∧
      ∃ batches, pblkGcLinePrepareWs pageGc thirdsInvalid = some batches ∧
        batches.flatten = (clearFrom pageGc thirdsInvalid 0).map thirdsInvalid.lbaList ∧
        ∀ b ∈ batches, 0 < b.length ∧ b.length ≤ pageGc.maxWritePgs ∧ b.length ≤ pblkMaxReqAddrs :=
  ⟨by decide, gc_batches_cover_valid_sectors (by decide) (by decide) (by decide) (by decide)⟩

end MStream.Gc
