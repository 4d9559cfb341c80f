import MStream.BitField

/-!
Physical addresses of pblk. `struct ppa_addr` is declared in the kernel's
include/linux/lightnvm.h, outside the repository; it is a 64-bit union that
pblk only ever fills in three ways, and `PpaAddr` has one constructor for each:

* `ADDR_EMPTY` (all ones), the unmapped address;
* a write-buffer cacheline, the `c` view with `is_cached` set, carrying the
  entry index `line`, the ring `nrb` and the `is_reserved` bit this fork adds;
* a device address, the `g` view with `is_cached` clear.

Raw comparisons `a.ppa == b.ppa` become equality of these values. This relies
on the union keeping `g`'s fields away from the `is_cached` bit, and on
`pblk_cacheline_to_addr` producing a clear `is_reserved` bit (it writes only
`line`, `nrb` and `is_cached` of an uninitialised value). Field widths of the
union are not modelled: a value stored in a field is read back unchanged.

`AddrFormat` is the packing `pblk_set_ppaf` (pblk-init.c) computes from the
geometry: sector, plane, channel, LUN, page and block fields from bit 0 up.
-/

namespace MStream.Address

structure DevAddr where
  blk : Nat
  pg : Nat
  sec : Nat
  pl : Nat
  lun : Nat
  ch : Nat
  deriving DecidableEq, Repr

inductive PpaAddr where
  | empty
  | cache (line nrb : Nat) (reserved : Bool)
  | dev (g : DevAddr)
  deriving DecidableEq, Repr

/-- `ADDR_EMPTY` as a 64-bit lba value. -/
def addrEmpty : Nat := 2 ^ 64 - 1

namespace PpaAddr

/-- `ppa.c.is_cached`: set for cachelines and for the all-ones `ADDR_EMPTY`. -/
def isCached : PpaAddr → Bool
  | .dev _ => false
  | _ => true

end PpaAddr

def pblkPpaEmpty (ppa : PpaAddr) : Bool := ppa == .empty

def pblkAddrInCache : PpaAddr → Bool
  | .cache .. => true
  | _ => false

def pblkCachelineToAddr (addr nrb : Nat) : PpaAddr := .cache addr nrb false

/-- `pblk_tgt_ppa_to_line`: the block field of a device address is its line. -/
def pblkTgtPpaToLine : PpaAddr → Option Nat
  | .dev g => some g.blk
  | _ => none

@[simp] theorem pblkAddrInCache_dev (g : DevAddr) : pblkAddrInCache (.dev g) = false := rfl
@[simp] theorem pblkAddrInCache_empty : pblkAddrInCache .empty = false := rfl
@[simp] theorem pblkAddrInCache_cache (line nrb : Nat) (reserved : Bool) :
    pblkAddrInCache (.cache line nrb reserved) = true := rfl
@[simp] theorem pblkPpaEmpty_dev (g : DevAddr) : pblkPpaEmpty (.dev g) = false := rfl
@[simp] theorem pblkPpaEmpty_empty : pblkPpaEmpty .empty = true := rfl
@[simp] theorem pblkPpaEmpty_cache (line nrb : Nat) (reserved : Bool) :
    pblkPpaEmpty (.cache line nrb reserved) = false := rfl

structure AddrFormat where
  secLen : Nat
  plnLen : Nat
  chLen : Nat
  lunLen : Nat
  pgLen : Nat
  blkLen : Nat
  deriving DecidableEq, Repr

namespace AddrFormat

variable (f : AddrFormat)

def secOffset (_ : AddrFormat) : Nat := 0
def plnOffset : Nat := f.secLen
def chOffset : Nat := f.plnOffset + f.plnLen
def lunOffset : Nat := f.chOffset + f.chLen
def pgOffset : Nat := f.lunOffset + f.lunLen
def blkOffset : Nat := f.pgOffset + f.pgLen

def fieldMask (len offset : Nat) : Nat := (2 ^ len - 1) <<< offset

def secMask : Nat := fieldMask f.secLen f.secOffset
def plnMask : Nat := fieldMask f.plnLen f.plnOffset
def chMask : Nat := fieldMask f.chLen f.chOffset
def lunMask : Nat := fieldMask f.lunLen f.lunOffset
def pgMask : Nat := fieldMask f.pgLen f.pgOffset
def blkMask : Nat := fieldMask f.blkLen f.blkOffset

def bitsize : Nat := f.blkOffset + f.blkLen

end AddrFormat

/-- `(x & mask) >> offset`, the extraction every conversion uses. -/
def extract (x mask offset : Nat) : Nat := (x &&& mask) >>> offset

/-- `addr_to_gen_ppa`: the device address of in-line sector `paddr` of line
`lineId`. -/
def addrToGenPpa (f : AddrFormat) (paddr lineId : Nat) : PpaAddr :=
  .dev { blk := lineId
         pg := extract paddr f.pgMask f.pgOffset
         lun := extract paddr f.lunMask f.lunOffset
         ch := extract paddr f.chMask f.chOffset
         pl := extract paddr f.plnMask f.plnOffset
         sec := extract paddr f.secMask f.secOffset }

/-- `pblk_dev_ppa_to_line_addr`: the in-line sector of a device address. -/
def pblkDevPpaToLineAddr (f : AddrFormat) (g : DevAddr) : Nat :=
  g.pg <<< f.pgOffset ||| g.lun <<< f.lunOffset ||| g.ch <<< f.chOffset |||
    g.pl <<< f.plnOffset ||| g.sec <<< f.secOffset

/-- `pblk_ppa64_to_ppa32`; the result is a `u32`. -/
def pblkPpa64ToPpa32 (f : AddrFormat) : PpaAddr → Nat
  | .empty => 2 ^ 32 - 1
  | .cache line _ _ => (line ||| 1 <<< 31) % 2 ^ 32
  | .dev g =>
      (g.blk <<< f.blkOffset ||| g.pg <<< f.pgOffset ||| g.lun <<< f.lunOffset |||
        g.ch <<< f.chOffset ||| g.pl <<< f.plnOffset ||| g.sec <<< f.secOffset) % 2 ^ 32

/-- `pblk_ppa32_to_ppa64`. A cacheline keeps only `line`; the ring index and
reserved bit do not fit the 32-bit form. -/
def pblkPpa32ToPpa64 (f : AddrFormat) (ppa32 : Nat) : PpaAddr :=
  if ppa32 = 2 ^ 32 - 1 then .empty
  else if ppa32 &&& 1 <<< 31 ≠ 0 then .cache (ppa32 &&& (2 ^ 31 - 1)) 0 false
  else
    .dev { blk := extract ppa32 f.blkMask f.blkOffset
           pg := extract ppa32 f.pgMask f.pgOffset
           lun := extract ppa32 f.lunMask f.lunOffset
           ch := extract ppa32 f.chMask f.chOffset
           pl := extract ppa32 f.plnMask f.plnOffset
           sec := extract ppa32 f.secMask f.secOffset }

/-! ## The encodings against each other -/

namespace AddrFormat

variable (f : AddrFormat)

/-- The fields of a device address where `pblk_ppa64_to_ppa32` stores them,
block first. -/
def devFields (g : DevAddr) : List BitField.Field :=
  [⟨g.blk, f.blkOffset, f.blkLen⟩, ⟨g.pg, f.pgOffset, f.pgLen⟩, ⟨g.lun, f.lunOffset, f.lunLen⟩,
    ⟨g.ch, f.chOffset, f.chLen⟩, ⟨g.pl, f.plnOffset, f.plnLen⟩, ⟨g.sec, f.secOffset, f.secLen⟩]

def lineFields (g : DevAddr) : List BitField.Field :=
  [⟨g.pg, f.pgOffset, f.pgLen⟩, ⟨g.lun, f.lunOffset, f.lunLen⟩, ⟨g.ch, f.chOffset, f.chLen⟩,
    ⟨g.pl, f.plnOffset, f.plnLen⟩, ⟨g.sec, f.secOffset, f.secLen⟩]

end AddrFormat

def DevAddr.FitsIn (g : DevAddr) (f : AddrFormat) : Prop :=
  g.blk < 2 ^ f.blkLen ∧ g.pg < 2 ^ f.pgLen ∧ g.lun < 2 ^ f.lunLen ∧ g.ch < 2 ^ f.chLen ∧
    g.pl < 2 ^ f.plnLen ∧ g.sec < 2 ^ f.secLen

instance (g : DevAddr) (f : AddrFormat) : Decidable (g.FitsIn f) :=
  inferInstanceAs (Decidable (_ ∧ _ ∧ _ ∧ _ ∧ _ ∧ _))

variable {f : AddrFormat}

theorem extract_fieldMask (x len offset : Nat) :
    extract x (AddrFormat.fieldMask len offset) offset = BitField.extract x offset len := rfl

theorem pblkPpa64ToPpa32_dev (g : DevAddr) :
    pblkPpa64ToPpa32 f (.dev g) = BitField.pack 0 (f.devFields g) % 2 ^ 32 := by
  simp [pblkPpa64ToPpa32, BitField.pack, AddrFormat.devFields, AddrFormat.secOffset]

theorem pblkDevPpaToLineAddr_eq (g : DevAddr) :
    pblkDevPpaToLineAddr f g = BitField.pack 0 (f.lineFields g) := by
  simp [pblkDevPpaToLineAddr, BitField.pack, AddrFormat.lineFields, AddrFormat.secOffset]

theorem devFields_below (g : DevAddr) : (f.devFields g).Pairwise BitField.Field.Below := by
  simp only [AddrFormat.devFields, List.pairwise_cons, List.mem_cons, List.not_mem_nil, or_false,
    forall_eq_or_imp, forall_eq, IsEmpty.forall_iff, implies_true, List.Pairwise.nil, and_true,
    BitField.Field.Below, AddrFormat.blkOffset, AddrFormat.pgOffset, AddrFormat.lunOffset, AddrFormat.chOffset,
    AddrFormat.plnOffset, AddrFormat.secOffset]
  omega

theorem devFields_fits {g : DevAddr} (fits : g.FitsIn f) : ∀ fld ∈ f.devFields g, fld.Fits := by
  obtain ⟨blk, pg, lun, ch, pl, sec⟩ := fits
  simp [AddrFormat.devFields, BitField.Field.Fits, blk, pg, lun, ch, pl, sec]

/-- A device address whose fields fit a format of fewer than 32 bits comes back
from its 32-bit form. -/
theorem pblkPpa32ToPpa64_ppa64ToPpa32 {g : DevAddr} (fits : g.FitsIn f) (small : f.bitsize < 32) :
    pblkPpa32ToPpa64 f (pblkPpa64ToPpa32 f (.dev g)) = .dev g := by
  have fitsAll := devFields_fits fits
  have apart : (f.devFields g).Pairwise BitField.Field.Apart := (devFields_below g).imp Or.inl
  have within : ∀ fld ∈ f.devFields g, fld.offset + fld.width ≤ f.bitsize := by
    simp only [AddrFormat.devFields, List.mem_cons, List.not_mem_nil, or_false, forall_eq_or_imp, forall_eq,
      AddrFormat.bitsize, AddrFormat.blkOffset, AddrFormat.pgOffset, AddrFormat.lunOffset, AddrFormat.chOffset,
      AddrFormat.plnOffset, AddrFormat.secOffset]
    omega
  -- the packed word stays below bit 31: it is neither `-1` nor a cacheline
  have lt : BitField.pack 0 (f.devFields g) < 2 ^ 31 :=
    Nat.lt_of_lt_of_le (BitField.pack_lt fitsAll within) (Nat.pow_le_pow_right (by norm_num) (by omega))
  rw [pblkPpa64ToPpa32_dev, Nat.mod_eq_of_lt (by omega)]
  have notEmpty : BitField.pack 0 (f.devFields g) ≠ 2 ^ 32 - 1 := by omega
  have device := BitField.and_one_shiftLeft_of_lt lt
  -- each field reads back from its own bits
  have field : ∀ fld ∈ f.devFields g,
      BitField.extract (BitField.pack 0 (f.devFields g)) fld.offset fld.width = fld.value :=
    fun _ mem => BitField.extract_pack fitsAll apart mem
  have blk := field ⟨g.blk, f.blkOffset, f.blkLen⟩ (by simp [AddrFormat.devFields])
  have pg := field ⟨g.pg, f.pgOffset, f.pgLen⟩ (by simp [AddrFormat.devFields])
  have lun := field ⟨g.lun, f.lunOffset, f.lunLen⟩ (by simp [AddrFormat.devFields])
  have ch := field ⟨g.ch, f.chOffset, f.chLen⟩ (by simp [AddrFormat.devFields])
  have pl := field ⟨g.pl, f.plnOffset, f.plnLen⟩ (by simp [AddrFormat.devFields])
  have sec := field ⟨g.sec, f.secOffset, f.secLen⟩ (by simp [AddrFormat.devFields])
  simp only [pblkPpa32ToPpa64, notEmpty, device, if_false, ne_eq, not_true_eq_false, AddrFormat.blkMask,
    AddrFormat.pgMask, AddrFormat.lunMask, AddrFormat.chMask, AddrFormat.plnMask, AddrFormat.secMask,
    extract_fieldMask, blk, pg, lun, ch, pl, sec]

theorem ppa32_empty : pblkPpa64ToPpa32 f .empty = 2 ^ 32 - 1 ∧ pblkPpa32ToPpa64 f (2 ^ 32 - 1) = .empty :=
  ⟨rfl, by simp [pblkPpa32ToPpa64]⟩

/-- The device address of an in-line sector gives the sector back, on the line
it was built for. -/
theorem lineAddr_addrToGenPpa {paddr : Nat} (lineId : Nat) (small : paddr < 2 ^ f.blkOffset) :
    ∃ g, addrToGenPpa f paddr lineId = .dev g ∧ g.blk = lineId ∧ pblkDevPpaToLineAddr f g = paddr := by
  refine ⟨_, rfl, rfl, ?_⟩
  rw [pblkDevPpaToLineAddr_eq]
  apply @BitField.pack_extract _ paddr f.blkOffset _ _ small
  · -- each field is what `addr_to_gen_ppa` read from `paddr`
    simp [AddrFormat.lineFields, AddrFormat.pgMask, AddrFormat.lunMask, AddrFormat.chMask, AddrFormat.plnMask,
      AddrFormat.secMask, extract_fieldMask]
  · -- sector, plane, channel, LUN and page tile the bits below the block
    intro i lt
    simp only [AddrFormat.lineFields, List.mem_cons, List.not_mem_nil, or_false, exists_eq_or_imp, exists_eq_left,
      BitField.Field.Covers, AddrFormat.pgOffset, AddrFormat.lunOffset, AddrFormat.chOffset,
      AddrFormat.plnOffset, AddrFormat.secOffset]
    simp only [AddrFormat.blkOffset, AddrFormat.pgOffset, AddrFormat.lunOffset, AddrFormat.chOffset,
      AddrFormat.plnOffset] at lt
    omega

theorem addrToGenPpa_mod (paddr lineId : Nat) :
    addrToGenPpa f (paddr % 2 ^ f.blkOffset) lineId = addrToGenPpa f paddr lineId := by
  have low : ∀ {len offset : Nat}, offset + len ≤ f.blkOffset →
      extract (paddr % 2 ^ f.blkOffset) (AddrFormat.fieldMask len offset) offset =
        extract paddr (AddrFormat.fieldMask len offset) offset := fun le => by
    rw [extract_fieldMask, extract_fieldMask, BitField.extract_mod le]
  simp only [addrToGenPpa, AddrFormat.pgMask, AddrFormat.lunMask, AddrFormat.chMask, AddrFormat.plnMask,
    AddrFormat.secMask]
  -- every in-line field ends at or below the block offset
  rw [low, low, low, low, low]
  all_goals
    simp only [AddrFormat.blkOffset, AddrFormat.pgOffset, AddrFormat.lunOffset, AddrFormat.chOffset,
      AddrFormat.plnOffset, AddrFormat.secOffset]
    omega

end MStream.Address
