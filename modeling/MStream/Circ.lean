import Mathlib

/-!
Circular-buffer arithmetic over a fixed ring of `size` slots, in the form of
include/linux/circ_buf.h. `circCnt head tail` counts the slots from `tail` up
to (not including) `head`; `circSpace head tail` counts the free slots a
producer at `head` may fill before it reaches `tail`, one slot always kept
empty. A position is advanced by `(pos + n) % size`.

Positions are kept below `size`. For a power-of-two `size` the kernel's masked
unsigned form `(head - tail) & (size - 1)` agrees with `circCnt` on such
positions, which is the only way the ring buffers use it.

The lemmas relate counts along a cyclic order of positions: advancing the head
adds to a count, advancing the tail subtracts from it, and counts along
`a → b → c` add up when they stay below one turn of the ring.
-/

namespace MStream.Circ

variable {size : Nat}

def circCnt (head tail size : Nat) : Nat := (head + size - tail) % size

def circSpace (head tail size : Nat) : Nat := circCnt tail (head + 1) size

def advance (pos n size : Nat) : Nat := (pos + n) % size

/-- The window of slots from `lo` up to (not including) `hi`. -/
def InWindow (lo hi size pos : Nat) : Prop := circCnt pos lo size < circCnt hi lo size

instance (lo hi size pos : Nat) : Decidable (InWindow lo hi size pos) :=
  inferInstanceAs (Decidable (_ < _))

theorem mod_of_lt_two {x : Nat} (h : x < 2 * size) :
    x % size = if x < size then x else x - size := by
  split
  · exact Nat.mod_eq_of_lt ‹_›
  · rw [Nat.mod_eq_sub_mod (by omega), Nat.mod_eq_of_lt (by omega)]

theorem circCnt_eq {head tail : Nat} (hh : head < size) (ht : tail < size) :
    circCnt head tail size = if tail ≤ head then head - tail else head + size - tail := by
  unfold circCnt
  rw [mod_of_lt_two (by omega)]
  split <;> split <;> omega

theorem advance_eq {pos n : Nat} (hp : pos < size) (hn : n ≤ size) :
    advance pos n size = if pos + n < size then pos + n else pos + n - size := by
  unfold advance
  rw [mod_of_lt_two (by omega)]

theorem advance_lt {pos n : Nat} (hs : 0 < size) : advance pos n size < size :=
  Nat.mod_lt _ hs

theorem circCnt_lt {head tail : Nat} (hs : 0 < size) : circCnt head tail size < size :=
  Nat.mod_lt _ hs

@[simp] theorem circCnt_self {pos : Nat} (hp : pos < size) : circCnt pos pos size = 0 := by
  rw [circCnt_eq hp hp]
  simp

theorem circSpace_eq {head tail : Nat} (hh : head < size) (ht : tail < size) :
    circSpace head tail size = size - 1 - circCnt head tail size := by
  unfold circSpace
  rw [circCnt_eq hh ht]
  unfold circCnt
  rw [mod_of_lt_two (by omega)]
  split <;> split <;> omega

/-- Moving the head forward by `n` slots adds `n` to the count, as long as the
count stays below one turn. -/
theorem circCnt_advance_head {head tail n : Nat} (hh : head < size) (ht : tail < size)
    (fits : circCnt head tail size + n < size) :
    circCnt (advance head n size) tail size = circCnt head tail size + n := by
  have count := circCnt_eq hh ht
  have moved := advance_eq (n := n) hh (by omega)
  rw [circCnt_eq (advance_lt (by omega)) ht]
  split_ifs at count moved ⊢ <;> omega

theorem circCnt_advance_tail {head tail n : Nat} (hh : head < size) (ht : tail < size)
    (within : n ≤ circCnt head tail size) :
    circCnt head (advance tail n size) size = circCnt head tail size - n := by
  have bound : circCnt head tail size < size := circCnt_lt (by omega)
  have count := circCnt_eq hh ht
  have moved := advance_eq (n := n) ht (by omega)
  rw [circCnt_eq hh (advance_lt (by omega))]
  split_ifs at count moved ⊢ <;> omega

/-- Counts along the cyclic order `a → b → c` add up below one turn. -/
theorem circCnt_trans {a b c : Nat} (ha : a < size) (hb : b < size) (hc : c < size)
    (fits : circCnt a b size + circCnt b c size < size) :
    circCnt a c size = circCnt a b size + circCnt b c size := by
  have ab := circCnt_eq ha hb
  have bc := circCnt_eq hb hc
  rw [circCnt_eq ha hc]
  split_ifs at ab bc ⊢ <;> omega

theorem circCnt_advance_self {lo i : Nat} (hl : lo < size) (hi : i < size) :
    circCnt (advance lo i size) lo size = i := by
  have := circCnt_advance_head (n := i) hl hl (by rw [circCnt_self hl]; omega)
  rwa [circCnt_self hl, Nat.zero_add] at this

theorem advance_add {pos m n : Nat} :
    advance (advance pos m size) n size = advance pos (m + n) size := by
  unfold advance
  rw [Nat.add_mod, Nat.mod_mod, ← Nat.add_mod, Nat.add_assoc]

theorem circCnt_eq_zero_iff {a b : Nat} (ha : a < size) (hb : b < size) :
    circCnt a b size = 0 ↔ a = b := by
  rw [circCnt_eq ha hb]
  split <;> omega

theorem circCnt_advance_one_self {lo : Nat} (hl : lo < size) :
    circCnt lo (advance lo 1 size) size = size - 1 := by
  have moved := advance_eq (n := 1) hl (by omega)
  rw [circCnt_eq hl (advance_lt (by omega))]
  split_ifs at moved ⊢ <;> omega

theorem advance_zero {pos : Nat} (hp : pos < size) : advance pos 0 size = pos :=
  Nat.mod_eq_of_lt hp

theorem circCnt_advance_head_mod {head tail n : Nat} (hh : head < size) (ht : tail < size)
    (hn : n ≤ size) :
    circCnt (advance head n size) tail size = (circCnt head tail size + n) % size := by
  have count := circCnt_eq hh ht
  have moved := advance_eq hh hn
  rw [circCnt_eq (advance_lt (by omega)) ht, mod_of_lt_two (by split_ifs at count <;> omega)]
  split_ifs at count moved ⊢ <;> omega

theorem circCnt_prev {head tail : Nat} (hh : head < size) (ht : tail < size) (ne : head ≠ tail) :
    circCnt (if head = 0 then size - 1 else head - 1) tail size = circCnt head tail size - 1 := by
  have prevLt : (if head = 0 then size - 1 else head - 1) < size := by split <;> omega
  rw [circCnt_eq prevLt ht, circCnt_eq hh ht]
  split_ifs <;> omega

theorem inWindow_prev {lo head : Nat} (hh : head < size) (hl : lo < size) (ne : head ≠ lo) :
    InWindow lo head size (if head = 0 then size - 1 else head - 1) := by
  have nonzero : circCnt head lo size ≠ 0 := fun zero => ne ((circCnt_eq_zero_iff hh hl).mp zero)
  unfold InWindow
  rw [circCnt_prev hh hl ne]
  omega

/-- A window only grows when its upper end moves forward within one turn. -/
theorem inWindow_advance_hi {lo hi pos n : Nat} (hh : hi < size) (hl : lo < size)
    (fits : circCnt hi lo size + n < size) (inside : InWindow lo hi size pos) :
    InWindow lo (advance hi n size) size pos := by
  unfold InWindow at inside ⊢
  rw [circCnt_advance_head hh hl fits]
  omega

end MStream.Circ
