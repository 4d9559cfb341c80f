import Mathlib

/-!
Words packed from bit fields. A field is a value stored at a bit offset; a word
is the OR of its fields' values, each shifted to its offset, and a field is read
back by masking its bits and shifting them down. A word packed from fields in
disjoint bit ranges gives each field back (`extract_pack`), and packing again
the fields read from a word, when they tile its low bits, gives the word back
(`pack_extract`). Both rest on one description of the packed word's bits
(`testBit_pack`).
-/

namespace MStream.BitField

structure Field where
  value : Nat
  offset : Nat
  width : Nat
  deriving DecidableEq, Repr

namespace Field

def Fits (f : Field) : Prop := f.value < 2 ^ f.width

def Below (f g : Field) : Prop := g.offset + g.width ≤ f.offset

def Apart (f g : Field) : Prop := f.Below g ∨ g.Below f

def Covers (f : Field) (i : Nat) : Prop := f.offset ≤ i ∧ i < f.offset + f.width

instance : Std.Symm Apart := ⟨fun _ _ apart => apart.symm⟩

end Field

/-- The fields ORed onto `acc`, each shifted to its offset, first field first. -/
def pack (acc : Nat) (fs : List Field) : Nat := fs.foldl (fun acc f => acc ||| f.value <<< f.offset) acc

/-- `(x & mask) >> offset` for the mask of the `width` bits from `offset`. -/
def extract (x offset width : Nat) : Nat := (x &&& (2 ^ width - 1) <<< offset) >>> offset

theorem testBit_of_fits {v w i : Nat} (fits : v < 2 ^ w) (le : w ≤ i) : v.testBit i = false :=
  Nat.testBit_lt_two_pow (Nat.lt_of_lt_of_le fits (Nat.pow_le_pow_right (by norm_num) le))

@[simp] theorem testBit_extract (x offset width j : Nat) :
    (extract x offset width).testBit j = (decide (j < width) && x.testBit (offset + j)) := by
  simp only [extract, Nat.testBit_shiftRight, Nat.testBit_and, Nat.testBit_shiftLeft,
    Nat.testBit_two_pow_sub_one]
  rw [show offset + j - offset = j by omega]
  cases x.testBit (offset + j) <;> simp

theorem testBit_pack (acc : Nat) (fs : List Field) (i : Nat) :
    (pack acc fs).testBit i =
      (acc.testBit i || fs.any fun f => decide (f.offset ≤ i) && f.value.testBit (i - f.offset)) := by
  induction fs generalizing acc with
  | nil => simp [pack]
  | cons f rest ih =>
    simp only [pack, List.foldl_cons] at ih ⊢
    rw [ih, Nat.testBit_or, Nat.testBit_shiftLeft, List.any_cons, Bool.or_assoc]

/-- A field of a word packed from fields in disjoint ranges reads back its value. -/
theorem extract_pack {fs : List Field} {f : Field} (fits : ∀ g ∈ fs, g.Fits)
    (apart : fs.Pairwise Field.Apart) (mem : f ∈ fs) :
    extract (pack 0 fs) f.offset f.width = f.value := by
  apply Nat.eq_of_testBit_eq
  intro j
  rw [testBit_extract, testBit_pack, Nat.zero_testBit, Bool.false_or]
  by_cases inside : j < f.width
  · -- bit `offset + j` is `f`'s own: a field above starts later, one below ends before
    have only : (fs.any fun g => decide (g.offset ≤ f.offset + j) && g.value.testBit (f.offset + j - g.offset)) =
        f.value.testBit j := by
      apply Bool.eq_iff_iff.mpr
      rw [List.any_eq_true]
      constructor
      · rintro ⟨g, gmem, set⟩
        by_cases same : g = f
        · subst same
          simpa using set
        rcases apart.forall gmem mem same with below | below
        · simp only [Field.Below] at below
          simp [show ¬ g.offset ≤ f.offset + j by omega] at set
        · simp only [Field.Below] at below
          simp [testBit_of_fits (fits g gmem) (show g.width ≤ f.offset + j - g.offset by omega)] at set
      · intro set
        exact ⟨f, mem, by simpa using set⟩
    simp [inside, only]
  · simp [inside, testBit_of_fits (fits f mem) (Nat.le_of_not_lt inside)]

/-- A word packed from fields that fit below bit `n` is below `2 ^ n`. -/
theorem pack_lt {fs : List Field} {n : Nat} (fits : ∀ g ∈ fs, g.Fits)
    (below : ∀ g ∈ fs, g.offset + g.width ≤ n) : pack 0 fs < 2 ^ n := by
  apply Nat.lt_pow_two_of_testBit
  intro i hi
  rw [testBit_pack, Nat.zero_testBit, Bool.false_or, List.any_eq_false]
  intro g gmem
  have high := below g gmem
  by_cases lo : g.offset ≤ i
  · simp [lo, testBit_of_fits (fits g gmem) (show g.width ≤ i - g.offset by omega)]
  · simp [lo]

/-- Packing again the fields read from a word that tile its low `B` bits gives
the word. -/
theorem pack_extract {fs : List Field} {x B : Nat} (values : ∀ g ∈ fs, g.value = extract x g.offset g.width)
    (covers : ∀ i < B, ∃ g ∈ fs, g.Covers i) (small : x < 2 ^ B) : pack 0 fs = x := by
  apply Nat.eq_of_testBit_eq
  intro i
  rw [testBit_pack, Nat.zero_testBit, Bool.false_or]
  -- a field's bit at `i` is `x`'s bit there if the field covers `i`, and clear otherwise
  have bit : ∀ g ∈ fs, (decide (g.offset ≤ i) && g.value.testBit (i - g.offset)) = true ↔
      g.Covers i ∧ x.testBit i = true := by
    intro g gmem
    rw [values g gmem]
    by_cases lo : g.offset ≤ i
    · simp [Field.Covers, lo, show g.offset + (i - g.offset) = i by omega, show i - g.offset < g.width ↔ i < g.offset + g.width by omega]
    · simp [Field.Covers, lo]
  apply Bool.eq_iff_iff.mpr
  rw [List.any_eq_true]
  constructor
  · rintro ⟨g, gmem, set⟩
    exact ((bit g gmem).mp set).2
  · intro set
    have inside : i < B := by
      by_contra outside
      rw [testBit_of_fits small (Nat.le_of_not_lt outside)] at set
      cases set
    obtain ⟨g, gmem, cover⟩ := covers i inside
    exact ⟨g, gmem, (bit g gmem).mpr ⟨cover, set⟩⟩

theorem and_one_shiftLeft_of_lt {x n : Nat} (lt : x < 2 ^ n) : x &&& 1 <<< n = 0 := by
  apply Nat.eq_of_testBit_eq
  intro i
  simp only [Nat.testBit_and, Nat.testBit_shiftLeft, Nat.zero_testBit]
  by_cases high : n ≤ i
  · simp [testBit_of_fits lt high]
  · simp [high]

theorem extract_mod {x offset width B : Nat} (le : offset + width ≤ B) :
    extract (x % 2 ^ B) offset width = extract x offset width := by
  apply Nat.eq_of_testBit_eq
  intro j
  simp only [testBit_extract, Nat.testBit_mod_two_pow]
  by_cases inside : j < width
  · simp [inside, show offset + j < B by omega]
  · simp [inside]

end MStream.BitField
