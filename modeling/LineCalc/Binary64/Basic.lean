/-!
# Binary64 numbers

The numbers of the calculator are the IEEE 754 binary64 numbers. They are given here exactly, by
natural numbers, so that a statement about their arithmetic is a statement about integers. In the
specification they are the 64-bit floating-point values, and `Binary64.nan` is `SENTINEL` (10.4).

* `Magnitude` is a finite absolute value. It is held as the word of its lower 63 bits, so a greater
  word is a greater value.
* `Magnitude.units` is the value of a magnitude, counted in units of `2 ^ -1074`, the least
  positive magnitude. Every finite binary64 number is a whole number of units. It depends on the
  word alone: `Magnitude.unitsOf`.
* `Binary64` is a number: a finite one with its sign, so that both zeros exist, an infinity, or the
  one value that is not a number.
* `Binary64.ofBits` and `Binary64.toBits` go from and to the 64-bit words of the format. All words
  that denote no number are read as the one `nan`.
-/

namespace LineCalc

/-- A finite absolute value, as the word of its exponent and fraction bits. -/
structure Magnitude where
  /-- The biased exponent above 52 bits of fraction. -/
  code : Nat
  /-- The exponent field is not the one of the infinities. -/
  code_lt : code < 2047 <<< 52
  deriving DecidableEq

namespace Magnitude

/-- The magnitude of both zeros. -/
def zero : Magnitude := ⟨0, by decide⟩

/-- The value of a word in units of `2 ^ -1074`: below the second exponent field the word itself,
above it the fraction with its hidden bit, scaled by the exponent. Words beyond the greatest
magnitude go on in the same way. -/
def unitsOf (code : Nat) : Nat :=
  if code < 1 <<< 52 then code
  else ((1 <<< 52) + code % (1 <<< 52)) <<< ((code >>> 52) - 1)

/-- The value of a magnitude in units of `2 ^ -1074`. -/
def units (m : Magnitude) : Nat := unitsOf m.code

/-- How many units make one. -/
def unitsPerOne : Nat := 1 <<< 1074

theorem units_zero : zero.units = 0 := rfl

theorem units_eq_zero_iff {m : Magnitude} : m.units = 0 ↔ m = zero := by
  constructor
  · intro h
    unfold units unitsOf at h
    split at h
    · cases m
      simp_all [zero]
    · rw [Nat.shiftLeft_eq] at h
      rcases Nat.mul_eq_zero.1 h with h | h
      · omega
      · exact absurd h (Nat.ne_of_gt (Nat.two_pow_pos _))
  · rintro rfl
    rfl

end Magnitude

/-- A binary64 number. -/
inductive Binary64 where
  /-- The value of an operation without a result. -/
  | nan
  /-- An infinity. -/
  | infinite (negative : Bool)
  /-- A finite number, zero with either sign included. -/
  | finite (negative : Bool) (magnitude : Magnitude)
  deriving DecidableEq

namespace Binary64

/-- The zero of the given sign. -/
def zero (negative : Bool) : Binary64 := finite negative .zero

instance : Inhabited Binary64 := ⟨zero false⟩

/-- Whether the value is not a number. -/
def isNaN : Binary64 → Bool
  | nan => true
  | _ => false

/-- Whether the number is finite. -/
def isFinite : Binary64 → Bool
  | finite _ _ => true
  | _ => false

/-- Whether the number is one of the two zeros. -/
def isZero : Binary64 → Bool
  | finite _ m => m.code == 0
  | _ => false

/-- Whether the sign of a number is set; zero may have one. -/
def isNegative : Binary64 → Bool
  | finite s _ => s
  | infinite s => s
  | nan => false

/-- The exact value of a number in units of `2 ^ -1074`; zero for what is not finite. -/
def units : Binary64 → Int
  | finite false m => m.units
  | finite true m => -m.units
  | _ => 0

theorem isZero_iff {x : Binary64} : x.isZero = true ↔ ∃ s, x = zero s := by
  constructor
  · intro h
    match x, h with
    | finite s ⟨c, hc⟩, h =>
      refine ⟨s, ?_⟩
      simp only [isZero, beq_iff_eq] at h
      subst h
      rfl
  · rintro ⟨s, rfl⟩
    rfl

/-! ## Words -/

/-- Reads a 64-bit word: a sign bit, eleven bits of exponent and 52 bits of fraction. -/
def ofBits (word : UInt64) : Binary64 :=
  let negative := decide (1 <<< 63 ≤ word.toNat)
  let code := word.toNat % (1 <<< 63)
  if h : code < 2047 <<< 52 then finite negative ⟨code, h⟩
  else if code = 2047 <<< 52 then infinite negative
  else nan

/-- The bit that a sign sets. -/
def signBit (negative : Bool) : Nat := if negative then 1 <<< 63 else 0

/-- Writes a number as a 64-bit word; what is not a number gets the positive quiet word. -/
def toBits : Binary64 → UInt64
  | nan => 0x7ff8000000000000
  | infinite negative => UInt64.ofNat (signBit negative + (2047 <<< 52))
  | finite negative m => UInt64.ofNat (signBit negative + m.code)

/-- No number is lost in its word. -/
theorem ofBits_toBits (x : Binary64) : ofBits x.toBits = x := by
  match x with
  | nan => decide
  | infinite false => decide
  | infinite true => decide
  | finite false ⟨c, hc⟩ =>
    have h : (UInt64.ofNat (signBit false + c)).toNat = c := by
      simp only [signBit, UInt64.toNat_ofNat']
      simp
      omega
    simp only [ofBits, toBits, h, Nat.mod_eq_of_lt (by omega : c < 1 <<< 63)]
    rw [dif_pos hc]
    congr 1
    simp
    omega
  | finite true ⟨c, hc⟩ =>
    have h : (UInt64.ofNat (signBit true + c)).toNat = (1 <<< 63) + c := by
      simp only [signBit, UInt64.toNat_ofNat']
      simp
      omega
    have e : ((1 <<< 63) + c) % (1 <<< 63) = c := by
      rw [Nat.add_mod_left]
      exact Nat.mod_eq_of_lt (by omega)
    simp only [ofBits, toBits, h, e]
    rw [dif_pos hc]
    congr 1
    simp

/-! ## Sign operations -/

/-- The opposite number; the sign of a zero changes too. -/
def neg : Binary64 → Binary64
  | nan => nan
  | infinite s => infinite (!s)
  | finite s m => finite (!s) m

instance : Neg Binary64 := ⟨neg⟩

/-- The absolute value. -/
def abs : Binary64 → Binary64
  | nan => nan
  | infinite _ => infinite false
  | finite _ m => finite false m

theorem neg_neg (x : Binary64) : - -x = x := by
  cases x <;> simp [Neg.neg, neg]

theorem abs_neg (x : Binary64) : (-x).abs = x.abs := by
  cases x <;> rfl

end Binary64

end LineCalc
