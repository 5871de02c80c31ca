import LineCalc.Binary64.Rounding

/-!
# Decimals

A decimal is a whole number times a power of ten. It stands between the text of a number and the
binary64 number: texts are read as decimals, and numbers are written as decimals. A number is
written with the fewest digits that read back as the same number, and of the decimals with that many
digits with the nearest one.

* `Decimal.ratio` is the exact value, a quotient of two whole numbers of units.
* `Decimal.nearest` reads a decimal as the nearest magnitude, ties to even, for any number of
  digits. It is `Magnitude.nearest` of the exact value. Two tests come before, so that no power of
  ten is computed whose size only the exponent bounds: a decimal from `10 ^ 400` is out of range,
  and one below `2 ^ -1100` is zero.
* `Decimal.plain` writes a decimal by position, without an exponent.
* `Decimal.scientific` writes it with one digit before the point and an exponent.
* `Decimal.onGrid` looks for a decimal whose last digit counts a given power of ten. Only the two
  neighbours of the exact value on that grid can be the nearest; the nearer one is tried first, and
  of two equally near ones the greater.
* `Decimal.shortest` tries the grids of one digit, two digits and so on. Seventeen digits are
  always enough; the exact decimal stands behind them, so that the function is total.
* `Decimal.nearest_shortest`: what is written reads back as the magnitude it came from.

There are three ways in which the calculator writes a number. All write `NaN`, `inf` and `-inf` for
what is not finite, and a zero with its sign.

* `Binary64.plain` is the text of a result, as `write_outcome` of `abacus` shows it: the
  shortest decimal by position, never with an exponent, and without a point if the number is whole.
* `Binary64.fixed` is the text in listings, which come from `dump` there: three places, the exact
  value rounded to them, ties to even.
* `Binary64.explicit` is the text inside a token, as a `ParseError` shows it: the shortest decimal,
  always with a point or an exponent. Numbers below `10 ^ -4` and from `10 ^ 16` get the exponent.
-/

namespace LineCalc

/-! ## Reading and writing -/

/-- A one with the given number of zeros behind it. -/
def powerOfTen (zeros : Nat) : Nat := Nat.pow 10 zeros

theorem powerOfTen_zero : powerOfTen 0 = 1 := rfl

theorem powerOfTen_pos (zeros : Nat) : 0 < powerOfTen zeros := Nat.pow_pos (by decide)

/-- The number `digits * 10 ^ exponent`. -/
structure Decimal where
  /-- All digits, read as one whole number. -/
  digits : Nat
  /-- The power of ten that the last digit counts. -/
  exponent : Int
  deriving DecidableEq

namespace Decimal

/-- The exact value as numerator and denominator, in units of `2 ^ -1074`. -/
def ratio (d : Decimal) : Nat × Nat :=
  (d.digits * powerOfTen d.exponent.toNat * Magnitude.unitsPerOne, powerOfTen (-d.exponent).toNat)

/-- The magnitude nearest to a decimal, ties to even; nothing if it is out of range. -/
def nearest (d : Decimal) : Option Magnitude :=
  if d.digits = 0 then some .zero
  else if 400 < d.exponent then none
  else if (d.digits.log2 : Int) + 1101 < 3 * -d.exponent then some .zero
  else Magnitude.nearest d.ratio.1 d.ratio.2

/-! ## Writing -/

/-- The digits of the whole number, most significant first. -/
def figures (d : Decimal) : List Char := Nat.toDigits 10 d.digits

/-- The decimal by position: zeros fill the places up to the point on either side, and a number
below one has a zero before the point. -/
def plain (d : Decimal) : List Char :=
  let figures := d.figures
  match d.exponent with
  | .ofNat zeros => figures ++ List.replicate zeros '0'
  | .negSucc n =>
    let places := n + 1
    if places < figures.length then
      figures.take (figures.length - places) ++ '.' :: figures.drop (figures.length - places)
    else '0' :: '.' :: List.replicate (places - figures.length) '0' ++ figures

/-- The power of ten that the first digit counts. -/
def leadingExponent (d : Decimal) : Int := d.exponent + d.figures.length - 1

/-- A whole number with its sign, if that is negative. -/
def signedFigures : Int → List Char
  | .ofNat n => Nat.toDigits 10 n
  | .negSucc n => '-' :: Nat.toDigits 10 (n + 1)

/-- The decimal with one digit before the point, the other digits after it, and an exponent. -/
def scientific (d : Decimal) : List Char :=
  let fraction := match d.figures with
    | [] => []
    | [figure] => [figure]
    | figure :: more => figure :: '.' :: more
  fraction ++ 'e' :: signedFigures d.leadingExponent

end Decimal

/-! ## The shortest decimal -/

namespace Decimal

/-- The power of ten that the first digit of a positive magnitude counts. -/
def orderOf (m : Magnitude) : Int :=
  ((Nat.toDigits 10 (m.units * powerOfTen 340 / Magnitude.unitsPerOne)).length : Int) - 341

/-- The two neighbours of a magnitude among the multiples of `10 ^ exponent`, the nearer first. -/
def neighbours (m : Magnitude) (figures : Nat) (exponent : Int) : List Decimal :=
  let num := m.units * powerOfTen (-exponent).toNat
  let den := Magnitude.unitsPerOne * powerOfTen exponent.toNat
  let quotient := num / den
  let below : Decimal := ⟨quotient, exponent⟩
  let above : Decimal :=
    if quotient + 1 = powerOfTen figures then ⟨1, exponent + figures⟩ else ⟨quotient + 1, exponent⟩
  if 2 * (num % den) < den then [below, above] else [above, below]

/-- A decimal of at most `figures` digits that reads back as the magnitude, if there is one. -/
def onGrid (m : Magnitude) (figures : Nat) : Option Decimal :=
  (neighbours m figures (orderOf m + 1 - figures)).find? fun d => d.nearest == some m

/-- The digits of `2 ^ -1074`, which has 1074 places. -/
def unitDigits : Nat := Nat.pow 5 1074

/-- The decimal of the same value. -/
def exact (m : Magnitude) : Decimal := ⟨m.units * unitDigits, -1074⟩

/-- The most digits that a shortest decimal can need. -/
def figuresNeeded : Nat := 17

/-- The decimal with the fewest digits that reads back as the magnitude. -/
def shortest (m : Magnitude) : Decimal :=
  if m = .zero then ⟨0, 0⟩
  else ((List.range figuresNeeded).findSome? fun n => onGrid m (n + 1)).getD (exact m)

/-! ## What is written reads back -/

theorem nearest_of_onGrid {m : Magnitude} {figures : Nat} {d : Decimal}
    (h : onGrid m figures = some d) : d.nearest = some m := by
  have hd := List.find?_some h
  simpa using hd

theorem unitDigits_pos : 0 < unitDigits := by decide +kernel

theorem le_log2_unitDigits : 2493 ≤ unitDigits.log2 := by decide +kernel

theorem unitDigits_mul : unitDigits * Magnitude.unitsPerOne = powerOfTen 1074 := by decide +kernel

theorem log2_le_log2_mul {a b : Nat} (ha : 0 < a) (hb : 0 < b) : b.log2 ≤ (a * b).log2 := by
  rw [Nat.le_log2 (Nat.ne_of_gt (Nat.mul_pos ha hb))]
  exact Nat.le_trans (Nat.log2_self_le (Nat.ne_of_gt hb)) (Nat.le_mul_of_pos_left b ha)

theorem ratio_exact (m : Magnitude) :
    (exact m).ratio = (m.units * powerOfTen 1074, powerOfTen 1074) := by
  have hd : (exact m).digits = m.units * unitDigits := rfl
  have hz : (exact m).exponent.toNat = 0 := rfl
  have hp : (-(exact m).exponent).toNat = 1074 := rfl
  unfold ratio
  rw [hd, hz, hp, powerOfTen_zero, Nat.mul_one, Nat.mul_assoc, unitDigits_mul]

theorem nearest_exact {m : Magnitude} (h : m ≠ .zero) : (exact m).nearest = some m := by
  have hu : 0 < m.units := Nat.pos_of_ne_zero fun hz => h (Magnitude.units_eq_zero_iff.1 hz)
  have hd : (exact m).digits ≠ 0 := Nat.ne_of_gt (Nat.mul_pos hu unitDigits_pos)
  have hl : 2493 ≤ (exact m).digits.log2 :=
    Nat.le_trans le_log2_unitDigits (log2_le_log2_mul hu unitDigits_pos)
  have he : (exact m).exponent = -1074 := rfl
  unfold nearest
  rw [if_neg hd, if_neg (by omega), if_neg (by omega), ratio_exact]
  have hp := powerOfTen_pos 1074
  generalize powerOfTen 1074 = den at hp
  exact m.nearest_units_mul hp

/-- What is written reads back as the magnitude it came from. -/
theorem nearest_shortest (m : Magnitude) : (shortest m).nearest = some m := by
  unfold shortest
  split
  · rename_i h
    subst h
    rfl
  · rename_i h
    cases hs : (List.range figuresNeeded).findSome? fun n => onGrid m (n + 1) with
    | none => exact nearest_exact h
    | some d =>
      obtain ⟨n, -, hn⟩ := List.exists_of_findSome?_eq_some hs
      exact nearest_of_onGrid hn

end Decimal

/-! ## Texts of numbers -/

namespace Binary64

/-- The text of a number whose finite magnitudes are written by `write`. -/
def charsWith (write : Magnitude → List Char) : Binary64 → List Char
  | nan => ['N', 'a', 'N']
  | infinite false => ['i', 'n', 'f']
  | infinite true => ['-', 'i', 'n', 'f']
  | finite false m => write m
  | finite true m => '-' :: write m

/-- The shortest decimal by position. -/
def plainChars (x : Binary64) : List Char := x.charsWith fun m => (Decimal.shortest m).plain

/-- The places of a number in a listing. -/
def listingPlaces : Nat := 3

/-- The value rounded to the places of a listing. -/
def fixedChars (x : Binary64) : List Char :=
  x.charsWith fun m =>
    let scaled := nearestEven (m.units * powerOfTen listingPlaces) Magnitude.unitsPerOne
    Decimal.plain ⟨scaled, -listingPlaces⟩

/-- A decimal with a point or an exponent, whatever its value. -/
def explicitDecimal (d : Decimal) : List Char :=
  if d.digits ≠ 0 ∧ (d.leadingExponent < -4 ∨ 16 ≤ d.leadingExponent) then d.scientific
  else if 0 ≤ d.exponent then d.plain ++ ['.', '0']
  else d.plain

/-- The shortest decimal with a point or an exponent. -/
def explicitChars (x : Binary64) : List Char := x.charsWith fun m => explicitDecimal (.shortest m)

/-- The text of a result. -/
def plain (x : Binary64) : String := String.ofList x.plainChars

/-- The text in a listing. -/
def fixed (x : Binary64) : String := String.ofList x.fixedChars

/-- The text inside a token. -/
def explicit (x : Binary64) : String := String.ofList x.explicitChars

end Binary64

end LineCalc
