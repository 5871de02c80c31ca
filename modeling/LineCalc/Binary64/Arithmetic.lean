import LineCalc.Binary64.Rounding

/-!
# Binary64 arithmetic

The five operations of the calculator. Each finite result is the exact one, rounded once by
`Binary64.ofRatio`; the remainder is exact and is not rounded at all. This is the arithmetic of the
specification (4.2 and 10.4), which `apply_binary` of `abacus` computes where it raises no error.

* A sum that is exactly zero is positive, unless both terms are negative zeros.
* Products and quotients have the sign that their operands' signs give, also as zeros and
  infinities.
* The remainder is what truncated division leaves: it has the sign of the dividend, also when it is
  zero, and a finite dividend divided by an infinity is its own remainder.
* What has no value is `nan`: opposite infinities added, zero times infinity, a quotient of two
  zeros or two infinities, the remainder of an infinity or by a zero.
-/

namespace LineCalc

namespace Binary64

/-- The sum. -/
def add : Binary64 → Binary64 → Binary64
  | nan, _ => nan
  | _, nan => nan
  | infinite s, infinite t => if s = t then infinite s else nan
  | infinite s, finite _ _ => infinite s
  | finite _ _, infinite t => infinite t
  | x@(finite s _), y@(finite t _) =>
    let sum := x.units + y.units
    if sum = 0 then zero (s && t) else ofRatio (decide (sum < 0)) sum.natAbs 1

/-- The difference: the sum with the opposite. -/
def sub (x y : Binary64) : Binary64 := add x (-y)

/-- The product. -/
def mul : Binary64 → Binary64 → Binary64
  | nan, _ => nan
  | _, nan => nan
  | infinite s, infinite t => infinite (s != t)
  | infinite s, y@(finite t _) => if y.isZero then nan else infinite (s != t)
  | x@(finite s _), infinite t => if x.isZero then nan else infinite (s != t)
  | finite s m, finite t n => ofRatio (s != t) (m.units * n.units) Magnitude.unitsPerOne

/-- The quotient. -/
def div : Binary64 → Binary64 → Binary64
  | nan, _ => nan
  | _, nan => nan
  | infinite _, infinite _ => nan
  | infinite s, finite t _ => infinite (s != t)
  | finite s _, infinite t => zero (s != t)
  | x@(finite s m), y@(finite t n) =>
    if y.isZero then (if x.isZero then nan else infinite (s != t))
    else ofRatio (s != t) (m.units * Magnitude.unitsPerOne) n.units

/-- The remainder of truncated division. -/
def mod : Binary64 → Binary64 → Binary64
  | nan, _ => nan
  | _, nan => nan
  | infinite _, _ => nan
  | finite s m, infinite _ => finite s m
  | finite s m, y@(finite _ n) => if y.isZero then nan else ofRatio s (m.units % n.units) 1

instance : Add Binary64 := ⟨add⟩
instance : Sub Binary64 := ⟨sub⟩
instance : Mul Binary64 := ⟨mul⟩
instance : Div Binary64 := ⟨div⟩
instance : Mod Binary64 := ⟨mod⟩

/-! ## What is not a number stays so -/

theorem nan_add (y : Binary64) : nan + y = nan := rfl
theorem add_nan (x : Binary64) : x + nan = nan := by cases x <;> rfl
theorem nan_sub (y : Binary64) : nan - y = nan := rfl
theorem sub_nan (x : Binary64) : x - nan = nan := by cases x <;> rfl
theorem nan_mul (y : Binary64) : nan * y = nan := rfl
theorem mul_nan (x : Binary64) : x * nan = nan := by cases x <;> rfl
theorem nan_div (y : Binary64) : nan / y = nan := rfl
theorem div_nan (x : Binary64) : x / nan = nan := by cases x <;> rfl
theorem nan_mod (y : Binary64) : nan % y = nan := rfl
theorem mod_nan (x : Binary64) : x % nan = nan := by cases x <;> rfl

end Binary64

end LineCalc
