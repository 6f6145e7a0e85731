/-!
# The range of double precision

A double keeps 53 significant bits. `nearest` is the double closest to a natural
number, and `bound` the least number whose nearest double would be `2 ^ 1024`,
which is out of range.

Whether a decimal `coefficient · 10 ^ scale` is in range depends on how it is
evaluated. `isInRange` rounds its exact value once. `isProductInRange` works as a
reader does that keeps the digits in a machine word: digits that do not fit are
dropped, and the coefficient, the power of ten and their product are rounded one
after the other. The two answers differ only next to `bound`.
-/

namespace InfoFlow.Double

/-- The spacing of doubles from the greatest power of two up to `n`. -/
def spacing (n : Nat) : Nat := Nat.pow 2 (n.log2 + 1 - 53)

/-- The double nearest to `n`; of two that are equally near, the one whose last
significant bit is zero. -/
def nearest (n : Nat) : Nat :=
  let unit := spacing n
  let below := n / unit
  let rest := n % unit
  if 2 * rest < unit ∨ 2 * rest = unit ∧ below % 2 = 0 then below * unit
  else (below + 1) * unit

/-- Where rounding leaves the range: half a unit above the greatest double. -/
def bound : Nat := Nat.pow 2 1024 - Nat.pow 2 970

/-- Whether `coefficient · 10 ^ scale`, rounded once, is in range. -/
def isInRange (coefficient : Nat) (scale : Int) : Bool :=
  let size : Int := (Nat.toDigits 10 coefficient).length + scale
  coefficient = 0 || size ≤ 0 ||
    size ≤ 309 && (if scale < 0 then coefficient < bound * Nat.pow 10 scale.natAbs
      else coefficient * Nat.pow 10 scale.toNat < bound)

/-- The first digits of a coefficient, as many as fit 64 bits, and the scale
that goes with them. -/
def leading (coefficient : Nat) (scale : Int) : Nat × Int :=
  if coefficient < UInt64.size then (coefficient, scale)
  else leading (coefficient / 10) (scale + 1)
termination_by coefficient
decreasing_by
  have positive : 0 < coefficient :=
    Nat.lt_of_lt_of_le (by decide : 0 < UInt64.size) (Nat.not_lt.1 ‹¬ coefficient < UInt64.size›)
  exact Nat.div_lt_self positive (by decide)

/-- Whether `coefficient · 10 ^ scale` is in range when the coefficient is cut
to its leading digits and every step rounds. A quotient by a power of ten always
is; powers of ten end with the greatest that is a double, `10 ^ 308`. -/
def isProductInRange (coefficient : Nat) (scale : Int) : Bool :=
  let (digits, scale) := leading coefficient scale
  digits = 0 || scale < 0 ||
    scale ≤ 308 && nearest digits * nearest (Nat.pow 10 scale.toNat) < bound

end InfoFlow.Double
