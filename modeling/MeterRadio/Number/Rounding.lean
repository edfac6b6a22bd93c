/-
Module: MeterRadio.Number.Rounding
Purpose: Rounding of exact natural numbers to a count of significant bits, to the nearest value
  and from the middle to the even one.
Main exports: Number.tenTo, Number.roundTo, Number.roundDiv, Number.sqrtTo
-/

namespace MeterRadio.Number

/-- How many binary digits a number has; zero has none. -/
def bitLength (n : Nat) : Nat :=
  if n = 0 then 0 else n.log2 + 1

/-- Ten to a power. -/
def tenTo (power : Nat) : Nat := Nat.pow 10 power

/-- The nearest number to `num / den`, the even one of two equally near. -/
def roundDiv (num den : Nat) : Nat :=
  let q := num / den
  let twice := 2 * (num % den)
  if twice > den ∨ (twice = den ∧ q % 2 = 1) then q + 1 else q

/-- The nearest number with at most `p` significant bits, the even one of two equally near. -/
def roundTo (p n : Nat) : Nat :=
  if n < 1 <<< p then n
  else
    let e := bitLength n - p
    roundDiv n (1 <<< e) <<< e

/-- The integer square root by Newton's steps, at most `fuel` of them, from above. -/
def sqrtFrom : Nat → Nat → Nat → Nat
  | 0, _, guess => guess
  | fuel + 1, n, guess =>
    let next := (guess + n / guess) / 2
    if next < guess then sqrtFrom fuel n next else guess

/-- The largest number whose square is at most `n`. -/
def sqrtFloor (n : Nat) : Nat :=
  if n = 0 then 0 else sqrtFrom (bitLength n + 1) n (1 <<< ((bitLength n + 1) / 2))

/-- The nearest number with at most `p` significant bits to the square root of `n`, where the
root has at least `p` bits before the point. Half a step is never met exactly. -/
def sqrtTo (p n : Nat) : Nat :=
  let root := sqrtFloor n
  let e := bitLength root - p
  let q := root >>> e
  let middle := (2 * q + 1) <<< e
  (if middle * middle < 4 * n then q + 1 else q) <<< e

theorem roundTo_of_lt {p n : Nat} (h : n < 1 <<< p) : roundTo p n = n := by
  simp [roundTo, h]

end MeterRadio.Number
