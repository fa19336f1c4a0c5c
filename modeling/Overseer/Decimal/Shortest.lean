import Overseer.Decimal.Binary

/-! The fewest decimal digits that read back as the same double, and their layout. -/

namespace Overseer.Decimal

/-- `digits * 10 ^ exponent`. -/
structure Scientific where
  digits : Nat
  exponent : Int
  deriving DecidableEq, Repr

/-- The exponent of the leading decimal digit of `num / den`, both positive. -/
def leadingExponent (num den : Nat) : Int :=
  if den ≤ num then ((Nat.repr (num / den)).length : Int) - 1
  else -((Nat.repr ((den - 1) / num)).length : Int)

/-- The reals that round to `m * 2 ^ q`, in quarters of `2 ^ q`: from `low` to `high`,
ends included if `closed`. -/
structure Interval where
  low : Nat
  centre : Nat
  high : Nat
  closed : Bool

/-- The neighbour below a power of two is half as far as the one above. -/
def Interval.around (m : Nat) (q : Int) : Interval where
  low := if m == leadingBit && q > -1074 then 4 * m - 1 else 4 * m - 2
  centre := 4 * m
  high := 4 * m + 2
  closed := m % 2 == 0

/-- With `x` quarters of `2 ^ q` being `x * up / down` steps of the grid, whether grid
point `d` lies in the interval. -/
def Interval.holds (i : Interval) (up down d : Nat) : Bool :=
  if i.closed then i.low * up ≤ d * down && d * down ≤ i.high * up
  else i.low * up < d * down && d * down < i.high * up

/-- The point of the grid of step `10 ^ t` next to the value that reads back, if there is
one; of two the nearer, and of two as near the even one. -/
def onGrid? (i : Interval) (q t : Int) : Option Nat :=
  let up := Nat.pow 2 (q - 2).toNat * Nat.pow 10 (-t).toNat
  let down := Nat.pow 2 (2 - q).toNat * Nat.pow 10 t.toNat
  let below := i.centre * up / down
  let above := below + 1
  match i.holds up down below, i.holds up down above with
  | true, false => some below
  | false, true => some above
  | false, false => none
  | true, true =>
    let toBelow := i.centre * up - below * down
    let toAbove := above * down - i.centre * up
    if toBelow < toAbove || (toBelow == toAbove && below % 2 == 0) then some below else some above

/-- Tries grids of `n` and more digits. -/
def shortestFrom (i : Interval) (q lead : Int) : Nat → Nat → Scientific
  | 0, n => ⟨i.centre, lead - n⟩
  | tries + 1, n =>
    let t := lead - n + 1
    match onGrid? i q t with
    | some d => ⟨d, t⟩
    | none => shortestFrom i q lead tries (n + 1)

/-- The shortest decimal for `m * 2 ^ q`, `m` positive; seventeen digits always suffice. -/
def shortest (m : Nat) (q : Int) : Scientific :=
  let lead := leadingExponent (m * Nat.pow 2 q.toNat) (Nat.pow 2 (-q).toNat)
  shortestFrom (.around m q) q lead 17 1

/-- Moves trailing zeros of the digits into the exponent. -/
def stripZeros : Nat → Scientific → Scientific
  | 0, d => d
  | fuel + 1, d =>
    if d.digits % 10 == 0 && d.digits != 0 then stripZeros fuel ⟨d.digits / 10, d.exponent + 1⟩
    else d

/-- The exponent of scientific notation, with its sign. -/
def exponentText (e : Int) : String :=
  (if e < 0 then "e-" else "e+") ++ Nat.repr e.natAbs

/-- Positional from `1e-5` up to `1e16`, always with a point; otherwise one digit before
the point, and an exponent. -/
def Scientific.layout (d : Scientific) : String :=
  let s := Nat.repr d.digits
  let n := s.length
  let point : Int := n + d.exponent
  if 0 ≤ d.exponent && point ≤ 16 then s ++ "".pushn '0' d.exponent.toNat ++ ".0"
  else if 0 < point && point ≤ 16 then
    (s.take point.toNat).toString ++ "." ++ (s.drop point.toNat).toString
  else if -5 < point && point ≤ 0 then "0." ++ "".pushn '0' (-point).toNat ++ s
  else if n == 1 then s ++ exponentText (point - 1)
  else (s.take 1).toString ++ "." ++ (s.drop 1).toString ++ exponentText (point - 1)

/-- The shortest text of a finite double; none for the others. -/
def shortestText? (x : Float) : Option String :=
  match Binary.ofFloat x with
  | .finite negative m q =>
    let body := if m == 0 then "0.0" else (stripZeros 20 (shortest m q)).layout
    some ((if negative then "-" else "") ++ body)
  | _ => none

end Overseer.Decimal
