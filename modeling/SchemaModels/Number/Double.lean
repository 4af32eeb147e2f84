/-! # Binary numbers of double precision

The numbers of 53 binary digits that a decimal in a settings file stands for, and the shortest decimal
that denotes each of them. -/

namespace SchemaModels

/-- A number of double precision: not a number, an infinity, or `± mantissa · 2 ^ exponent` with a
mantissa below `2 ^ 53` and an exponent of at least `-1074`. -/
inductive Double
  | nan
  | infinite (negative : Bool)
  | finite (negative : Bool) (mantissa : Nat) (exponent : Int)
  deriving DecidableEq, Repr

namespace Double

/-- `n · base ^ e` as a fraction. -/
def fraction (n base : Nat) (e : Int) : Nat × Nat :=
  if 0 ≤ e then (n * base.pow e.toNat, 1) else (n, base.pow (-e).toNat)

/-- A quotient rounded to the nearest integer, a half to the even one. -/
def roundQuotient (num den : Nat) : Nat :=
  let q := num / den
  let r := num % den
  if 2 * r < den || (2 * r == den && q % 2 == 0) then q else q + 1

/-- The quotient of `num` and `den · 2 ^ e` as a fraction. -/
def scaled (num den : Nat) (e : Int) : Nat × Nat :=
  if 0 ≤ e then (num, den * Nat.pow 2 e.toNat) else (num * Nat.pow 2 (-e).toNat, den)

/-- The number nearest to a positive fraction. -/
def ofFraction (negative : Bool) (num den : Nat) : Double :=
  let rough : Int := (num.log2 : Int) - (den.log2 : Int) - 53
  let (a, b) := scaled num den rough
  let e := max (if a / b < Nat.pow 2 53 then rough else rough + 1) (-1074)
  let (a, b) := scaled num den e
  let m := roundQuotient a b
  if m = 0 then .finite negative 0 0
  else
    let (m, e) := if m = Nat.pow 2 53 then (Nat.pow 2 52, e + 1) else (m, e)
    if 971 < e then .infinite negative else .finite negative m e

/-- The number nearest to `± digits · 10 ^ exponent`. -/
def ofDecimal (negative : Bool) (digits : Nat) (exponent : Int) : Double :=
  if digits = 0 then .finite negative 0 0
  else
    let magnitude := exponent + (Nat.toDigits 10 digits).length
    if 310 < magnitude then .infinite negative
    else if magnitude < -330 then .finite negative 0 0
    else
      let (num, den) := fraction digits 10 exponent
      ofFraction negative num den

/-- The integer that a number is, if it is one. -/
def toInt? : Double → Option Int
  | finite negative m e =>
    let (num, den) := fraction m 2 e
    if num % den = 0 then
      let n : Int := (num / den : Nat)
      some (if negative then -n else n)
    else none
  | _ => none

/-! ## The shortest decimal -/

/-- A decimal `digits · 10 ^ exponent`. -/
structure Decimal where
  digits : Nat
  exponent : Int

/-- The `p` with `10 ^ (p - 1) ≤ num / den < 10 ^ p`, where the fraction is at least one or no power
of ten. -/
def decimalPlaces (num den : Nat) : Int :=
  if den ≤ num then (Nat.toDigits 10 (num / den)).length
  else 1 - ((Nat.toDigits 10 (den / num)).length : Int)

/-- Compares two fractions. -/
def fractionLt (a b : Nat × Nat) : Bool := a.1 * b.2 < b.1 * a.2

/-- The decimals around a number that are read back as it: between these bounds, which belong to
them if the mantissa is even. -/
structure Interval where
  low : Nat × Nat
  high : Nat × Nat
  closed : Bool

def Interval.contains (i : Interval) (x : Nat × Nat) : Bool :=
  if i.closed then !fractionLt x i.low && !fractionLt i.high x
  else fractionLt i.low x && fractionLt x i.high

def interval (m : Nat) (e : Int) : Interval where
  low := fraction (if m = Nat.pow 2 52 && -1074 < e then 4 * m - 1 else 4 * m - 2) 2 (e - 2)
  high := fraction (4 * m + 2) 2 (e - 2)
  closed := m % 2 == 0

/-- The decimal of `n` digits nearest to the number among those in the interval, if there is one. The
two neighbours of the number on the grid of such decimals are the candidates. -/
def shortestOf (v : Nat × Nat) (i : Interval) (p : Int) (n : Nat) : Option Decimal :=
  let k := p - n
  let (a, b) := if 0 ≤ k then (v.1, v.2 * Nat.pow 10 k.toNat) else (v.1 * Nat.pow 10 (-k).toNat, v.2)
  let below := a / b
  let inside := fun (d : Nat) => i.contains (fraction d 10 k)
  match inside below, inside (below + 1) with
  | true, true => some ⟨roundQuotient a b, k⟩
  | true, false => some ⟨below, k⟩
  | false, true => some ⟨below + 1, k⟩
  | false, false => none

/-- The first of the given numbers of digits that some decimal fits, and that decimal. -/
def firstFit (v : Nat × Nat) (i : Interval) (p : Int) : List Nat → Option Decimal
  | [] => none
  | n :: ns =>
    match shortestOf v i p n with
    | some d => some d
    | none => firstFit v i p ns

/-- The shortest decimal that is read back as `m · 2 ^ e`; of several, the nearest. -/
def shortest (m : Nat) (e : Int) : Decimal :=
  let v := fraction m 2 e
  let found := firstFit v (interval m e) (decimalPlaces v.1 v.2) ((List.range 17).map (· + 1))
  found.getD ⟨0, 0⟩

/-! ## Text -/

/-- The digits of a number without the zeros at its end. -/
def significant (n : Nat) : List Char :=
  ((Nat.toDigits 10 n).reverse.dropWhile (· == '0')).reverse

/-- Digits with a point after the first `places` of them, filled up with zeros. -/
def positional (digits : List Char) (places : Int) : String :=
  if places ≤ 0 then String.ofList ('0' :: '.' :: List.replicate (-places).toNat '0' ++ digits)
  else if digits.length ≤ places.toNat then
    String.ofList (digits ++ List.replicate (places.toNat - digits.length) '0' ++ ['.', '0'])
  else String.ofList (digits.take places.toNat ++ '.' :: digits.drop places.toNat)

/-- Digits with a point after the first and a power of ten of at least two digits. -/
def exponential (digits : List Char) (places : Int) : String :=
  let power := places - 1
  let magnitude := Nat.toDigits 10 power.natAbs
  let point := if digits.length ≤ 1 then [] else '.' :: digits.drop 1
  String.ofList (digits.take 1 ++ point ++ ['e', if power < 0 then '-' else '+'] ++
    List.replicate (2 - magnitude.length) '0' ++ magnitude)

/-- The text of a number: positional from `10 ^ -4` up to `10 ^ 16`, else with a power of ten. -/
def text : Double → String
  | nan => "nan"
  | infinite negative => if negative then "-inf" else "inf"
  | finite negative m e =>
    let sign := if negative then "-" else ""
    if m = 0 then sign ++ "0.0"
    else
      let d := shortest m e
      let places := (Nat.toDigits 10 d.digits).length + d.exponent
      let digits := significant d.digits
      sign ++ if -4 < places && places ≤ 16 then positional digits places
        else exponential digits places

end Double

end SchemaModels
