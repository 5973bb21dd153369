import MetricScope.Number.Binary64

/-!
# Decimal text of binary numbers

Reading takes the digits and a power of ten and rounds once. Writing without a
given precision takes the fewest digits that read back as the same number, the
nearest of those, the greater one of two equally near; an exponent is never
written. Writing with a given number of places rounds the exact value, a half to
the even digit.
-/

set_option autoImplicit false

namespace MetricScope.Binary64

def digitsValue (digits : List Char) : Nat :=
  digits.foldl (fun value c => value * 10 + (c.toNat - '0'.toNat)) 0

def ofDecimal (digits : Nat) (power : Int) : Binary64 :=
  let size : Int := (Nat.toDigits 10 digits).length
  if digits = 0 then ofQuotient false 0 1
  else if size + power > 400 then .infinite false
  else if size + power < -400 then ofQuotient false 0 1
  else if power ≥ 0 then ofQuotient false (digits * Nat.pow 10 power.toNat) 1
  else ofQuotient false digits (Nat.pow 10 (-power).toNat)

def readExponent (text : List Char) : Option Int :=
  let (negative, digits) : Bool × List Char :=
    match text with
    | '-' :: rest => (true, rest)
    | '+' :: rest => (false, rest)
    | rest => (false, rest)
  if digits.isEmpty || !digits.all Char.isDigit then none
  else
    let value : Int := digitsValue digits
    some (if negative then -value else value)

/-- Digits, optionally a point and digits, optionally an exponent; a digit must
stand before or after the point. Letters are lower case. -/
def read? (text : List Char) : Option Binary64 :=
  if text = ['i', 'n', 'f'] then some (.infinite false)
  else if text = ['n', 'a', 'n'] then some .nan
  else
    let whole := text.takeWhile Char.isDigit
    let afterWhole := text.dropWhile Char.isDigit
    let (fraction, tail) : List Char × List Char :=
      match afterWhole with
      | '.' :: rest => (rest.takeWhile Char.isDigit, rest.dropWhile Char.isDigit)
      | rest => ([], rest)
    if whole.isEmpty && fraction.isEmpty then none
    else
      let exponent : Option Int :=
        match tail with
        | [] => some 0
        | 'e' :: rest => readExponent rest
        | _ => none
      exponent.map fun power =>
        ofDecimal (digitsValue (whole ++ fraction)) (power - (fraction.length : Int))

def dropTrailingZeros (digits : List Char) : List Char :=
  (digits.reverse.dropWhile (· == '0')).reverse

def paddedDigits (width n : Nat) : List Char :=
  let digits := Nat.toDigits 10 n
  List.replicate (width - digits.length) '0' ++ digits

def positional (n places : Nat) : List Char :=
  let fraction := dropTrailingZeros (paddedDigits places (n % Nat.pow 10 places))
  let whole := Nat.toDigits 10 (n / Nat.pow 10 places)
  if places = 0 || fraction.isEmpty then whole else whole ++ '.' :: fraction

/-- Three neighbours on one decimal grid of `10 ^ -places`: the ends of the
interval of reals that round to a number, and the number between them. -/
structure Neighbourhood where
  low : Nat
  middle : Nat
  high : Nat
  places : Nat
  closed : Bool

def neighbourhood (mantissa : Nat) (exponent : Int) : Neighbourhood :=
  let narrow := mantissa == Nat.pow 2 52 && decide (exponent > leastExponent)
  let quarter := exponent - 2
  let places := (-quarter).toNat
  let unit := if quarter ≥ 0 then Nat.pow 2 quarter.toNat else Nat.pow 5 places
  { low := (4 * mantissa - if narrow then 1 else 2) * unit
    middle := 4 * mantissa * unit
    high := (4 * mantissa + 2) * unit
    places := places
    closed := mantissa % 2 == 0 }

namespace Neighbourhood

def admits (n : Neighbourhood) (candidate : Nat) : Bool :=
  if n.closed then n.low ≤ candidate && candidate ≤ n.high
  else n.low < candidate && candidate < n.high

/-- The best candidate among the multiples of `unit`: the two next to the middle
are tried, the nearer one wins and of two equally near the greater. -/
def candidate? (n : Neighbourhood) (unit : Nat) : Option Nat :=
  let below := n.middle / unit * unit
  let above := below + unit
  match n.admits below, n.admits above with
  | true, true => some (if n.middle - below < above - n.middle then below else above)
  | true, false => some below
  | false, true => some above
  | false, false => none

def shortest (n : Neighbourhood) : Nat :=
  let size := (Nat.toDigits 10 n.middle).length
  ((List.range size).findSome? fun k => n.candidate? (Nat.pow 10 (size - 1 - k))).getD n.middle

end Neighbourhood

def digits : Binary64 → List Char
  | .nan => ['N', 'a', 'N']
  | .infinite negative => (if negative then ['-'] else []) ++ ['i', 'n', 'f']
  | .finite negative mantissa exponent =>
    let sign := if negative then ['-'] else []
    if mantissa = 0 then sign ++ ['0']
    else
      let n := neighbourhood mantissa exponent
      sign ++ positional n.shortest n.places

def fixedPlaces (places : Nat) (num den : Nat) : List Char :=
  let n := divideToEven (num * Nat.pow 10 places) den
  Nat.toDigits 10 (n / Nat.pow 10 places) ++ '.' :: paddedDigits places (n % Nat.pow 10 places)

end MetricScope.Binary64
