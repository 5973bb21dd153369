/-!
# Binary floating point numbers of 64 bits

A finite number is `mantissa * 2 ^ exponent` with a mantissa below `2 ^ 53`, and
either the mantissa has all 53 bits or the exponent is the least one, so every
value has one representation for each sign. All rounding starts from an exact
quotient of natural numbers and goes to the nearest number, to the even mantissa
when two are equally near.
-/

set_option autoImplicit false

namespace MetricScope

inductive Binary64 where
  | nan
  | infinite (negative : Bool)
  | finite (negative : Bool) (mantissa : Nat) (exponent : Int)
  deriving DecidableEq, Repr

namespace Binary64

def divideToEven (num den : Nat) : Nat :=
  let floor := num / den
  let rest := num % den
  if 2 * rest < den then floor
  else if den < 2 * rest then floor + 1
  else floor + floor % 2

def divideHalfUp (num den : Nat) : Nat :=
  (2 * num + den) / (2 * den)

def leastExponent : Int := -1074

def greatestExponent : Int := 971

def scaledQuotient (num den : Nat) (exponent : Int) : Nat × Nat :=
  if exponent ≥ 0 then (num, den * Nat.pow 2 exponent.toNat)
  else (num * Nat.pow 2 (-exponent).toNat, den)

def exponentFor (num den : Nat) : Int :=
  let guess : Int := (Nat.log2 num : Int) - (Nat.log2 den : Int) - 53
  let (n, d) := scaledQuotient num den guess
  if n < d * Nat.pow 2 53 then guess else guess + 1

def ofQuotient (negative : Bool) (num den : Nat) : Binary64 :=
  if num = 0 then .finite negative 0 leastExponent
  else
    let exponent := max leastExponent (exponentFor num den)
    let (n, d) := scaledQuotient num den exponent
    let mantissa := divideToEven n d
    let (mantissa, exponent) :=
      if mantissa = Nat.pow 2 53 then (Nat.pow 2 52, exponent + 1) else (mantissa, exponent)
    if exponent > greatestExponent then .infinite negative
    else .finite negative mantissa exponent

def ofNat (n : Nat) : Binary64 :=
  ofQuotient false n 1

def neg : Binary64 → Binary64
  | .nan => .nan
  | .infinite negative => .infinite (!negative)
  | .finite negative mantissa exponent => .finite (!negative) mantissa exponent

theorem neg_neg (x : Binary64) : x.neg.neg = x := by
  cases x <;> simp [neg]

def isNegative : Binary64 → Bool
  | .nan => false
  | .infinite negative => negative
  | .finite negative _ _ => negative

def toQuotient : Binary64 → Option (Nat × Nat)
  | .finite _ mantissa exponent =>
    if exponent ≥ 0 then some (mantissa * Nat.pow 2 exponent.toNat, 1)
    else some (mantissa, Nat.pow 2 (-exponent).toNat)
  | _ => none

def isGreatest : Binary64 → Bool
  | .finite _ mantissa exponent => mantissa == Nat.pow 2 53 - 1 && exponent == greatestExponent
  | _ => false

def addQuotients (a b : Nat × Nat) : Binary64 :=
  ofQuotient false (a.1 * b.2 + b.1 * a.2) (a.2 * b.2)

def scale (x : Binary64) (k : Nat) : Binary64 :=
  match x with
  | .finite negative mantissa exponent =>
    match toQuotient (.finite negative mantissa exponent) with
    | some (n, d) => ofQuotient negative (n * k) d
    | none => x
  | x => x

end Binary64

end MetricScope
