import MetricScope.Number.Decimal
import MetricScope.Text.Digit

/-!
# Numbers, dates and times

Only their form is checked: digits with underscores between them, numbers within 64
bits, dates that are in the calendar.
-/

set_option autoImplicit false

namespace MetricScope.Toml

def groupedDigits? (isDigit : Char → Bool) : (afterDigit : Bool) → List Char →
    Option (List Char)
  | afterDigit, [] => if afterDigit then some [] else none
  | afterDigit, c :: rest =>
      if isDigit c then (groupedDigits? isDigit true rest).map (c :: ·)
      else if c == '_' && afterDigit then
        match rest with
        | d :: _ => if isDigit d then groupedDigits? isDigit false rest else none
        | [] => none
      else none

def decimalDigits? (text : List Char) : Option (List Char) :=
  groupedDigits? Char.isDigit false text

def wholeDigits? (text : List Char) : Option (List Char) :=
  match decimalDigits? text with
  | some ['0'] => some ['0']
  | some ('0' :: _) => none
  | digits => digits

def splitSign : List Char → Bool × List Char
  | '-' :: rest => (true, rest)
  | '+' :: rest => (false, rest)
  | text => (false, text)

def isRadixInteger (base : Nat) (text : List Char) : Bool :=
  match groupedDigits? (Text.isDigit base) false text with
  | some digits => (Text.natural? base digits).any (· < Nat.pow 2 63)
  | none => false

def isInteger (text : List Char) : Bool :=
  match text with
  | '0' :: 'x' :: rest => isRadixInteger 16 rest
  | '0' :: 'o' :: rest => isRadixInteger 8 rest
  | '0' :: 'b' :: rest => isRadixInteger 2 rest
  | text =>
    let (negative, body) := splitSign text
    match wholeDigits? body with
    | some digits =>
      let n := Binary64.digitsValue digits
      if negative then n ≤ Nat.pow 2 63 else n < Nat.pow 2 63
    | none => false

def isTooGreat (negative : Bool) (digits : List Char) (power : Int) : Bool :=
  !negative && Binary64.ofDecimal (Binary64.digitsValue digits) power == .infinite false

def isFloat (text : List Char) : Bool :=
  let (negative, body) := splitSign text
  if body == ['i', 'n', 'f'] || body == ['n', 'a', 'n'] then true
  else
    let isWhole (c : Char) : Bool := c.isDigit || c == '_'
    let whole := body.takeWhile isWhole
    let tail := body.dropWhile isWhole
    let (fraction, tail) : Option (List Char) × List Char :=
      match tail with
      | '.' :: rest => (some (rest.takeWhile isWhole), rest.dropWhile isWhole)
      | rest => (none, rest)
    let exponent : Option (Option (Bool × List Char)) :=
      match tail with
      | [] => some none
      | 'e' :: rest | 'E' :: rest => some (some (splitSign rest))
      | _ => none
    match wholeDigits? whole, exponent with
    | some digits, some exponent =>
      let fractionDigits : Option (List Char) :=
        match fraction with
        | none => some []
        | some fraction => decimalDigits? fraction
      let power : Option Int :=
        match exponent with
        | none => some 0
        | some (down, rest) =>
          (decimalDigits? rest).map fun digits =>
            let n : Int := Binary64.digitsValue digits
            if down then -n else n
      match fractionDigits, power with
      | some fractionDigits, some power =>
        (fraction.isSome || exponent.isSome) &&
          !isTooGreat negative (digits ++ fractionDigits) (power - fractionDigits.length)
      | _, _ => false
    | _, _ => false

def digitsBetween (width low high : Nat) (text : List Char) : Bool :=
  text.length == width && text.all Char.isDigit &&
    low ≤ Binary64.digitsValue text && Binary64.digitsValue text ≤ high

def daysInMonth (year month : Nat) : Nat :=
  if month == 2 then
    if year % 4 == 0 && (year % 100 != 0 || year % 400 == 0) then 29 else 28
  else if month == 4 || month == 6 || month == 9 || month == 11 then 30
  else 31

def isDate (text : List Char) : Bool :=
  match text with
  | [y1, y2, y3, y4, '-', m1, m2, '-', d1, d2] =>
    digitsBetween 4 0 9999 [y1, y2, y3, y4] && digitsBetween 2 1 12 [m1, m2] &&
      digitsBetween 2 1 (daysInMonth (Binary64.digitsValue [y1, y2, y3, y4])
        (Binary64.digitsValue [m1, m2])) [d1, d2]
  | _ => false

def isTime (text : List Char) : Bool :=
  match text with
  | h1 :: h2 :: ':' :: m1 :: m2 :: ':' :: s1 :: s2 :: fraction =>
    digitsBetween 2 0 23 [h1, h2] && digitsBetween 2 0 59 [m1, m2] &&
      digitsBetween 2 0 60 [s1, s2] &&
      (match fraction with
      | [] => true
      | '.' :: digits => !digits.isEmpty && digits.all Char.isDigit
      | _ => false)
  | _ => false

def isOffset (text : List Char) : Bool :=
  match text with
  | ['Z'] | ['z'] => true
  | [sign, h1, h2, ':', m1, m2] =>
    (sign == '+' || sign == '-') && digitsBetween 2 0 23 [h1, h2] &&
      digitsBetween 2 0 59 [m1, m2]
  | _ => false

def isTimeChar (c : Char) : Bool := c.isDigit || c == ':' || c == '.'

def isDateTime (text : List Char) : Bool :=
  let date := text.take 10
  match text.drop 10 with
  | [] => isDate date || isTime text
  | c :: rest =>
    let time := rest.takeWhile isTimeChar
    let offset := rest.dropWhile isTimeChar
    (isDate date && (c == 'T' || c == 't' || c == ' ') && isTime time &&
      (offset.isEmpty || isOffset offset)) || isTime text

def isScalar (text : List Char) : Bool :=
  isDateTime text || isFloat text || isInteger text

end MetricScope.Toml
