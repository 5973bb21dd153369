import MetricScope.Number.Decimal

/-!
# Durations

A duration literal is a sequence of counts with units, the units in falling
order and each at most once. The written form uses years and weeks only when
nothing is left over, so most literals are not written back as they were read.
-/

set_option autoImplicit false

namespace MetricScope.PromQL

structure Duration where
  nanoseconds : Nat
  deriving DecidableEq, Repr

inductive TimeUnit where
  | year | week | day | hour | minute | second | millisecond
  deriving DecidableEq, Repr

namespace TimeUnit

def all : List TimeUnit := [year, week, day, hour, minute, second, millisecond]

def letters : TimeUnit → List Char
  | year => ['y']
  | week => ['w']
  | day => ['d']
  | hour => ['h']
  | minute => ['m']
  | second => ['s']
  | millisecond => ['m', 's']

def milliseconds : TimeUnit → Nat
  | year => 365 * 24 * 3600 * 1000
  | week => 7 * 24 * 3600 * 1000
  | day => 24 * 3600 * 1000
  | hour => 3600 * 1000
  | minute => 60 * 1000
  | second => 1000
  | millisecond => 1

/-- Units that are written only when they leave no rest. -/
def wholeOnly : TimeUnit → Bool
  | year | week => true
  | _ => false

end TimeUnit

namespace Duration

def perSecond : Nat := 1000000000

def perMillisecond : Nat := 1000000

def ofSeconds (n : Nat) : Duration :=
  ⟨n * perSecond⟩

def ofMilliseconds (n : Nat) : Duration :=
  ⟨n * perMillisecond⟩

def components (digits letters : List Char) : List Char → List (List Char × List Char)
  | [] => [(digits, letters)]
  | c :: rest =>
      if c.isDigit then
        if letters.isEmpty then components (digits ++ [c]) [] rest
        else (digits, letters) :: components [c] [] rest
      else components digits (letters ++ [c]) rest

/-- A count that needs more than 32 bits counts as nothing. -/
def countValue (digits : List Char) : Nat :=
  let n := Binary64.digitsValue digits
  if n < Nat.pow 2 32 then n else 0

def total : List TimeUnit → List (List Char × List Char) → Option Nat
  | _, [] => some 0
  | [], _ :: _ => none
  | unit :: units, (digits, letters) :: rest =>
      if letters = unit.letters then
        (total units rest).map (countValue digits * unit.milliseconds + ·)
      else total units ((digits, letters) :: rest)

def ofLiteral (text : List Char) : Option Duration :=
  (total TimeUnit.all (components [] [] text)).map ofMilliseconds

/-- A number of seconds to the nearest nanosecond, or nothing for a number that
is not finite or that a count of 64 bits cannot hold. -/
def ofNumber (x : Binary64) : Option Duration :=
  match x.toQuotient with
  | some (n, d) =>
    if n < d * Nat.pow 2 64 then some ⟨Binary64.divideToEven (n * perSecond) d⟩ else none
  | none => none

def seconds (d : Duration) : Binary64 :=
  let whole := Binary64.ofNat (d.nanoseconds / perSecond)
  let fraction := Binary64.ofQuotient false (d.nanoseconds % perSecond) perSecond
  match whole.toQuotient, fraction.toQuotient with
  | some w, some f => Binary64.addQuotients w f
  | _, _ => whole

def writeUnits : List TimeUnit → Nat → List Char
  | [], _ => []
  | unit :: units, ms =>
      if unit.wholeOnly && ms % unit.milliseconds != 0 then writeUnits units ms
      else
        let count := ms / unit.milliseconds
        let here := if count = 0 then [] else Nat.toDigits 10 count ++ unit.letters
        here ++ writeUnits units (ms % unit.milliseconds)

def text (d : Duration) : String :=
  if d.nanoseconds = 0 then "0s"
  else String.ofList (writeUnits TimeUnit.all (d.nanoseconds / perMillisecond))

end Duration

end MetricScope.PromQL
