/-!
# Digits and code points

Digits in bases up to sixteen, and the characters that code points stand for.
-/

set_option autoImplicit false

namespace MetricScope.Text

def digitValue? (c : Char) : Option Nat :=
  if c.isDigit then some (c.toNat - '0'.toNat)
  else if 'a' ≤ c && c ≤ 'f' then some (c.toNat - 'a'.toNat + 10)
  else if 'A' ≤ c && c ≤ 'F' then some (c.toNat - 'A'.toNat + 10)
  else none

def digit? (base : Nat) (c : Char) : Option Nat :=
  (digitValue? c).filter fun n => n < base

def isDigit (base : Nat) (c : Char) : Bool :=
  (digit? base c).isSome

def natural? (base : Nat) (digits : List Char) : Option Nat :=
  digits.foldlM (fun n c => (digit? base c).map (n * base + ·)) 0

def character? (n : Nat) : Option Char :=
  if n.isValidChar then some (Char.ofNat n) else none

theorem character?_toNat (c : Char) : character? c.toNat = some c := by
  have hv : c.toNat.isValidChar := c.valid
  rw [character?, if_pos hv, Char.ofNat_toNat]

end MetricScope.Text
