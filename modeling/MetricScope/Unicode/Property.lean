import MetricScope.Unicode.Category
import MetricScope.Unicode.LetterTable

/-!
# Properties of characters

White space, word characters and the properties that decide whether a character
is shown as it is or by its code point.
-/

set_option autoImplicit false

namespace MetricScope.Unicode

def isWhiteSpace (c : Char) : Bool :=
  let n := c.toNat
  (0x9 ≤ n && n ≤ 0xD) || n == 0x20 || n == 0x85 || n == 0xA0 || n == 0x1680 ||
    (0x2000 ≤ n && n ≤ 0x200A) || n == 0x2028 || n == 0x2029 || n == 0x202F ||
    n == 0x205F || n == 0x3000

def isDecimalDigit (c : Char) : Bool :=
  category c == .nd

def isAlphabetic (c : Char) : Bool :=
  let kind := category c
  kind.isLetter || kind == .nl || inRanges letterSymbols c ||
    (kind.isMark && !inRanges plainMarks c)

def isLowercase (c : Char) : Bool :=
  category c == .ll || inRanges otherLowercase c

def isUppercase (c : Char) : Bool :=
  category c == .lu || inRanges otherUppercase c

def isWord (c : Char) : Bool :=
  isAlphabetic c || (category c).isMark || category c == .nd || category c == .pc ||
    c.toNat == 0x200C || c.toNat == 0x200D

/-- Spacing marks and other characters that extend the one before them although
their category is neither nonspacing nor enclosing mark. -/
def extendingSpacing : List (Nat × Nat) := [
  (0x9BE, 0x9BE), (0x9D7, 0x9D7), (0xB3E, 0xB3E), (0xB57, 0xB57), (0xBBE, 0xBBE),
  (0xBD7, 0xBD7), (0xCC2, 0xCC2), (0xCD5, 0xCD6), (0xD3E, 0xD3E), (0xD57, 0xD57),
  (0xDCF, 0xDCF), (0xDDF, 0xDDF), (0x1B35, 0x1B35), (0x200C, 0x200C),
  (0x302E, 0x302F), (0xFF9E, 0xFF9F), (0x1133E, 0x1133E), (0x11357, 0x11357),
  (0x114B0, 0x114B0), (0x114BD, 0x114BD), (0x115AF, 0x115AF), (0x11930, 0x11930),
  (0x1D165, 0x1D165), (0x1D16E, 0x1D172), (0xE0020, 0xE007F)]

def extendsGrapheme (c : Char) : Bool :=
  match category c with
  | .mn | .me => true
  | _ => inRanges extendingSpacing c

def isPrintable (c : Char) : Bool :=
  match category c with
  | .zs => c == ' '
  | .zl | .zp | .cc | .cf | .cs | .co | .cn => false
  | _ => true

theorem isWhiteSpace_of_isWhitespace {c : Char} (h : c.isWhitespace = true) :
    isWhiteSpace c = true := by
  simp only [Char.isWhitespace, Bool.or_eq_true, decide_eq_true_eq] at h
  rcases h with ((h | h) | h) | h <;> subst h <;> decide

end MetricScope.Unicode
