import MetricScope.Unicode.Property
import MetricScope.Unicode.CaseFolding
import MetricScope.Unicode.Script

/-!
# Sets of characters

Sets are kept as they were written, as ranges and named classes under the
operations of set algebra. Membership is all that matching asks of them.
-/

set_option autoImplicit false

namespace MetricScope.Regex

inductive NamedClass where
  | any
  | ascii
  | assigned
  | space
  | word
  | alphabetic
  | lowercase
  | uppercase
  | script (script : Unicode.Script)
  /-- The characters of some general categories. -/
  | categories (list : List Unicode.Category)
  deriving DecidableEq, Repr

def NamedClass.contains : NamedClass → Char → Bool
  | any, _ => true
  | ascii, c => c.toNat < 128
  | assigned, c => Unicode.category c != .cn
  | space, c => Unicode.isWhiteSpace c
  | word, c => Unicode.isWord c
  | alphabetic, c => Unicode.isAlphabetic c
  | lowercase, c => Unicode.isLowercase c
  | uppercase, c => Unicode.isUppercase c
  | script value, c => Unicode.script c == value
  | categories list, c => list.contains (Unicode.category c)

inductive CharSet where
  | empty
  | range (first last : Char)
  | named (name : NamedClass)
  | union (a b : CharSet)
  | inter (a b : CharSet)
  | diff (a b : CharSet)
  | symmDiff (a b : CharSet)
  | compl (a : CharSet)
  /-- With every member all characters that differ from it in case only. -/
  | folded (a : CharSet)
  deriving DecidableEq, Repr

namespace CharSet

def single (c : Char) : CharSet := .range c c

def contains : CharSet → Char → Bool
  | .empty, _ => false
  | .range first last, c => first ≤ c && c ≤ last
  | .named name, c => name.contains c
  | .union a b, c => a.contains c || b.contains c
  | .inter a b, c => a.contains c && b.contains c
  | .diff a b, c => a.contains c && !b.contains c
  | .symmDiff a b, c => a.contains c != b.contains c
  | .compl a, c => !a.contains c
  | .folded a, c => (Unicode.caseOrbit c.toNat).any fun n => a.contains (Char.ofNat n)

@[simp] theorem contains_single (c d : Char) :
    (single c).contains d = decide (d = c) := by
  simp only [single, contains]
  by_cases h : d = c
  · subst h; simp
  · simp only [h, decide_false, Bool.and_eq_false_iff, decide_eq_false_iff_not]
    by_cases hle : c ≤ d
    · right
      intro hge
      exact h (Char.le_antisymm hge hle)
    · exact Or.inl hle

@[simp] theorem contains_compl (a : CharSet) (c : Char) :
    a.compl.contains c = !a.contains c := rfl

def ofRanges : List (Char × Char) → CharSet
  | [] => .empty
  | (first, last) :: rest => .union (.range first last) (ofRanges rest)

theorem contains_ofRanges (ranges : List (Char × Char)) (c : Char) :
    (ofRanges ranges).contains c = ranges.any fun r => r.1 ≤ c && c ≤ r.2 := by
  induction ranges with
  | nil => rfl
  | cons r rest ih => simp [ofRanges, contains, ih]

def negateIf (negated : Bool) (a : CharSet) : CharSet :=
  if negated then .compl a else a

def foldIf (ignoreCase : Bool) (a : CharSet) : CharSet :=
  if ignoreCase then .folded a else a

def asciiClass? (name : String) : Option CharSet :=
  match name with
  | "alnum" => some (ofRanges [('0', '9'), ('A', 'Z'), ('a', 'z')])
  | "alpha" => some (ofRanges [('A', 'Z'), ('a', 'z')])
  | "ascii" => some (.range '\x00' '\x7F')
  | "blank" => some (ofRanges [('\t', '\t'), (' ', ' ')])
  | "cntrl" => some (ofRanges [('\x00', '\x1F'), ('\x7F', '\x7F')])
  | "digit" => some (.range '0' '9')
  | "graph" => some (.range '!' '~')
  | "lower" => some (.range 'a' 'z')
  | "print" => some (.range ' ' '~')
  | "punct" => some (ofRanges [('!', '/'), (':', '@'), ('[', '\x60'), ('\x7b', '~')])
  | "space" => some (ofRanges [('\t', '\r'), (' ', ' ')])
  | "upper" => some (.range 'A' 'Z')
  | "word" => some (ofRanges [('0', '9'), ('A', 'Z'), ('_', '_'), ('a', 'z')])
  | "xdigit" => some (ofRanges [('0', '9'), ('A', 'F'), ('a', 'f')])
  | _ => none

end CharSet

end MetricScope.Regex
