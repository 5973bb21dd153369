import MetricScope.Unicode.CategoryTable
import MetricScope.Unicode.Run

/-!
# General categories

The thirty categories, their two-letter codes, and the category of a
character. A code point outside every run of the table is unassigned.
-/

set_option autoImplicit false

namespace MetricScope.Unicode

inductive Category where
  | lu | ll | lt | lm | lo
  | mn | mc | me
  | nd | nl | no
  | pc | pd | ps | pe | pi | pf | po
  | sm | sc | sk | so
  | zs | zl | zp
  | cc | cf | cs | co | cn
  deriving DecidableEq, Repr

namespace Category

def code : Category → List Char
  | lu => ['L', 'u'] | ll => ['L', 'l'] | lt => ['L', 't']
  | lm => ['L', 'm'] | lo => ['L', 'o']
  | mn => ['M', 'n'] | mc => ['M', 'c'] | me => ['M', 'e']
  | nd => ['N', 'd'] | nl => ['N', 'l'] | no => ['N', 'o']
  | pc => ['P', 'c'] | pd => ['P', 'd'] | ps => ['P', 's']
  | pe => ['P', 'e']
  | pi => ['P', 'i'] | pf => ['P', 'f'] | po => ['P', 'o']
  | sm => ['S', 'm'] | sc => ['S', 'c'] | sk => ['S', 'k']
  | so => ['S', 'o']
  | zs => ['Z', 's'] | zl => ['Z', 'l'] | zp => ['Z', 'p']
  | cc => ['C', 'c'] | cf => ['C', 'f'] | cs => ['C', 's']
  | co => ['C', 'o'] | cn => ['C', 'n']

def all : List Category :=
  [lu, ll, lt, lm, lo, mn, mc, me, nd, nl, no, pc, pd, ps, pe, pi, pf, po, sm, sc, sk, so,
    zs, zl, zp, cc, cf, cs, co, cn]

theorem mem_all (kind : Category) : kind ∈ all := by
  cases kind <;> decide

def ofCode (code : List Char) : Option Category :=
  all.find? fun kind => kind.code == code

theorem ofCode_code (kind : Category) : ofCode kind.code = some kind := by
  cases kind <;> decide

def isLetter : Category → Bool
  | lu | ll | lt | lm | lo => true
  | _ => false

def isMark : Category → Bool
  | mn | mc | me => true
  | _ => false

end Category

@[irreducible] def categoryTable : List (Run Category) := Run.table Category.ofCode categoryRuns

def category (c : Char) : Category := (Run.value? categoryTable c).getD .cn

end MetricScope.Unicode
