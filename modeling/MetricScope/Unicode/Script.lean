import MetricScope.Unicode.Run
import MetricScope.Unicode.ScriptTable

/-!
# Scripts

A script is named by its four letters. A code point outside every run of the
table is of unknown script.
-/

set_option autoImplicit false

namespace MetricScope.Unicode

structure Script where
  code : String
  deriving DecidableEq, Repr

namespace Script

def unknown : Script := ⟨"Zzzz"⟩

def ofCode (code : List Char) : Option Script :=
  if code.length = 4 then some ⟨String.ofList code⟩ else none

def ofName? (name : String) : Option Script :=
  (scriptNames.find? fun row =>
    row.1 == name || row.2.toList.map Char.toLower == name.toList).map fun row => ⟨row.2⟩

end Script

@[irreducible] def scriptTable : List (Run Script) := Run.table Script.ofCode scriptRuns

def script (c : Char) : Script := (Run.value? scriptTable c).getD .unknown

end MetricScope.Unicode
