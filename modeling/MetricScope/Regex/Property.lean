import MetricScope.Regex.CharSet

/-!
# Names of character properties

Names are compared without regard to case, spaces, underscores and hyphens, and
an `is` in front is ignored. A name alone is that of a property, of a general
category or of a script.
-/

set_option autoImplicit false

namespace MetricScope.Regex.NamedClass

open Unicode.Category

def lettersCased : List Unicode.Category := [lu, ll, lt]
def letters : List Unicode.Category := [lu, ll, lt, lm, lo]
def marks : List Unicode.Category := [mn, mc, me]
def numbers : List Unicode.Category := [nd, nl, no]
def punctuation : List Unicode.Category := [pc, pd, ps, pe, pi, pf, po]
def symbols : List Unicode.Category := [sm, sc, sk, so]
def separators : List Unicode.Category := [zs, zl, zp]
def others : List Unicode.Category := [cc, cf, cs, co, cn]

def categoryNames : List (List String × List Unicode.Category) := [
  (["lu", "uppercaseletter"], [lu]), (["ll", "lowercaseletter"], [ll]),
  (["lt", "titlecaseletter"], [lt]), (["lc", "casedletter"], lettersCased),
  (["lm", "modifierletter"], [lm]), (["lo", "otherletter"], [lo]),
  (["l", "letter"], letters),
  (["mn", "nonspacingmark"], [mn]), (["mc", "spacingmark"], [mc]),
  (["me", "enclosingmark"], [me]), (["m", "mark", "combiningmark"], marks),
  (["nd", "decimalnumber", "digit"], [nd]), (["nl", "letternumber"], [nl]),
  (["no", "othernumber"], [no]), (["n", "number"], numbers),
  (["pc", "connectorpunctuation"], [pc]), (["pd", "dashpunctuation"], [pd]),
  (["ps", "openpunctuation"], [ps]), (["pe", "closepunctuation"], [pe]),
  (["pi", "initialpunctuation"], [pi]), (["pf", "finalpunctuation"], [pf]),
  (["po", "otherpunctuation"], [po]), (["p", "punctuation", "punct"], punctuation),
  (["sm", "mathsymbol"], [sm]), (["sc", "currencysymbol"], [sc]),
  (["sk", "modifiersymbol"], [sk]), (["so", "othersymbol"], [so]),
  (["s", "symbol"], symbols),
  (["zs", "spaceseparator"], [zs]), (["zl", "lineseparator"], [zl]),
  (["zp", "paragraphseparator"], [zp]), (["z", "separator"], separators),
  (["cc", "control", "cntrl"], [cc]), (["cf", "format"], [cf]),
  (["cs", "surrogate"], [cs]), (["co", "privateuse"], [co]),
  (["cn", "unassigned"], [cn]), (["c", "other"], others)]

/-- The name without what a comparison passes over. What is left of `isc` would be a
letter of its own, so that this name is kept. -/
def normalizeName (name : List Char) : List Char :=
  let plain := fun (text : List Char) =>
    (text.filter fun c => !(c == ' ' || c == '_' || c == '-') && c.toNat < 128).map
      Char.toLower
  match (name.take 2).map Char.toLower with
  | ['i', 's'] =>
    match plain (name.drop 2) with
    | ['c'] => ['i', 's', 'c']
    | rest => rest
  | _ => plain name

def generalCategory? (name : String) : Option NamedClass :=
  match name with
  | "any" => some .any
  | "ascii" => some .ascii
  | "assigned" => some .assigned
  | name => (categoryNames.find? fun row => row.1.contains name).map fun row =>
      .categories row.2

def script? (name : String) : Option NamedClass :=
  (Unicode.Script.ofName? name).map .script

def ofName? (name : List Char) : Option NamedClass :=
  match String.ofList (normalizeName name) with
  | "alphabetic" | "alpha" => some .alphabetic
  | "lowercase" | "lower" => some .lowercase
  | "uppercase" | "upper" => some .uppercase
  | "whitespace" | "wspace" | "space" => some .space
  | name => generalCategory? name <|> script? name

def ofProperty? (property value : List Char) : Option NamedClass :=
  let value := String.ofList (normalizeName value)
  match String.ofList (normalizeName property) with
  | "gc" | "generalcategory" => generalCategory? value
  | "sc" | "script" => script? value
  | _ => none

end MetricScope.Regex.NamedClass
