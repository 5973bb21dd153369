/-!
# TOML documents as trees

A table remembers how it came about, since that decides what may still be added to
it. Numbers, dates and times have no use here, so their values are not kept.
-/

set_option autoImplicit false

namespace MetricScope.Toml

/-- How a table came about: `implicit` unless it had a header of its own or was
written in braces, `dotted` if it was named by a dotted key. -/
structure TableOrigin where
  implicit : Bool
  dotted : Bool
  deriving DecidableEq, Repr

inductive Item where
  | text (s : String)
  | bool (b : Bool)
  /-- A number, date or time. -/
  | scalar
  | array (items : List Item)
  /-- A table in braces, to which nothing can be added. -/
  | inlineTable (entries : List (String × Item))
  | table (origin : TableOrigin) (entries : List (String × Item))
  /-- Tables under headers in double brackets. -/
  | tables (items : List Item)

abbrev Entries := List (String × Item)

namespace Entries

def item? (entries : Entries) (key : String) : Option Item :=
  (List.find? (fun entry => entry.1 == key) entries).map Prod.snd

def replace (entries : Entries) (key : String) (item : Item) : Entries :=
  entries.map fun entry => if entry.1 == key then (key, item) else entry

end Entries

end MetricScope.Toml
