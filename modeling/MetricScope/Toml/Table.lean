import MetricScope.Toml.Item

/-!
# Building tables

A key may be given once, a table may be opened once, and a table that a dotted key
made can be extended by dotted keys only. What breaks these rules has no result.
-/

set_option autoImplicit false

namespace MetricScope.Toml

abbrev Change := TableOrigin → Entries → Option (TableOrigin × Entries)

/-- Applies a change to the table at the end of a path, making the tables on the way
that are missing. A path through tables in double brackets goes to the last one. -/
def descend (dotted : Bool) (change : Change) : List String → Change
  | [], origin, entries => change origin entries
  | key :: path, origin, entries =>
    match entries.item? key with
    | none =>
      match descend dotted change path ⟨true, dotted⟩ [] with
      | some (o, es) => some (origin, entries ++ [(key, .table o es)])
      | none => none
    | some (.table o es) =>
      if dotted && !o.implicit then none
      else
        match descend dotted change path o es with
        | some (o, es) => some (origin, entries.replace key (.table o es))
        | none => none
    | some (.tables items) =>
      match items.getLast? with
      | some (.table o es) =>
        match descend dotted change path o es with
        | some (o, es) =>
          some (origin, entries.replace key (.tables (items.dropLast ++ [.table o es])))
        | none => none
      | _ => none
    | some _ => none

/-- Opens the table of a header. A table that was made on the way to another one may
still get its header. -/
def openTable (key : String) : Change := fun origin entries =>
  match entries.item? key with
  | none => some (origin, entries ++ [(key, .table ⟨false, false⟩ [])])
  | some (.table o es) =>
    if o.implicit && !o.dotted then
      some (origin, entries.replace key (.table ⟨false, false⟩ es))
    else none
  | some _ => none

def addTable (key : String) : Change := fun origin entries =>
  match entries.item? key with
  | none => some (origin, entries ++ [(key, .tables [.table ⟨false, false⟩ []])])
  | some (.tables items) =>
    some (origin, entries.replace key (.tables (items ++ [.table ⟨false, false⟩ []])))
  | some _ => none

def addItem (isDotted : Bool) (key : String) (item : Item) : Change := fun origin entries =>
  if origin.dotted != isDotted then none
  else
    match entries.item? key with
    | none => some (origin, entries ++ [(key, item)])
    | some _ => none

structure KeyPath where
  front : List String
  last : String
  deriving DecidableEq, Repr

def addPair (key : KeyPath) (item : Item) : Change :=
  descend true (addItem (!key.front.isEmpty) key.last item) key.front

def inlineEntries (pairs : List (KeyPath × Item)) : Option Entries :=
  (pairs.foldlM (fun (origin, entries) (key, item) => addPair key item origin entries)
    ((⟨false, false⟩ : TableOrigin), ([] : Entries))).map Prod.snd

end MetricScope.Toml
