import MetricScope.Toml.Item

/-!
# Records in TOML

A record is a table, in which unknown keys are ignored, or an array of its fields in
order, of which the last ones may be left out.
-/

set_option autoImplicit false

namespace MetricScope.Toml

def fields? (names : List String) : Item → Option (List (Option Item))
  | .table _ entries | .inlineTable entries => some (names.map (Entries.item? entries))
  | .array items | .tables items =>
      some ((List.range names.length).map fun place => items[place]?)
  | _ => none

def required {α : Type} (decode : Item → Option α) : Option Item → Option α
  | some item => decode item
  | none => none

def withDefault {α : Type} (default : α) (decode : Item → Option α) :
    Option Item → Option α
  | some item => decode item
  | none => some default

def text? : Item → Option String
  | .text s => some s
  | _ => none

def bool? : Item → Option Bool
  | .bool b => some b
  | _ => none

def list? {α : Type} (decode : Item → Option α) : Item → Option (List α)
  | .array items | .tables items => items.mapM decode
  | _ => none

def textTable? : Item → Option (List (String × String))
  | .table _ entries | .inlineTable entries =>
      entries.mapM fun (key, item) => (text? item).map (key, ·)
  | _ => none

def isEmpty : Item → Bool
  | .table _ [] | .inlineTable [] | .array [] | .tables [] => true
  | _ => false

end MetricScope.Toml
