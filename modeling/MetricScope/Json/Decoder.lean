import MetricScope.Json.Value

/-!
# Records in JSON

A record is written as an object, in which unknown members are ignored and known ones
stand once at most, or as an array of its fields in order, in which the last ones may
be left out.
-/

set_option autoImplicit false

namespace MetricScope.Json

/-- The members of that name; none if a member has a name without a text, or if the
name is repeated. -/
def member? (members : List (Option String × Value)) (name : String) :
    Option (Option Value) :=
  match members.filter fun m => m.1 == some name with
  | [] => some none
  | [m] => some (some m.2)
  | _ => none

def fields? (names : List String) : Value → Option (List (Option Value))
  | .object members =>
      if members.all fun m => m.1.isSome then names.mapM (member? members) else none
  | .array items =>
      if items.length ≤ names.length then
        some (items.map some ++ List.replicate (names.length - items.length) none)
      else none
  | _ => none

def required {α : Type} (decode : Value → Option α) : Option Value → Option α
  | some v => decode v
  | none => none

def withDefault {α : Type} (default : α) (decode : Value → Option α) :
    Option Value → Option α
  | some v => decode v
  | none => some default

def string? : Value → Option String
  | .string text => text
  | _ => none

def optionalString? : Value → Option (Option String)
  | .null => some none
  | v => (string? v).map some

def list? {α : Type} (decode : Value → Option α) : Value → Option (List α)
  | .array items => items.mapM decode
  | _ => none

end MetricScope.Json
