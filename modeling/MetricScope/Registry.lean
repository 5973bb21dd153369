import MetricScope.Error

/-!
# Named queries

Every panel query has a name and a default text, and a deployment may put another
text in its place. Entries are ordered by name.
-/

set_option autoImplicit false

namespace MetricScope

structure RegistryEntry where
  name : String
  default : String
  override? : Option String
  deriving DecidableEq, Repr

def RegistryEntry.text (e : RegistryEntry) : String :=
  e.override?.getD e.default

structure Registry where
  entries : List RegistryEntry
  deriving DecidableEq, Repr

namespace Registry

def empty : Registry := ⟨[]⟩

def find? (r : Registry) (name : String) : Option RegistryEntry :=
  r.entries.find? fun e => e.name == name

/-- Gives a name a default; an override that it has stays in force. -/
def registerIn (name text : String) : List RegistryEntry → List RegistryEntry
  | [] => [⟨name, text, none⟩]
  | e :: rest =>
      if e.name = name then { e with default := text } :: rest
      else if name < e.name then ⟨name, text, none⟩ :: e :: rest
      else e :: registerIn name text rest

def register (r : Registry) (name text : String) : Registry :=
  ⟨registerIn name text r.entries⟩

def overrideIn (name text : String) : List RegistryEntry → Option (List RegistryEntry)
  | [] => none
  | e :: rest =>
      if e.name = name then some ({ e with override? := some text } :: rest)
      else (overrideIn name text rest).map (e :: ·)

def override (r : Registry) (name text : String) : Except Error Registry :=
  match overrideIn name text r.entries with
  | some entries => .ok ⟨entries⟩
  | none => .error (.unknownQuery name)

def get (r : Registry) (name : String) : Except Error String :=
  match r.find? name with
  | some e => .ok e.text
  | none => .error (.unknownQuery name)

def isOverridden (r : Registry) (name : String) : Bool :=
  match r.find? name with
  | some e => e.override?.isSome
  | none => false

def overrides (r : Registry) : List (String × String) :=
  r.entries.filterMap fun e => e.override?.map (e.name, ·)

def names (r : Registry) : List String :=
  r.entries.map RegistryEntry.name

def size (r : Registry) : Nat :=
  r.entries.length

def isEmpty (r : Registry) : Bool :=
  r.entries.isEmpty

end Registry

end MetricScope
