import MetricScope.Dashboard.Basic
import MetricScope.Json.Decoder
import MetricScope.Json.Reader
import MetricScope.Json.Value
import MetricScope.LabelFilter

/-!
# Dashboards in JSON

For each part of a dashboard how it is encoded, with its fields in order, and how it
is decoded, with the defaults of the fields that may be missing.
-/

set_option autoImplicit false

namespace MetricScope

open Json (Value required withDefault fields? string? optionalString? list?)

namespace PanelQuery

/-- A legend that is absent is left out. -/
def encode (q : PanelQuery) : Value :=
  .ofFields (("expr", .text q.expr) ::
    (match q.legend with
    | some legend => [("legend", .text legend)]
    | none => []))

def decode? (v : Value) : Option PanelQuery := do
  match ← fields? ["expr", "legend"] v with
  | [expr, legend] =>
    pure ⟨← required string? expr, ← withDefault none optionalString? legend⟩
  | _ => none

end PanelQuery

namespace Panel

def encode (p : Panel) : Value :=
  .ofFields [("title", .text p.title), ("description", .text p.description),
    ("unit", .text p.unit), ("queries", .array (p.queries.map PanelQuery.encode))]

def decode? (v : Value) : Option Panel := do
  match ← fields? ["title", "description", "unit", "queries"] v with
  | [title, description, unit, queries] =>
    pure ⟨← required string? title, ← withDefault "" string? description,
      ← withDefault "short" string? unit,
      ← required (list? PanelQuery.decode?) queries⟩
  | _ => none

end Panel

namespace PanelGroup

def encode (g : PanelGroup) : Value :=
  .ofFields [("title", .text g.title), ("panels", .array (g.panels.map Panel.encode))]

def decode? (v : Value) : Option PanelGroup := do
  match ← fields? ["title", "panels"] v with
  | [title, panels] =>
    pure ⟨← required string? title, ← withDefault [] (list? Panel.decode?) panels⟩
  | _ => none

end PanelGroup

namespace Variable

def encode (x : Variable) : Value :=
  .ofFields [("name", .text x.name), ("display_name", .text x.displayName),
    ("label", .text x.label), ("matcher_query", .text x.matcherQuery)]

def decode? (v : Value) : Option Variable := do
  match ← fields? ["name", "display_name", "label", "matcher_query"] v with
  | [name, displayName, label, matcherQuery] =>
    pure ⟨← required string? name, ← required string? displayName,
      ← required string? label, ← required string? matcherQuery⟩
  | _ => none

end Variable

namespace Dashboard

def encode (d : Dashboard) : Value :=
  .ofFields [("name", .text d.name), ("display_name", .text d.displayName),
    ("project", .text d.project), ("datasource", .text d.datasource),
    ("variables", .array (d.vars.map Variable.encode)),
    ("panel_groups", .array (d.groups.map PanelGroup.encode))]

def decode? (v : Value) : Option Dashboard := do
  match ← fields? ["name", "display_name", "project", "datasource", "variables",
      "panel_groups"] v with
  | [name, displayName, project, datasource, vars, groups] =>
    pure ⟨← required string? name, ← required string? displayName,
      ← required string? project, ← required string? datasource,
      ← withDefault [] (list? Variable.decode?) vars,
      ← withDefault [] (list? PanelGroup.decode?) groups⟩
  | _ => none

end Dashboard

def MatchType.decode? : Value → Option MatchType
  | .string (some name) => MatchType.ofName? name
  | .object [(some name, .null)] => MatchType.ofName? name
  | _ => none

namespace LabelFilter

def encode (f : LabelFilter) : Value :=
  .ofFields [("name", .text f.name), ("match_type", .text f.matchType.name),
    ("value", .text f.value)]

def decode? (v : Value) : Option LabelFilter := do
  match ← fields? ["name", "match_type", "value"] v with
  | [name, matchType, value] =>
    pure ⟨← required string? name, ← withDefault .equal MatchType.decode? matchType,
      ← required string? value⟩
  | _ => none

end LabelFilter

def Json.parseWith? {α : Type} (decode : Value → Option α) (text : String) : Option α := do
  let v ← Value.read? text
  decode v

end MetricScope
