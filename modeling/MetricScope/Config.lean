import MetricScope.Error
import MetricScope.LabelFilter
import MetricScope.Listing
import MetricScope.Text.Quoted
import MetricScope.Toml.Decoder
import MetricScope.Toml.Reader

/-!
# Configurations

What a deployment can set: the label that tells its clusters apart, filters for every
query, the dashboards that it wants, and query texts of its own.
-/

set_option autoImplicit false

namespace MetricScope

structure EnabledDashboards where
  kubernetes : Bool
  blackbox : Bool
  otelCollector : Bool
  tempo : Bool
  deriving DecidableEq, Repr

def EnabledDashboards.every : EnabledDashboards := ⟨true, true, true, true⟩

structure Config where
  clusterLabel : String
  datasource : String
  project : String
  extraFilters : List LabelFilter
  dashboards : EnabledDashboards
  /-- Query texts by name, in the order of the names. -/
  overrides : List (String × String)
  deriving DecidableEq, Repr

inductive FileContent where
  | missing
  | directory
  | bytes (content : ByteArray)

namespace Config

def standard : Config where
  clusterLabel := "cluster"
  datasource := "prometheus"
  project := "monitoring"
  extraFilters := []
  dashboards := .every
  overrides := []

/-- A kind of match is a name, or a table with that one key and nothing in it. -/
def matchType? : Toml.Item → Option MatchType
  | .text name => MatchType.ofName? name
  | .table _ [(name, item)] | .inlineTable [(name, item)] =>
      if Toml.isEmpty item then MatchType.ofName? name else none
  | _ => none

def filter? (item : Toml.Item) : Option LabelFilter := do
  match ← Toml.fields? ["name", "match_type", "value"] item with
  | [name, matchType, value] =>
    pure ⟨← Toml.required Toml.text? name, ← Toml.withDefault .equal matchType? matchType,
      ← Toml.required Toml.text? value⟩
  | _ => none

def dashboards? (item : Toml.Item) : Option EnabledDashboards := do
  match ← Toml.fields? ["kubernetes", "blackbox", "otel_collector", "tempo"] item with
  | [kubernetes, blackbox, otelCollector, tempo] =>
    let enabled := Toml.withDefault true Toml.bool?
    pure ⟨← enabled kubernetes, ← enabled blackbox, ← enabled otelCollector,
      ← enabled tempo⟩
  | _ => none

def overrides? (item : Toml.Item) : Option (List (String × String)) := do
  let pairs ← Toml.textTable? item
  pure (sortBy (fun a b => decide (a.1 ≤ b.1)) pairs)

def decode? (entries : Toml.Entries) : Option Config := do
  let field := Toml.Entries.item? entries
  let text (name default : String) : Option String :=
    Toml.withDefault default Toml.text? (field name)
  pure
    { clusterLabel := ← text "cluster_label" standard.clusterLabel
      datasource := ← text "datasource" standard.datasource
      project := ← text "project" standard.project
      extraFilters := ← Toml.withDefault [] (Toml.list? filter?) (field "extra_filters")
      dashboards := ← Toml.withDefault .every dashboards? (field "dashboards")
      overrides := ← Toml.withDefault [] overrides? (field "overrides") }

/-- A cluster label must not be blank, and values stand between quotes in queries, so
they must hold none. -/
def validate (c : Config) : Except Error Config :=
  if Text.isBlank c.clusterLabel then .error (.config .emptyClusterLabel)
  else
    match c.extraFilters.find? fun f => f.value.toList.contains '"' with
    | some f => .error (.config (.quotedFilterValue f.name))
    | none => .ok c

def ofToml (text : String) : Except Error Config :=
  match (Toml.read? text).bind decode? with
  | some c => c.validate
  | none => .error .toml

/-- The configuration in a file; without a file everything is standard. -/
def load : FileContent → Except Error Config
  | .missing => .ok standard
  | .directory => .error (.file .isDirectory)
  | .bytes content =>
    match String.fromUTF8? content with
    | some text => ofToml text
    | none => .error (.file .notUtf8)

end Config

end MetricScope
