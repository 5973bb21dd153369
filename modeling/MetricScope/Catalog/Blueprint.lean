import MetricScope.Aggregation
import MetricScope.Catalog.Context

/-!
# Blueprints of dashboards

A dashboard before its queries are rendered. Rendering resolves the panel queries in
the order in which they stand and then the variables, and stops at the first query
that cannot be resolved.
-/

set_option autoImplicit false

namespace MetricScope.Catalog

open PromQL

inductive QuerySource where
  | named (name : String) (filters : List LabelFilter)
  | built (e : Expr) (filters : List LabelFilter)

structure QueryBlueprint where
  source : QuerySource
  legend : Option String

structure PanelBlueprint where
  title : String
  unit : String
  description : String
  queries : List QueryBlueprint

structure GroupBlueprint where
  title : String
  panels : List PanelBlueprint

structure VariableBlueprint where
  name : String
  displayName : String
  series : String

structure Blueprint where
  name : String
  displayName : String
  vars : List VariableBlueprint
  groups : List GroupBlueprint

namespace QuerySource

def name? : QuerySource → Option String
  | named name _ => some name
  | built _ _ => none

def render (ctx : Context) : QuerySource → Except (Halt Error) String
  | named name filters => ctx.namedQuery name filters
  | built e filters => .ok (ctx.builtQuery e filters)

end QuerySource

namespace QueryBlueprint

def named (name : String) (legend : Option String) : QueryBlueprint :=
  ⟨.named name [], legend⟩

def built (e : Expr) (filters : List LabelFilter) (legend : String) : QueryBlueprint :=
  ⟨.built e filters, some legend⟩

def render (ctx : Context) (q : QueryBlueprint) : Except (Halt Error) PanelQuery := do
  let expr ← q.source.render ctx
  pure ⟨expr, q.legend⟩

end QueryBlueprint

namespace PanelBlueprint

def single (title unit : String) (q : QueryBlueprint) : PanelBlueprint :=
  ⟨title, unit, "", [q]⟩

def render (ctx : Context) (p : PanelBlueprint) : Except (Halt Error) Panel := do
  let queries ← p.queries.mapM (QueryBlueprint.render ctx)
  pure ⟨p.title, p.description, p.unit, queries⟩

end PanelBlueprint

def GroupBlueprint.render (ctx : Context) (g : GroupBlueprint) :
    Except (Halt Error) PanelGroup := do
  let panels ← g.panels.mapM (PanelBlueprint.render ctx)
  pure ⟨g.title, panels⟩

def VariableBlueprint.render (ctx : Context) (v : VariableBlueprint) :
    Except (Halt Error) Variable :=
  ctx.variableFrom v.name v.displayName v.series

namespace Blueprint

def queries (b : Blueprint) : List QueryBlueprint :=
  (b.groups.flatMap GroupBlueprint.panels).flatMap PanelBlueprint.queries

def queryNames (b : Blueprint) : List String :=
  b.queries.filterMap fun q => q.source.name?

def render (ctx : Context) (b : Blueprint) : Except (Halt Error) Dashboard := do
  let groups ← b.groups.mapM (GroupBlueprint.render ctx)
  let vars ← b.vars.mapM (VariableBlueprint.render ctx)
  let start := ctx.dashboard b.name b.displayName
  pure { start with vars := start.vars ++ vars, groups := groups }

end Blueprint

abbrev NamedQuery := String × String

def braced (text : String) : String :=
  "\x7b" ++ text ++ "\x7d"

def legendOf (label : String) : String :=
  braced (braced label)

end MetricScope.Catalog
