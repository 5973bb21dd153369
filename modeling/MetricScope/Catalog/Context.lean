import MetricScope.Config
import MetricScope.Dashboard.Basic
import MetricScope.Query
import MetricScope.Registry

/-!
# The context of a rendering

Everything that a rendering depends on. Every query of every dashboard goes through
the context, which scopes it to the cluster that the viewer selects and to the extra
filters of the deployment.
-/

set_option autoImplicit false

namespace MetricScope.Catalog

open PromQL

structure Context where
  clusterLabel : String
  datasource : String
  project : String
  extraFilters : List LabelFilter
  registry : Registry
  deriving DecidableEq, Repr

def clusterVariableToken : String := "$cluster"

namespace Context

def clusterFilter (ctx : Context) : LabelFilter :=
  .equal ctx.clusterLabel clusterVariableToken

/-- All filters for a query: the cluster, then the deployment's, then its own. -/
def scope (ctx : Context) (extra : List LabelFilter) : List LabelFilter :=
  ctx.clusterFilter :: (ctx.extraFilters ++ extra)

def namedQuery (ctx : Context) (name : String) (extra : List LabelFilter) :
    Except (Halt Error) String :=
  match ctx.registry.get name with
  | .ok text => narrow text (ctx.scope extra)
  | .error cause => .error (.failed cause)

def builtQuery (ctx : Context) (e : Expr) (extra : List LabelFilter) : String :=
  ((Query.ofExpr e).mergeAll (ctx.scope extra)).text

def clusterVariable (ctx : Context) : Variable where
  name := "cluster"
  displayName := "Cluster"
  label := ctx.clusterLabel
  matcherQuery := "up"

def variableFrom (ctx : Context) (name displayName series : String) :
    Except (Halt Error) Variable :=
  match narrow series [ctx.clusterFilter] with
  | .ok query => .ok ⟨name, displayName, name, query⟩
  | .error halt => .error halt

def dashboard (ctx : Context) (name displayName : String) : Dashboard :=
  (Dashboard.empty name displayName ctx.project ctx.datasource).addVariable
    ctx.clusterVariable

end Context

end MetricScope.Catalog
