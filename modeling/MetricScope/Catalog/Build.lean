import MetricScope.Catalog.Blackbox
import MetricScope.Catalog.Kubernetes
import MetricScope.Catalog.OtelCollector
import MetricScope.Catalog.Tempo

/-!
# The catalog

All default queries, the context that a configuration gives, and the dashboards that
are enabled, in a fixed order.
-/

set_option autoImplicit false

namespace MetricScope.Catalog

def defaultQueries : List NamedQuery :=
  Kubernetes.namedQueries ++ Blackbox.namedQueries ++ OtelCollector.namedQueries ++
    Tempo.namedQueries

def registerDefaults (r : Registry) : Registry :=
  defaultQueries.foldl (fun r (name, text) => r.register name text) r

namespace Context

def ofClusterLabel (label : String) : Context where
  clusterLabel := label
  datasource := Config.standard.datasource
  project := Config.standard.project
  extraFilters := []
  registry := registerDefaults .empty

/-- The defaults and then the overrides of a configuration, in the order of their
names; an override of an unknown name is an error. -/
def ofConfig (c : Config) : Except Error Context := do
  let registry ← c.overrides.foldlM (fun (r : Registry) (name, text) => r.override name text)
    (registerDefaults .empty)
  pure
    { clusterLabel := c.clusterLabel
      datasource := c.datasource
      project := c.project
      extraFilters := c.extraFilters
      registry := registry }

end Context

def blueprints (enabled : EnabledDashboards) : List Blueprint :=
  (if enabled.kubernetes then [Kubernetes.clusterResources] else []) ++
  (if enabled.blackbox then [Blackbox.overview] else []) ++
  (if enabled.otelCollector then [OtelCollector.overview] else []) ++
  (if enabled.tempo then [Tempo.overview] else [])

/-- The enabled dashboards, or what the first of them that cannot be built ends in. -/
def build (ctx : Context) (enabled : EnabledDashboards) :
    Except (Halt Error) (List Dashboard) :=
  (blueprints enabled).mapM (Blueprint.render ctx)

end MetricScope.Catalog
