/-!
# Dashboards

Panels stand in groups; each panel shows one or more queries. Variables let a viewer
choose label values.
-/

set_option autoImplicit false

namespace MetricScope

structure PanelQuery where
  expr : String
  legend : Option String
  deriving DecidableEq, Repr

structure Panel where
  title : String
  description : String
  unit : String
  queries : List PanelQuery
  deriving DecidableEq, Repr

structure PanelGroup where
  title : String
  panels : List Panel
  deriving DecidableEq, Repr

structure Variable where
  name : String
  displayName : String
  label : String
  matcherQuery : String
  deriving DecidableEq, Repr

structure Dashboard where
  name : String
  displayName : String
  project : String
  datasource : String
  vars : List Variable
  groups : List PanelGroup
  deriving DecidableEq, Repr

namespace Panel

def empty (title unit : String) : Panel := ⟨title, "", unit, []⟩

def describe (p : Panel) (description : String) : Panel :=
  { p with description := description }

def addQuery (p : Panel) (expr : String) (legend : Option String) : Panel :=
  { p with queries := p.queries ++ [⟨expr, legend⟩] }

end Panel

namespace Dashboard

def empty (name displayName project datasource : String) : Dashboard :=
  ⟨name, displayName, project, datasource, [], []⟩

def addVariable (d : Dashboard) (v : Variable) : Dashboard :=
  { d with vars := d.vars ++ [v] }

def addGroup (d : Dashboard) (g : PanelGroup) : Dashboard :=
  { d with groups := d.groups ++ [g] }

def panels (d : Dashboard) : List Panel :=
  d.groups.flatMap PanelGroup.panels

def queries (d : Dashboard) : List PanelQuery :=
  d.panels.flatMap Panel.queries

end Dashboard

end MetricScope
