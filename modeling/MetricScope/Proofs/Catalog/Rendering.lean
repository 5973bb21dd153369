import MetricScope.Catalog.Build
import MetricScope.Proofs.Steps

/-!
# What a rendered blueprint consists of

A blueprint is rendered if and only if all its queries and variables are. The dashboard then
has their results in the places of the blueprint.
-/

set_option autoImplicit false

namespace MetricScope.Catalog

def Context.resolve (ctx : Context) (name : String) : Except (Halt Error) Query :=
  match ctx.registry.get name with
  | .ok text => Query.parse text
  | .error cause => .error (.failed cause)

def QuerySource.narrowed (ctx : Context) : QuerySource → Except (Halt Error) Query
  | named name filters => do
    let q ← ctx.resolve name
    pure (q.mergeAll (ctx.scope filters))
  | built e filters => .ok ((Query.ofExpr e).mergeAll (ctx.scope filters))

def VariableBlueprint.narrowed (ctx : Context) (v : VariableBlueprint) :
    Except (Halt Error) Query := do
  let q ← Query.parse v.series
  pure (q.mergeAll [ctx.clusterFilter])

variable {ctx : Context}

theorem Context.resolve_eq_ok_iff {name : String} {q : Query} :
    ctx.resolve name = .ok q ↔
      ∃ text, ctx.registry.get name = .ok text ∧ Query.parse text = .ok q := by
  rw [resolve]
  cases ctx.registry.get name <;> simp

theorem QuerySource.render_of_narrowed {s : QuerySource} {q : Query} (h : s.narrowed ctx = .ok q) :
    s.render ctx = .ok q.text := by
  cases s with
  | built e filters =>
    obtain rfl := Except.ok.inj h
    rfl
  | named name filters =>
    simp only [narrowed, bind_eq_ok_iff, pure_eq_ok_iff, Context.resolve_eq_ok_iff] at h
    obtain ⟨parsed, ⟨text, htext, hparse⟩, rfl⟩ := h
    simp [render, Context.namedQuery, htext, narrow, hparse]

theorem VariableBlueprint.render_of_narrowed {v : VariableBlueprint} {q : Query}
    (h : v.narrowed ctx = .ok q) :
    v.render ctx = .ok ⟨v.name, v.displayName, v.name, q.text⟩ := by
  simp only [narrowed, bind_eq_ok_iff, pure_eq_ok_iff] at h
  obtain ⟨parsed, hparse, rfl⟩ := h
  simp [render, Context.variableFrom, narrow, hparse]

theorem QueryBlueprint.render_eq_ok_iff {q : QueryBlueprint} {p : PanelQuery} :
    q.render ctx = .ok p ↔ ∃ text, q.source.render ctx = .ok text ∧ p = ⟨text, q.legend⟩ := by
  simp only [render, bind_eq_ok_iff, pure_eq_ok_iff]

theorem PanelBlueprint.render_eq_ok_iff {p : PanelBlueprint} {r : Panel} :
    p.render ctx = .ok r ↔ ∃ queries,
      List.Forall₂ (fun q t => QueryBlueprint.render ctx q = .ok t) p.queries queries ∧
        r = ⟨p.title, p.description, p.unit, queries⟩ := by
  simp only [render, bind_eq_ok_iff, pure_eq_ok_iff, mapM_eq_ok_iff]

theorem GroupBlueprint.render_eq_ok_iff {g : GroupBlueprint} {r : PanelGroup} :
    g.render ctx = .ok r ↔ ∃ panels,
      List.Forall₂ (fun p t => PanelBlueprint.render ctx p = .ok t) g.panels panels ∧
        r = ⟨g.title, panels⟩ := by
  simp only [render, bind_eq_ok_iff, pure_eq_ok_iff, mapM_eq_ok_iff]

theorem Blueprint.render_eq_ok_iff {b : Blueprint} {d : Dashboard} :
    b.render ctx = .ok d ↔ ∃ groups vars,
      List.Forall₂ (fun g t => GroupBlueprint.render ctx g = .ok t) b.groups groups ∧
        List.Forall₂ (fun v t => VariableBlueprint.render ctx v = .ok t) b.vars vars ∧
          d = { ctx.dashboard b.name b.displayName with
            vars := ctx.clusterVariable :: vars, groups := groups } := by
  simp only [render, bind_eq_ok_iff, pure_eq_ok_iff, mapM_eq_ok_iff, exists_and_left]
  rfl

namespace Blueprint

variable {b : Blueprint} {d : Dashboard}

/-- The panel queries of a dashboard are those of its blueprint, in order. -/
theorem forall₂_queries_of_render (h : b.render ctx = .ok d) :
    List.Forall₂ (fun q t => QueryBlueprint.render ctx q = .ok t) b.queries d.queries := by
  obtain ⟨groups, vars, hgroups, -, rfl⟩ := render_eq_ok_iff.mp h
  have hpanels : List.Forall₂ (fun p t => PanelBlueprint.render ctx p = .ok t)
      (b.groups.flatMap GroupBlueprint.panels) (groups.flatMap PanelGroup.panels) := by
    refine List.rel_flatMap hgroups fun g t hg => ?_
    obtain ⟨panels, hpanels, rfl⟩ := GroupBlueprint.render_eq_ok_iff.mp hg
    exact hpanels
  refine List.rel_flatMap hpanels fun p t hp => ?_
  obtain ⟨queries, hqueries, rfl⟩ := PanelBlueprint.render_eq_ok_iff.mp hp
  exact hqueries

/-- Behind the variable for the cluster stand the variables of the blueprint. -/
theorem forall₂_vars_of_render (h : b.render ctx = .ok d) :
    ∃ vars, d.vars = ctx.clusterVariable :: vars ∧
      List.Forall₂ (fun v t => VariableBlueprint.render ctx v = .ok t) b.vars vars := by
  obtain ⟨groups, vars, -, hvars, rfl⟩ := render_eq_ok_iff.mp h
  exact ⟨vars, rfl, hvars⟩

theorem exists_render (hq : ∀ q ∈ b.queries, ∃ text, q.source.render ctx = .ok text)
    (hv : ∀ v ∈ b.vars, ∃ t, v.render ctx = .ok t) : ∃ d, b.render ctx = .ok d := by
  have hpanel : ∀ g ∈ b.groups, ∀ p ∈ g.panels, ∃ t, p.render ctx = .ok t := by
    intro g hg p hp
    have hqueries : ∀ q ∈ p.queries, ∃ t, q.render ctx = .ok t := by
      intro q hmem
      have hpanel : p ∈ b.groups.flatMap GroupBlueprint.panels := List.mem_flatMap.mpr ⟨g, hg, hp⟩
      obtain ⟨text, htext⟩ := hq q (List.mem_flatMap.mpr ⟨p, hpanel, hmem⟩)
      exact ⟨_, QueryBlueprint.render_eq_ok_iff.mpr ⟨text, htext, rfl⟩⟩
    obtain ⟨queries, hqueries⟩ := exists_mapM_eq_ok hqueries
    exact ⟨_, PanelBlueprint.render_eq_ok_iff.mpr ⟨queries, mapM_eq_ok_iff.mp hqueries, rfl⟩⟩
  have hgroup : ∀ g ∈ b.groups, ∃ t, g.render ctx = .ok t := by
    intro g hg
    obtain ⟨panels, hpanels⟩ := exists_mapM_eq_ok (hpanel g hg)
    exact ⟨_, GroupBlueprint.render_eq_ok_iff.mpr ⟨panels, mapM_eq_ok_iff.mp hpanels, rfl⟩⟩
  obtain ⟨groups, hgroups⟩ := exists_mapM_eq_ok hgroup
  obtain ⟨vars, hvars⟩ := exists_mapM_eq_ok hv
  exact ⟨_, render_eq_ok_iff.mpr
    ⟨groups, vars, mapM_eq_ok_iff.mp hgroups, mapM_eq_ok_iff.mp hvars, rfl⟩⟩

end Blueprint

theorem map_name_of_build {ctx : Context} {enabled : EnabledDashboards} {built : List Dashboard}
    (h : build ctx enabled = .ok built) :
    built.map Dashboard.name = (blueprints enabled).map Blueprint.name := by
  rw [build, mapM_eq_ok_iff] at h
  generalize blueprints enabled = bs at h ⊢
  induction h with
  | nil => rfl
  | cons hd _ ih =>
    obtain ⟨groups, vars, -, -, rfl⟩ := Blueprint.render_eq_ok_iff.mp hd
    rw [List.map_cons, List.map_cons, ih]
    rfl

/-- The enabled dashboards are some of all four, in the same order. -/
theorem blueprints_sublist (enabled : EnabledDashboards) :
    (blueprints enabled).Sublist [Kubernetes.clusterResources, Blackbox.overview,
      OtelCollector.overview, Tempo.overview] := by
  have hpart (on : Bool) (b : Blueprint) : (if on then [b] else []).Sublist [b] := by
    cases on
    · exact List.nil_sublist _
    · exact List.Sublist.refl _
  exact (((hpart _ _).append (hpart _ _)).append (hpart _ _)).append (hpart _ _)

theorem names_sublist (enabled : EnabledDashboards) :
    ((blueprints enabled).map Blueprint.name).Sublist ["kubernetes-cluster-resources",
      "blackbox-exporter", "opentelemetry-collector", "tempo-overview"] :=
  (blueprints_sublist enabled).map Blueprint.name

theorem nodup_names (enabled : EnabledDashboards) :
    ((blueprints enabled).map Blueprint.name).Nodup :=
  (names_sublist enabled).nodup (by decide)

theorem slash_not_mem_name {enabled : EnabledDashboards} {name : String}
    (h : name ∈ (blueprints enabled).map Blueprint.name) : '/' ∉ name.toList := by
  have hall : ∀ name ∈ ["kubernetes-cluster-resources", "blackbox-exporter",
      "opentelemetry-collector", "tempo-overview"], '/' ∉ name.toList := by decide +kernel
  exact hall name ((names_sublist enabled).subset h)

end MetricScope.Catalog
