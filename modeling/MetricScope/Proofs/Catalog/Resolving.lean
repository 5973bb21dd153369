import MetricScope.Proofs.Catalog.Sources

/-!
# When a catalog is built

Only a named query can keep a dashboard from being built: filters are merged into a query
once it is read, aggregations are not read at all, and the series of the variables are
fixed queries. How a build ends is therefore told by looking up and reading the named
queries of the enabled dashboards, one after the other.
-/

set_option autoImplicit false

namespace MetricScope

open PromQL

theorem Registry.get_eq_error_iff {r : Registry} {name : String} {cause : Error} :
    r.get name = .error cause ↔ name ∉ r.names ∧ cause = .unknownQuery name := by
  have hnone : r.find? name = none ↔ name ∉ r.names := by
    simp [find?, names]
  rw [← hnone, get]
  cases r.find? name with
  | none => simp [eq_comm]
  | some e => simp

namespace Query

/-- A text that is refused is told with the refusal. -/
theorem parse_eq_failed {text : String} {cause : Error}
    (h : parse text = .error (.failed cause)) : ∃ fault, cause = .parse text fault := by
  rw [parse_eq] at h
  cases hread : readChars text.toList with
  | ok e => simp [hread] at h
  | error halt =>
    rw [hread] at h
    cases halt with
    | failed fault => exact ⟨fault, (Halt.failed.inj (Except.error.inj h)).symm⟩
    | crashed => exact absurd (Except.error.inj h) (by simp [Halt.map])

end Query

namespace Catalog

section

variable {α β ε : Type}

def ending (r : Except ε α) : Except ε Unit :=
  r.map fun _ => ()

theorem ending_eq_ok_iff {r : Except ε α} : ending r = .ok () ↔ ∃ a, r = .ok a := by
  cases r <;> simp [ending, Except.map]

theorem ending_eq_error_iff {r : Except ε α} {cause : ε} :
    ending r = .error cause ↔ r = .error cause := by
  cases r <;> simp [ending, Except.map]

theorem ending_mapM (f : α → Except ε β) (xs : List α) :
    ending (xs.mapM f) = forM xs fun x => ending (f x) := by
  induction xs with
  | nil => rfl
  | cons x xs ih =>
    rw [List.mapM_cons, List.forM_cons, ← ih]
    cases f x with
    | error cause => rfl
    | ok y => cases xs.mapM f <;> rfl

theorem forM_flatMap (parts : α → List β) (f : β → Except ε Unit) (xs : List α) :
    forM (xs.flatMap parts) f = forM xs fun x => forM (parts x) f := by
  induction xs with
  | nil => rfl
  | cons x xs ih => rw [List.flatMap_cons, List.forM_append, List.forM_cons, ih]

theorem forM_congr {f g : α → Except ε Unit} {xs : List α} (h : ∀ x ∈ xs, f x = g x) :
    forM xs f = forM xs g := by
  induction xs with
  | nil => rfl
  | cons x xs ih =>
    rw [List.forM_cons, List.forM_cons, h x List.mem_cons_self,
      ih fun y hy => h y (List.mem_cons_of_mem x hy)]

theorem forM_eq_ok_iff {f : α → Except ε Unit} {xs : List α} :
    forM xs f = .ok () ↔ ∀ x ∈ xs, f x = .ok () := by
  induction xs with
  | nil => simp [pure, Except.pure]
  | cons x xs ih =>
    rw [List.forM_cons, List.forall_mem_cons, ← ih]
    cases f x <;> simp [bind, Except.bind]

/-- Steps end with the error of the first of them that fails. -/
theorem forM_eq_error_iff {f : α → Except ε Unit} {xs : List α} {cause : ε} :
    forM xs f = .error cause ↔ ∃ before x after, xs = before ++ x :: after ∧
      (∀ y ∈ before, f y = .ok ()) ∧ f x = .error cause := by
  constructor
  · intro h
    induction xs with
    | nil => exact absurd h (by simp [pure, Except.pure])
    | cons x xs ih =>
      rw [List.forM_cons] at h
      cases hx : f x with
      | error other =>
        rw [hx] at h
        exact ⟨[], x, xs, rfl, fun y hy => absurd hy List.not_mem_nil, hx.trans h⟩
      | ok u =>
        rw [hx] at h
        obtain ⟨before, y, after, rfl, hbefore, hy⟩ := ih h
        exact ⟨x :: before, y, after, rfl, List.forall_mem_cons.mpr ⟨hx, hbefore⟩, hy⟩
  · rintro ⟨before, x, after, rfl, hbefore, hx⟩
    rw [List.forM_append, forM_eq_ok_iff.mpr hbefore, List.forM_cons, hx]
    rfl

end

def Context.Resolves (ctx : Context) (name : String) : Prop :=
  ∃ text q, ctx.registry.get name = .ok text ∧ Query.parse text = .ok q

/-- The name is not registered, or the text in force under it is told to be no query. -/
inductive Context.Refuses (ctx : Context) (name : String) : Error → Prop where
  | unregistered (h : name ∉ ctx.registry.names) : ctx.Refuses name (.unknownQuery name)
  | unreadable {text : String} {fault : ParseError} (hget : ctx.registry.get name = .ok text)
      (hparse : Query.parse text = .error (.failed (.parse text fault))) :
      ctx.Refuses name (.parse text fault)

/-- The name is registered, and the text in force under it crashes its reading. -/
def Context.Crashes (ctx : Context) (name : String) : Prop :=
  ∃ text, ctx.registry.get name = .ok text ∧ Query.parse text = .error .crashed

/-- The name is looked up, once all names in front of it have resolved. -/
def Context.Reaches (ctx : Context) (names : List String) (name : String) : Prop :=
  ∃ before after, names = before ++ name :: after ∧ ∀ earlier ∈ before, ctx.Resolves earlier

section

variable {ctx : Context} {name : String}

theorem ending_resolve_eq_ok_iff : ending (ctx.resolve name) = .ok () ↔ ctx.Resolves name := by
  simp only [ending_eq_ok_iff, Context.resolve_eq_ok_iff, Context.Resolves]
  exact exists_comm

theorem ending_resolve_eq_failed_iff {cause : Error} :
    ending (ctx.resolve name) = .error (.failed cause) ↔ ctx.Refuses name cause := by
  rw [ending_eq_error_iff, Context.resolve]
  constructor
  · intro h
    cases hget : ctx.registry.get name with
    | error other =>
      rw [hget] at h
      obtain rfl := Halt.failed.inj (Except.error.inj h)
      obtain ⟨hname, rfl⟩ := Registry.get_eq_error_iff.mp hget
      exact .unregistered hname
    | ok text =>
      rw [hget] at h
      obtain ⟨fault, rfl⟩ := Query.parse_eq_failed h
      exact .unreadable hget h
  · intro h
    cases h with
    | unregistered hname => rw [Registry.get_eq_error_iff.mpr ⟨hname, rfl⟩]
    | unreadable hget hparse =>
      rw [hget]
      exact hparse

theorem ending_resolve_eq_crashed_iff :
    ending (ctx.resolve name) = .error .crashed ↔ ctx.Crashes name := by
  rw [ending_eq_error_iff, Context.resolve, Context.Crashes]
  cases ctx.registry.get name <;> simp

end

def enabledQueries (enabled : EnabledDashboards) : List NamedQuery :=
  (if enabled.kubernetes then Kubernetes.namedQueries else []) ++
  (if enabled.blackbox then Blackbox.namedQueries else []) ++
  (if enabled.otelCollector then OtelCollector.namedQueries else []) ++
  (if enabled.tempo then Tempo.namedQueries else [])

def lookups (enabled : EnabledDashboards) : List String :=
  (blueprints enabled).flatMap Blueprint.queryNames

/-- Every dashboard looks up each of its names once, in an order of its own. -/
theorem lookups_perm (enabled : EnabledDashboards) :
    (lookups enabled).Perm ((enabledQueries enabled).map Prod.fst) := by
  have hpart (on : Bool) (b : Blueprint) (queries : List NamedQuery)
      (h : b.queryNames.Perm (queries.map Prod.fst)) :
      ((if on then [b] else []).flatMap Blueprint.queryNames).Perm
        ((if on then queries else []).map Prod.fst) := by
    cases on
    · exact List.Perm.refl _
    · simpa using h
  simp only [lookups, blueprints, enabledQueries, List.flatMap_append, List.map_append]
  refine (((hpart _ _ _ ?_).append (hpart _ _ _ ?_)).append (hpart _ _ _ ?_)).append
    (hpart _ _ _ ?_)
  all_goals decide +kernel

/-- The errors of compactions come last, though they are registered before the traces. -/
example : Tempo.overview.queryNames =
    ["tempo.p99_latency", "tempo.p50_latency", "tempo.live_traces", "tempo.compaction_errors"] := by
  decide

section

variable (ctx : Context)

theorem QuerySource.ending_render (s : QuerySource) :
    ending (s.render ctx) = forM s.name?.toList fun name => ending (ctx.resolve name) := by
  cases s with
  | built e filters => rfl
  | named name filters =>
    have hone : (forM (named name filters).name?.toList fun name => ending (ctx.resolve name)) =
        (do ending (ctx.resolve name); pure ()) := rfl
    rw [hone, render, Context.namedQuery, Context.resolve]
    cases ctx.registry.get name with
    | error cause => rfl
    | ok text =>
      simp only [narrow]
      cases Query.parse text <;> rfl

theorem QueryBlueprint.ending_render (q : QueryBlueprint) :
    ending (q.render ctx) = forM q.source.name?.toList fun name => ending (ctx.resolve name) := by
  rw [← QuerySource.ending_render, render]
  cases q.source.render ctx <;> rfl

theorem PanelBlueprint.ending_render (p : PanelBlueprint) :
    ending (p.render ctx) = forM p.queries fun q => ending (q.render ctx) := by
  rw [← ending_mapM, render]
  cases p.queries.mapM (QueryBlueprint.render ctx) <;> rfl

theorem GroupBlueprint.ending_render (g : GroupBlueprint) :
    ending (g.render ctx) = forM g.panels fun p => ending (p.render ctx) := by
  rw [← ending_mapM, render]
  cases g.panels.mapM (PanelBlueprint.render ctx) <;> rfl

theorem VariableBlueprint.exists_render {v : VariableBlueprint}
    (h : readsSimple v.series.toList = true) : ∃ t, v.render ctx = .ok t := by
  obtain ⟨q, hq, -⟩ := exists_of_readsSimple h
  rw [render, Context.variableFrom, narrow, hq]
  exact ⟨_, rfl⟩

/-- A dashboard whose series are queries is built when its names resolve. -/
theorem Blueprint.ending_render {b : Blueprint}
    (h : ∀ v ∈ b.vars, readsSimple v.series.toList = true) :
    ending (b.render ctx) = forM b.queryNames fun name => ending (ctx.resolve name) := by
  obtain ⟨vars, hvars⟩ : ∃ vars, b.vars.mapM (VariableBlueprint.render ctx) = .ok vars :=
    exists_mapM_eq_ok fun v hv => VariableBlueprint.exists_render ctx (h v hv)
  -- The variables come after the groups and always succeed.
  have hgroups : ending (b.render ctx) = ending (b.groups.mapM (GroupBlueprint.render ctx)) := by
    rw [render]
    cases b.groups.mapM (GroupBlueprint.render ctx) with
    | error cause => rfl
    | ok groups =>
      simp only [bind, Except.bind, hvars]
      rfl
  rw [hgroups, ending_mapM, queryNames, List.filterMap_eq_flatMap_toList, queries]
  simp only [forM_flatMap, GroupBlueprint.ending_render, PanelBlueprint.ending_render,
    QueryBlueprint.ending_render]

/-- A build ends as the look-ups of its names do. -/
theorem ending_build (enabled : EnabledDashboards) :
    ending (build ctx enabled) = forM (lookups enabled) fun name => ending (ctx.resolve name) := by
  rw [build, ending_mapM, lookups, forM_flatMap]
  exact forM_congr fun b hb => Blueprint.ending_render ctx (readsSimple_series hb)

end

theorem exists_build_iff {ctx : Context} {enabled : EnabledDashboards} :
    (∃ dashboards, build ctx enabled = .ok dashboards) ↔
      ∀ p ∈ enabledQueries enabled, ctx.Resolves p.1 := by
  rw [← ending_eq_ok_iff, ending_build, forM_eq_ok_iff]
  simp only [(lookups_perm enabled).mem_iff, ending_resolve_eq_ok_iff, List.forall_mem_map]

/-- A build that gives no dashboards ends as the first look-up that gives no query. -/
theorem build_eq_error_iff {ctx : Context} {enabled : EnabledDashboards} {halt : Halt Error} :
    build ctx enabled = .error halt ↔ ∃ name,
      ctx.Reaches (lookups enabled) name ∧ ending (ctx.resolve name) = .error halt := by
  rw [← ending_eq_error_iff, ending_build, forM_eq_error_iff]
  simp only [ending_resolve_eq_ok_iff]
  constructor
  · rintro ⟨before, name, after, hcut, hbefore, hend⟩
    exact ⟨name, ⟨before, after, hcut, hbefore⟩, hend⟩
  · rintro ⟨name, ⟨before, after, hcut, hbefore⟩, hend⟩
    exact ⟨before, name, after, hcut, hbefore, hend⟩

/-- The dashboards are built if and only if every default query of theirs is still registered
and has a text in force that is a query. Otherwise the first name that is looked up in vain
decides: the error is that of the name, unless its text crashes the reading and the build
with it. Two contexts in which these names have the same texts in force end a build alike,
whatever else they hold. -/
theorem build_fails_at_first (ctx : Context) (enabled : EnabledDashboards) :
    ((∃ dashboards, build ctx enabled = .ok dashboards) ↔
      ∀ p ∈ enabledQueries enabled, ctx.Resolves p.1) ∧
    (∀ cause, build ctx enabled = .error (.failed cause) ↔
      ∃ name, ctx.Reaches (lookups enabled) name ∧ ctx.Refuses name cause) ∧
    (build ctx enabled = .error .crashed ↔
      ∃ name, ctx.Reaches (lookups enabled) name ∧ ctx.Crashes name) ∧
    (lookups enabled).Perm ((enabledQueries enabled).map Prod.fst) ∧
    ∀ other : Context,
      (∀ p ∈ enabledQueries enabled, other.registry.get p.1 = ctx.registry.get p.1) →
        ending (build other enabled) = ending (build ctx enabled) := by
  refine ⟨exists_build_iff, fun cause => ?_, ?_, lookups_perm enabled, fun other h => ?_⟩
  · rw [build_eq_error_iff]
    simp only [ending_resolve_eq_failed_iff]
  · rw [build_eq_error_iff]
    simp only [ending_resolve_eq_crashed_iff]
  · have hget : ∀ name ∈ lookups enabled, other.registry.get name = ctx.registry.get name := by
      simpa only [(lookups_perm enabled).mem_iff, List.forall_mem_map] using h
    rw [ending_build, ending_build]
    refine forM_congr fun name hname => ?_
    rw [Context.resolve, Context.resolve, hget name hname]

def onlyTempo : EnabledDashboards :=
  { kubernetes := false, blackbox := false, otelCollector := false, tempo := true }

def tracesContext (label traces compactions : String) : Context :=
  { Context.ofClusterLabel label with
    registry := [("tempo.p99_latency", "up"), ("tempo.p50_latency", "up"),
      ("tempo.compaction_errors", compactions), ("tempo.live_traces", traces)].foldl
        (fun r (name, text) => r.register name text) .empty }

/-- Of two broken texts the one that is looked up first is told, with any label for the
cluster; with both repaired the dashboard is built without the names of the others. -/
theorem build_fails_at_first_traces :
    (build (tracesContext "cluster" "sum(" "avg(") onlyTempo =
        .error (.failed (.parse "sum(" (.lexical .unclosedParenthesis))) ∧
      ending (build (tracesContext "" "sum(" "avg(") onlyTempo) =
        .error (.failed (.parse "sum(" (.lexical .unclosedParenthesis)))) ∧
    ∃ dashboards, build (tracesContext "cluster" "up" "up") onlyTempo = .ok dashboards := by
  obtain ⟨q, hup⟩ : ∃ q, Query.parse "up" = .ok q :=
    ending_eq_ok_iff.mp (by decide +kernel)
  have hbroken : ending (Query.parse "sum(") =
      .error (.failed (.parse "sum(" (.lexical .unclosedParenthesis))) := by
    decide +kernel
  have hearlier : ∀ name ∈ ["tempo.p99_latency", "tempo.p50_latency"],
      (tracesContext "cluster" "sum(" "avg(").registry.get name = .ok "up" := by
    decide +kernel
  have hrepaired : ∀ p ∈ enabledQueries onlyTempo,
      (tracesContext "cluster" "up" "up").registry.get p.1 = .ok "up" := by
    decide +kernel
  obtain ⟨-, herror, -, -, halike⟩ :=
    build_fails_at_first (tracesContext "cluster" "sum(" "avg(") onlyTempo
  have hbuild := (herror _).mpr ⟨"tempo.live_traces",
    ⟨["tempo.p99_latency", "tempo.p50_latency"], ["tempo.compaction_errors"], by decide,
      fun name hname => ⟨_, q, hearlier name hname, hup⟩⟩,
    .unreadable (by decide +kernel) (ending_eq_error_iff.mp hbroken)⟩
  refine ⟨⟨hbuild, ?_⟩, ?_⟩
  · rw [halike (tracesContext "" "sum(" "avg(") (by decide +kernel), ending_eq_error_iff]
    exact hbuild
  · exact (build_fails_at_first (tracesContext "cluster" "up" "up") onlyTempo).1.mpr
      fun p hp => ⟨_, q, hrepaired p hp, hup⟩

/-- A range of more seconds than fit into 64 bits crashes the build: there are no dashboards,
and no error tells the text. -/
theorem build_crashes_traces :
    (¬ ∃ dashboards, build (tracesContext "cluster" "m[99999999999999999999]" "up") onlyTempo =
        .ok dashboards) ∧
      ∀ cause, build (tracesContext "cluster" "m[99999999999999999999]" "up") onlyTempo ≠
        .error (.failed cause) := by
  have hcrash : build (tracesContext "cluster" "m[99999999999999999999]" "up") onlyTempo =
      .error .crashed := by
    rw [← ending_eq_error_iff, ending_build]
    decide +kernel
  simp [hcrash]

end Catalog

end MetricScope
