import MetricScope.Proofs.Catalog.Resolving
import MetricScope.Proofs.Registry.Entries

/-!
# What an override changes

Every name is shown by one panel query. Two contexts that differ in the text in force under
one name therefore build the same dashboards but for the text of that panel query.
-/

set_option autoImplicit false

namespace MetricScope

def PanelQuery.mapText (f : String → String) (q : PanelQuery) : PanelQuery :=
  { q with expr := f q.expr }

def Panel.mapTexts (f : String → String) (p : Panel) : Panel :=
  { p with queries := p.queries.map (PanelQuery.mapText f) }

def PanelGroup.mapTexts (f : String → String) (g : PanelGroup) : PanelGroup :=
  { g with panels := g.panels.map (Panel.mapTexts f) }

def Dashboard.mapTexts (f : String → String) (d : Dashboard) : Dashboard :=
  { d with groups := d.groups.map (PanelGroup.mapTexts f) }

/-- All of a dashboard but the texts of its panel queries. -/
def Dashboard.withoutTexts (d : Dashboard) : Dashboard :=
  d.mapTexts fun _ => ""

theorem Panel.mapTexts_id (p : Panel) : p.mapTexts id = p := by
  have hquery : PanelQuery.mapText id = id := rfl
  rw [mapTexts, hquery, List.map_id]

theorem PanelGroup.mapTexts_id (g : PanelGroup) : g.mapTexts id = g := by
  rw [mapTexts, funext Panel.mapTexts_id, List.map_id']

theorem Dashboard.mapTexts_id (d : Dashboard) : d.mapTexts id = d := by
  rw [mapTexts, funext PanelGroup.mapTexts_id, List.map_id']

namespace Catalog

section

variable {α β γ : Type} {R S : α → β → Prop}

theorem map_eq_map_of_forall₂ {view : β → γ} {xs : List α} {ys zs : List β}
    (hys : List.Forall₂ R xs ys) (hzs : List.Forall₂ S xs zs)
    (h : ∀ x ∈ xs, ∀ y z, R x y → S x z → view z = view y) : zs.map view = ys.map view := by
  induction hys generalizing zs with
  | nil =>
    cases hzs
    rfl
  | cons hy _ ih =>
    cases hzs with
    | cons hz hrest =>
      rw [List.map_cons, List.map_cons, h _ List.mem_cons_self _ _ hy hz,
        ih hrest fun x hx => h x (List.mem_cons_of_mem _ hx)]

theorem exists_of_forall₂_append_cons {before after : List α} {x : α} {ys : List β}
    (h : List.Forall₂ R (before ++ x :: after) ys) :
    ∃ first y rest, ys = first ++ y :: rest ∧ List.Forall₂ R before first ∧ R x y ∧
      List.Forall₂ R after rest := by
  induction before generalizing ys with
  | nil =>
    cases h with
    | cons hx hafter => exact ⟨[], _, _, rfl, .nil, hx, hafter⟩
  | cons b before ih =>
    cases h with
    | cons hb hrest =>
      obtain ⟨first, y, rest, rfl, hbefore, hx, hafter⟩ := ih hrest
      exact ⟨_ :: first, y, rest, rfl, .cons hb hbefore, hx, hafter⟩

end

/-- The contexts differ at most in the text in force under the name. -/
structure Context.AgreeExcept (name : String) (ctx other : Context) : Prop where
  clusterLabel : other.clusterLabel = ctx.clusterLabel
  datasource : other.datasource = ctx.datasource
  project : other.project = ctx.project
  extraFilters : other.extraFilters = ctx.extraFilters
  texts {n : String} (hne : n ≠ name) : other.registry.get n = ctx.registry.get n

namespace Context.AgreeExcept

variable {name : String} {ctx other : Context}

theorem scope (h : ctx.AgreeExcept name other) : other.scope = ctx.scope := by
  funext filters
  simp only [Context.scope, Context.clusterFilter, h.clusterLabel, h.extraFilters]

theorem render_source (h : ctx.AgreeExcept name other) {s : QuerySource}
    (hs : s.name? ≠ some name) : s.render other = s.render ctx := by
  cases s with
  | built e filters => simp only [QuerySource.render, Context.builtQuery, h.scope]
  | named n filters =>
    have hne : n ≠ name := fun heq => hs (congrArg some heq)
    simp only [QuerySource.render, Context.namedQuery, h.texts hne, h.scope]

theorem render_variable (h : ctx.AgreeExcept name other) (v : VariableBlueprint) :
    v.render other = v.render ctx := by
  simp only [VariableBlueprint.render, Context.variableFrom, Context.clusterFilter,
    h.clusterLabel]

theorem dashboard (h : ctx.AgreeExcept name other) (title displayName : String) :
    other.dashboard title displayName = ctx.dashboard title displayName := by
  simp only [Context.dashboard, Context.clusterVariable, h.clusterLabel, h.datasource, h.project]

end Context.AgreeExcept

theorem Context.agreeExcept_of_override {ctx : Context} {name text : String} {r : Registry}
    (h : ctx.registry.override name text = .ok r) :
    ctx.AgreeExcept name { ctx with registry := r } where
  clusterLabel := rfl
  datasource := rfl
  project := rfl
  extraFilters := rfl
  texts := Registry.get_of_override_of_ne h

def QuerySource.Alike (f : String → String) (ctx other : Context) (s : QuerySource) : Prop :=
  ∀ text text', s.render ctx = .ok text → s.render other = .ok text' → f text' = f text

section

variable {f : String → String} {ctx other : Context}

theorem QueryBlueprint.mapText_eq {q : QueryBlueprint} (h : q.source.Alike f ctx other)
    {t t' : PanelQuery} (ht : q.render ctx = .ok t) (ht' : q.render other = .ok t') :
    t'.mapText f = t.mapText f := by
  obtain ⟨text, htext, rfl⟩ := render_eq_ok_iff.mp ht
  obtain ⟨text', htext', rfl⟩ := render_eq_ok_iff.mp ht'
  simp only [PanelQuery.mapText, h text text' htext htext']

theorem PanelBlueprint.mapTexts_eq {p : PanelBlueprint}
    (h : ∀ q ∈ p.queries, q.source.Alike f ctx other)
    {t t' : Panel} (ht : p.render ctx = .ok t) (ht' : p.render other = .ok t') :
    t'.mapTexts f = t.mapTexts f := by
  obtain ⟨queries, hqueries, rfl⟩ := render_eq_ok_iff.mp ht
  obtain ⟨queries', hqueries', rfl⟩ := render_eq_ok_iff.mp ht'
  simp only [Panel.mapTexts, map_eq_map_of_forall₂ hqueries hqueries'
    fun q hq _ _ => QueryBlueprint.mapText_eq (h q hq)]

theorem GroupBlueprint.mapTexts_eq {g : GroupBlueprint}
    (h : ∀ p ∈ g.panels, ∀ q ∈ p.queries, q.source.Alike f ctx other)
    {t t' : PanelGroup} (ht : g.render ctx = .ok t) (ht' : g.render other = .ok t') :
    t'.mapTexts f = t.mapTexts f := by
  obtain ⟨panels, hpanels, rfl⟩ := render_eq_ok_iff.mp ht
  obtain ⟨panels', hpanels', rfl⟩ := render_eq_ok_iff.mp ht'
  simp only [PanelGroup.mapTexts, map_eq_map_of_forall₂ hpanels hpanels'
    fun p hp _ _ => PanelBlueprint.mapTexts_eq (h p hp)]

theorem Blueprint.mapTexts_eq {name : String} {b : Blueprint} (hagree : ctx.AgreeExcept name other)
    (h : ∀ q ∈ b.queries, q.source.Alike f ctx other)
    {t t' : Dashboard} (ht : b.render ctx = .ok t) (ht' : b.render other = .ok t') :
    t'.mapTexts f = t.mapTexts f := by
  obtain ⟨groups, vars, hgroups, hvars, rfl⟩ := render_eq_ok_iff.mp ht
  obtain ⟨groups', vars', hgroups', hvars', rfl⟩ := render_eq_ok_iff.mp ht'
  have hgroup : groups'.map (PanelGroup.mapTexts f) = groups.map (PanelGroup.mapTexts f) := by
    refine map_eq_map_of_forall₂ hgroups hgroups' fun g hg _ _ => GroupBlueprint.mapTexts_eq ?_
    intro p hp q hq
    exact h q (List.mem_flatMap.mpr ⟨p, List.mem_flatMap.mpr ⟨g, hg, hp⟩, hq⟩)
  have hvar : vars'.map id = vars.map id := by
    refine map_eq_map_of_forall₂ hvars hvars' fun v _ t t' ht ht' => ?_
    rw [hagree.render_variable, ht] at ht'
    exact (Except.ok.inj ht').symm
  rw [List.map_id, List.map_id] at hvar
  have hcluster : other.clusterVariable = ctx.clusterVariable := by
    simp only [Context.clusterVariable, hagree.clusterLabel]
  simp only [Dashboard.mapTexts, hgroup, hvar, hcluster, hagree.dashboard]

end

def panelSources (enabled : EnabledDashboards) : List QuerySource :=
  ((blueprints enabled).flatMap Blueprint.queries).map QueryBlueprint.source

def queryTexts (dashboards : List Dashboard) : List String :=
  (dashboards.flatMap Dashboard.queries).map PanelQuery.expr

theorem forall₂_texts_of_build {ctx : Context} {enabled : EnabledDashboards}
    {built : List Dashboard} (h : build ctx enabled = .ok built) :
    List.Forall₂ (fun s text => s.render ctx = .ok text) (panelSources enabled)
      (queryTexts built) := by
  have hqueries : List.Forall₂ (fun q t => QueryBlueprint.render ctx q = .ok t)
      ((blueprints enabled).flatMap Blueprint.queries) (built.flatMap Dashboard.queries) :=
    List.rel_flatMap (mapM_eq_ok_iff.mp h) fun _ _ hd => Blueprint.forall₂_queries_of_render hd
  rw [panelSources, queryTexts, List.forall₂_map_left_iff, List.forall₂_map_right_iff]
  refine hqueries.imp fun q t hq => ?_
  obtain ⟨text, htext, rfl⟩ := QueryBlueprint.render_eq_ok_iff.mp hq
  exact htext

theorem filterMap_panelSources (enabled : EnabledDashboards) :
    (panelSources enabled).filterMap QuerySource.name? = lookups enabled := by
  rw [panelSources, List.filterMap_map, List.filterMap_flatMap]
  rfl

theorem nodup_lookups (enabled : EnabledDashboards) : (lookups enabled).Nodup := by
  have hall : (lookups .every).Nodup := by decide +kernel
  exact hall.sublist ((blueprints_sublist enabled).flatMap Blueprint.queryNames)

structure Feeds (enabled : EnabledDashboards) (name : String) (filters : List LabelFilter)
    (before after : List QuerySource) : Prop where
  split : panelSources enabled = before ++ .named name filters :: after
  only {s : QuerySource} (hs : s ∈ before ++ after) : s.name? ≠ some name

/-- A name that is looked up feeds one panel query. -/
theorem exists_feeds {enabled : EnabledDashboards} {name : String}
    (h : name ∈ lookups enabled) :
    ∃ filters before after, Feeds enabled name filters before after := by
  have hnodup := nodup_lookups enabled
  rw [← filterMap_panelSources] at h hnodup
  obtain ⟨s, hs, hname⟩ := List.mem_filterMap.mp h
  obtain ⟨before, after, hsplit⟩ := List.append_of_mem hs
  cases s with
  | built e filters => simp [QuerySource.name?] at hname
  | named n filters =>
    obtain rfl : n = name := by simpa [QuerySource.name?] using hname
    refine ⟨filters, before, after, hsplit, fun {s} hmem hs' => ?_⟩
    -- A second source with the name would make the look-ups repeat it.
    rw [hsplit, List.filterMap_append, List.filterMap_cons_some hname, List.nodup_middle,
      ← List.filterMap_append, List.nodup_cons] at hnodup
    exact hnodup.1 (List.mem_filterMap.mpr ⟨s, hmem, hs'⟩)

section

variable {name : String} {ctx other : Context} {enabled : EnabledDashboards}
  {built rebuilt : List Dashboard}

theorem Context.AgreeExcept.alike (hagree : ctx.AgreeExcept name other) {s : QuerySource}
    (hs : s.name? ≠ some name) (f : String → String) : s.Alike f ctx other := by
  intro text text' htext htext'
  rw [hagree.render_source hs, htext] at htext'
  rw [Except.ok.inj htext']

theorem map_mapTexts_of_build {f : String → String} (hagree : ctx.AgreeExcept name other)
    (hbuilt : build ctx enabled = .ok built) (hrebuilt : build other enabled = .ok rebuilt)
    (h : ∀ s ∈ panelSources enabled, s.Alike f ctx other) :
    rebuilt.map (Dashboard.mapTexts f) = built.map (Dashboard.mapTexts f) := by
  refine map_eq_map_of_forall₂ (mapM_eq_ok_iff.mp hbuilt) (mapM_eq_ok_iff.mp hrebuilt)
    fun b hb _ _ => Blueprint.mapTexts_eq hagree fun q hq => h q.source ?_
  exact List.mem_map_of_mem (List.mem_flatMap.mpr ⟨b, hb, hq⟩)

theorem eq_of_build_of_not_mem (hagree : ctx.AgreeExcept name other)
    (hbuilt : build ctx enabled = .ok built) (hrebuilt : build other enabled = .ok rebuilt)
    (h : name ∉ lookups enabled) : rebuilt = built := by
  have hsource : ∀ s ∈ panelSources enabled, s.name? ≠ some name := by
    intro s hs hname
    rw [← filterMap_panelSources] at h
    exact h (List.mem_filterMap.mpr ⟨s, hs, hname⟩)
  have hmap := map_mapTexts_of_build hagree hbuilt hrebuilt
    fun s hs => hagree.alike (hsource s hs) id
  rwa [funext Dashboard.mapTexts_id, List.map_id', List.map_id'] at hmap

theorem texts_eq_of_render (hagree : ctx.AgreeExcept name other) {sources : List QuerySource}
    (h : ∀ s ∈ sources, s.name? ≠ some name) {texts texts' : List String}
    (htexts : List.Forall₂ (fun s text => s.render ctx = .ok text) sources texts)
    (htexts' : List.Forall₂ (fun s text => s.render other = .ok text) sources texts') :
    texts' = texts := by
  have hmap : texts'.map id = texts.map id :=
    map_eq_map_of_forall₂ htexts htexts' fun s hs => hagree.alike (h s hs) id
  rwa [List.map_id, List.map_id] at hmap

theorem queryTexts_of_feeds (hagree : ctx.AgreeExcept name other)
    (hbuilt : build ctx enabled = .ok built) (hrebuilt : build other enabled = .ok rebuilt)
    {filters : List LabelFilter} {before after : List QuerySource}
    (h : Feeds enabled name filters before after) :
    ∃ first text text' rest, first.length = before.length ∧
      ctx.namedQuery name filters = .ok text ∧ other.namedQuery name filters = .ok text' ∧
      queryTexts built = first ++ text :: rest ∧ queryTexts rebuilt = first ++ text' :: rest := by
  have htexts := forall₂_texts_of_build hbuilt
  have htexts' := forall₂_texts_of_build hrebuilt
  rw [h.split] at htexts htexts'
  obtain ⟨first, text, rest, hsplit, hfirst, htext, hrest⟩ := exists_of_forall₂_append_cons htexts
  obtain ⟨first', text', rest', hsplit', hfirst', htext', hrest'⟩ :=
    exists_of_forall₂_append_cons htexts'
  obtain rfl := texts_eq_of_render hagree
    (fun s hs => h.only (List.mem_append_left _ hs)) hfirst hfirst'
  obtain rfl := texts_eq_of_render hagree
    (fun s hs => h.only (List.mem_append_right _ hs)) hrest hrest'
  exact ⟨_, text, text', _, hfirst.length_eq.symm, htext, htext', hsplit, hsplit'⟩

/-- Let two contexts differ at most in the text in force under a name. What both build
differs at most in the texts of panel queries. If no enabled dashboard has the name, it is
the same; otherwise one panel query shows the name, and all other texts are the same. -/
theorem build_differs_at_own_query (hagree : ctx.AgreeExcept name other)
    (hbuilt : build ctx enabled = .ok built) (hrebuilt : build other enabled = .ok rebuilt) :
    rebuilt.map Dashboard.withoutTexts = built.map Dashboard.withoutTexts ∧
    (name ∉ (enabledQueries enabled).map Prod.fst → rebuilt = built) ∧
    (name ∈ (enabledQueries enabled).map Prod.fst → ∃ filters before after,
      Feeds enabled name filters before after ∧
      ∃ first text text' rest, first.length = before.length ∧
        ctx.namedQuery name filters = .ok text ∧ other.namedQuery name filters = .ok text' ∧
        queryTexts built = first ++ text :: rest ∧
        queryTexts rebuilt = first ++ text' :: rest) := by
  rw [← (lookups_perm enabled).mem_iff]
  refine ⟨?_, eq_of_build_of_not_mem hagree hbuilt hrebuilt, fun hname => ?_⟩
  -- Without their texts all panel queries are alike, whatever is in force.
  · exact map_mapTexts_of_build hagree hbuilt hrebuilt fun s _ text text' _ _ => rfl
  · obtain ⟨filters, before, after, hfeeds⟩ := exists_feeds hname
    exact ⟨filters, before, after, hfeeds, queryTexts_of_feeds hagree hbuilt hrebuilt hfeeds⟩

end

theorem resolves_ofClusterLabel (label : String) :
    ∀ p ∈ defaultQueries, (Context.ofClusterLabel label).Resolves p.1 := by
  intro p hp
  obtain ⟨q, hparse, -⟩ := exists_of_readsSimple (readsSimple_defaultQueries p hp)
  exact ⟨p.2, q, get_defaultRegistry p hp, hparse⟩

theorem resolves_of_override {label name text : String} {r : Registry}
    (h : defaultRegistry.override name text = .ok r) {p : NamedQuery} (hp : p ∈ defaultQueries)
    (hne : p.1 ≠ name) :
    Context.Resolves { Context.ofClusterLabel label with registry := r } p.1 := by
  obtain ⟨text', q, htext, hparse⟩ := resolves_ofClusterLabel label p hp
  have hagree : (Context.ofClusterLabel label).AgreeExcept name
      { Context.ofClusterLabel label with registry := r } :=
    Context.agreeExcept_of_override h
  exact ⟨text', q, (hagree.texts hne).trans htext, hparse⟩

/-- A text that crashes its reading crashes the build of all dashboards, whatever default query
it is put in the place of. -/
theorem build_crashes_of_override {label name text : String} {r : Registry}
    (h : defaultRegistry.override name text = .ok r) (hget : r.get name = .ok text)
    (hcrash : Query.parse text = .error .crashed) (hname : name ∈ lookups .every) :
    build { Context.ofClusterLabel label with registry := r } .every = .error .crashed := by
  obtain ⟨before, after, hsplit⟩ := List.append_of_mem hname
  have hnodup := nodup_lookups .every
  rw [hsplit, List.nodup_middle, List.nodup_cons] at hnodup
  refine build_eq_error_iff.mpr ⟨name, ⟨before, after, hsplit, ?_⟩,
    ending_resolve_eq_crashed_iff.mpr ⟨text, hget, hcrash⟩⟩
  intro earlier hearlier
  have hmem : earlier ∈ lookups .every := hsplit ▸ List.mem_append_left _ hearlier
  obtain ⟨p, hp, rfl⟩ := List.mem_map.mp ((lookups_perm .every).mem_iff.mp hmem)
  refine resolves_of_override h hp ?_
  rintro rfl
  exact hnodup.1 (List.mem_append_left _ hearlier)

/-- Another query is put in the place of that for live traces. -/
theorem build_differs_at_own_query_liveTraces :
    ∃ r built rebuilt, defaultRegistry.override "tempo.live_traces" "up" = .ok r ∧
      build (Context.ofClusterLabel "cluster") .every = .ok built ∧
      build { Context.ofClusterLabel "cluster" with registry := r } .every = .ok rebuilt ∧
      rebuilt.map Dashboard.withoutTexts = built.map Dashboard.withoutTexts ∧
      ∃ first text text' rest, queryTexts built = first ++ text :: rest ∧
        queryTexts rebuilt = first ++ text' :: rest := by
  obtain ⟨⟨_, text⟩, hmem, rfl⟩ : ∃ p ∈ defaultQueries, p.1 = "tempo.live_traces" := by
    decide +kernel
  obtain ⟨r, hr, hget⟩ := Registry.exists_override (get_defaultRegistry _ hmem) "up"
  obtain ⟨q, hup⟩ : ∃ q, Query.parse "up" = .ok q := ending_eq_ok_iff.mp (by decide +kernel)
  have hagree : (Context.ofClusterLabel "cluster").AgreeExcept "tempo.live_traces"
      { Context.ofClusterLabel "cluster" with registry := r } :=
    Context.agreeExcept_of_override hr
  have hevery : enabledQueries .every = defaultQueries := rfl
  obtain ⟨built, hbuilt⟩ : ∃ built, build (Context.ofClusterLabel "cluster") .every = .ok built :=
    exists_build_iff.mpr (hevery ▸ resolves_ofClusterLabel "cluster")
  obtain ⟨rebuilt, hrebuilt⟩ : ∃ rebuilt,
      build { Context.ofClusterLabel "cluster" with registry := r } .every = .ok rebuilt := by
    refine exists_build_iff.mpr fun p hp => ?_
    by_cases hname : p.1 = "tempo.live_traces"
    · exact ⟨"up", q, hname ▸ hget, hup⟩
    · exact resolves_of_override hr (hevery ▸ hp) hname
  obtain ⟨hframe, -, hown⟩ := build_differs_at_own_query hagree hbuilt hrebuilt
  obtain ⟨_, _, _, -, first, text, text', rest, -, -, -, hfirst, hsecond⟩ :=
    hown (by decide +kernel)
  exact ⟨r, built, rebuilt, hr, hbuilt, hrebuilt, hframe, first, text, text', rest, hfirst,
    hsecond⟩

end Catalog

end MetricScope
