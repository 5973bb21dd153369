import MetricScope.Proofs.Catalog.Sources
import MetricScope.Proofs.Registry.History
import MetricScope.Proofs.Sorting
import MetricScope.Proofs.Toml.Keys

/-!
# Contexts of configurations

The overrides of a configuration are a map, read in the order of its keys. All of them are
put into the registry of defaults, or none is: the first name that has no default, in the
order of bytes, is reported instead. What is asked of each name is only whether it is
registered, so texts never decide.
-/

set_option autoImplicit false

namespace MetricScope

/-- The overrides stand in the order of their names, each name once, as those of every
configuration do that is loaded (`Config.ordered_of_load`). -/
def Config.Ordered (c : Config) : Prop :=
  c.overrides.Pairwise fun p q => p.1 < q.1

namespace Toml

theorem map_fst_of_texts {entries : Entries} {pairs : List (String × String)}
    (h : (entries.mapM fun (key, item) => (text? item).map (key, ·)) = some pairs) :
    pairs.map Prod.fst = entries.map Prod.fst := by
  induction entries generalizing pairs with
  | nil =>
    cases h
    rfl
  | cons entry entries ih =>
    rw [List.mapM_cons] at h
    obtain ⟨pair, hpair, h⟩ := Option.bind_eq_some_iff.mp h
    obtain ⟨rest, hrest, heq⟩ := Option.bind_eq_some_iff.mp h
    obtain ⟨text, -, rfl⟩ := Option.map_eq_some_iff.mp hpair
    cases heq
    rw [List.map_cons, List.map_cons, ih hrest]

theorem nodup_of_textTable? {item : Item} (hitem : item.Keyed) {pairs : List (String × String)}
    (h : textTable? item = some pairs) : (pairs.map Prod.fst).Nodup := by
  cases hitem with
  | table hnodup _ => exact map_fst_of_texts h ▸ hnodup
  | inlineTable hnodup _ => exact map_fst_of_texts h ▸ hnodup
  | text => cases h
  | bool => cases h
  | scalar => cases h
  | array => cases h
  | tables => cases h

end Toml

namespace Config

theorem pairwise_of_overrides? {item : Toml.Item} (hitem : item.Keyed)
    {pairs : List (String × String)} (h : overrides? item = some pairs) :
    pairs.Pairwise fun p q => p.1 < q.1 := by
  obtain ⟨read, hread, heq⟩ := Option.bind_eq_some_iff.mp h
  cases heq
  let before (p q : String × String) : Prop := p.1 ≤ q.1
  have : Std.Total before := ⟨fun p q => le_total p.1 q.1⟩
  have : IsTrans _ before := ⟨fun _ _ _ => le_trans⟩
  have hsorted := List.pairwise_insertionSort before read
  have hnodup := Toml.nodup_of_textTable? hitem hread
  have hperm := (List.perm_insertionSort before read).map Prod.fst
  have hapart := List.pairwise_map.mp (hperm.nodup_iff.mpr hnodup)
  rw [sortBy_eq_insertionSort]
  apply (hsorted.and hapart).imp
  intro p q hpq
  exact lt_of_le_of_ne hpq.1 hpq.2

theorem ordered_of_decode? {entries : Toml.Entries} (hentries : entries.Keyed) {c : Config}
    (h : decode? entries = some c) : c.Ordered := by
  simp only [decode?, Option.bind_eq_bind, Option.bind_eq_some_iff, Option.pure_def,
    Option.some.injEq] at h
  obtain ⟨_, -, _, -, _, -, _, -, _, -, overrides, hoverrides, rfl⟩ := h
  cases hitem : Toml.Entries.item? entries "overrides" with
  | none =>
    rw [hitem] at hoverrides
    cases hoverrides
    exact List.Pairwise.nil
  | some item =>
    rw [hitem] at hoverrides
    exact pairwise_of_overrides? (hentries.item? hitem) hoverrides

theorem eq_of_validate {c c' : Config} (h : c.validate = .ok c') : c' = c := by
  rw [validate] at h
  split at h
  · cases h
  · split at h
    · cases h
    · cases h
      rfl

theorem ordered_of_ofToml {text : String} {c : Config} (h : ofToml text = .ok c) :
    c.Ordered := by
  rw [ofToml] at h
  split at h
  next read hread =>
    obtain ⟨entries, hentries, hdecode⟩ := Option.bind_eq_some_iff.mp hread
    rw [eq_of_validate h]
    exact ordered_of_decode? (Toml.keyed_read? hentries) hdecode
  · cases h

/-- Whatever stands at the path, a configuration that is loaded has ordered overrides. -/
theorem ordered_of_load {content : FileContent} {c : Config} (h : load content = .ok c) :
    c.Ordered := by
  cases content with
  | missing =>
    cases h
    exact List.Pairwise.nil
  | directory => cases h
  | bytes content =>
    rw [load] at h
    split at h
    · exact ordered_of_ofToml h
    · cases h

end Config

namespace Registry

def overriding (overrides : List (String × String)) : History :=
  overrides.map fun p => .override p.1 p.2

theorem overriding_concat (overrides : List (String × String)) (p : String × String) :
    overriding (overrides ++ [p]) = overriding overrides ++ [.override p.1 p.2] :=
  List.map_append

def overrideAll (r : Registry) (overrides : List (String × String)) : Except Error Registry :=
  overrides.foldlM (fun (r : Registry) (name, text) => r.override name text) r

theorem overrideAll_cons (r : Registry) (p : String × String) (overrides : List (String × String)) :
    r.overrideAll (p :: overrides) =
      (r.override p.1 p.2).bind fun r' => r'.overrideAll overrides :=
  rfl

def History.firstUnregistered? (history : History) (names : List String) : Option String :=
  names.find? fun name => (history.registered? name).isNone

section

variable {r : Registry} {history : History} {overrides : List (String × String)}

namespace History

theorem registered?_overriding (history : History) (overrides : List (String × String))
    (name : String) :
    registered? (history ++ overriding overrides) name = history.registered? name := by
  induction overrides using List.reverseRecOn with
  | nil => rw [overriding, List.map_nil, List.append_nil]
  | append_singleton overrides p ih =>
    rw [overriding_concat, ← List.append_assoc, registered?_concat]
    exact ih

theorem firstUnregistered?_concat_override (name text : String) (names : List String) :
    firstUnregistered? (history ++ [.override name text]) names =
      history.firstUnregistered? names := by
  simp only [firstUnregistered?, registered?_concat, Change.registered?, Option.none_or]

/-- Overrides of a registered name, each name once, are the ones in force. -/
theorem overridden?_overriding {name : String} (hreg : history.registered? name ≠ none)
    (hnone : history.overridden? name = none) (hapart : (overrides.map Prod.fst).Nodup)
    (text : String) : overridden? (history ++ overriding overrides) name = some text ↔
      (name, text) ∈ overrides := by
  induction overrides using List.reverseRecOn with
  | nil => simp [overriding, hnone]
  | append_singleton overrides p ih =>
    rw [List.map_append, List.nodup_append] at hapart
    have hstill : registered? (history ++ overriding overrides) name ≠ none := by
      rwa [registered?_overriding]
    rw [overriding_concat, ← List.append_assoc, overridden?_concat_of_registered hstill,
      List.mem_append, List.mem_singleton, Change.overridden?]
    -- The last override counts, and of its name there is no other.
    by_cases hname : p.1 = name
    · have hnew : (name, text) ∉ overrides := by
        intro hmem
        exact hapart.2.2 name (List.mem_map_of_mem hmem) p.1 (List.mem_singleton.mpr rfl)
          hname.symm
      rw [if_pos hname, Option.some_or, Option.some.injEq, ← hname, Prod.ext_iff]
      simp [hname, hnew, eq_comm]
    · have hother : (name, text) ≠ p := fun heq => hname (heq ▸ rfl)
      rw [if_neg hname, Option.none_or, ih hapart.1]
      simp [hother]

end History

theorem Follows.performAll (h : r.Follows history) (changes : History) :
    (changes.foldl Registry.perform r).Follows (history ++ changes) := by
  induction changes generalizing r history with
  | nil =>
    rw [List.append_nil]
    exact h
  | cons c changes ih =>
    rw [List.foldl_cons, List.append_cons]
    exact ih (h.perform c)

/-- One override is refused or performed, whatever its text is. -/
theorem Follows.override_eq (h : r.Follows history) (name text : String) :
    r.override name text =
      if (history.registered? name).isNone then .error (.unknownQuery name)
      else .ok (r.perform (.override name text)) := by
  by_cases hreg : history.registered? name = none
  · rw [hreg]
    exact (h.override_unregistered text hreg).1
  · obtain ⟨r', hr'⟩ := h.override_registered text hreg
    rw [if_neg (by simpa using hreg), Registry.perform, hr']

/-- All overrides are performed, unless a name is not registered. -/
theorem Follows.overrideAll_eq (h : r.Follows history) (overrides : List (String × String)) :
    r.overrideAll overrides =
      match history.firstUnregistered? (overrides.map Prod.fst) with
      | some name => .error (.unknownQuery name)
      | none => .ok ((overriding overrides).foldl Registry.perform r) := by
  induction overrides generalizing r history with
  | nil => rfl
  | cons p overrides ih =>
    rw [overrideAll_cons, h.override_eq, History.firstUnregistered?, List.map_cons,
      List.find?_cons]
    cases (history.registered? p.1).isNone with
    | true => rfl
    | false =>
      have hrun := ih (h.override p.1 p.2)
      rw [History.firstUnregistered?_concat_override] at hrun
      exact hrun

end

end Registry

namespace Catalog

open Registry (History)

def defaultHistory : History :=
  defaultQueries.map fun p => .register p.1 p.2

theorem follows_defaultRegistry : defaultRegistry.Follows defaultHistory := by
  have hreplay : defaultRegistry = defaultHistory.replay := by
    rw [defaultHistory, History.replay, List.foldl_map]
    rfl
  rw [hreplay]
  exact Registry.follows_replay defaultHistory

theorem overridden?_defaultHistory (name : String) : defaultHistory.overridden? name = none := by
  rw [History.overridden?, List.findSome?_eq_none_iff]
  intro c hc
  have hmem := (List.dropWhile_sublist _).subset (List.mem_reverse.mp hc)
  obtain ⟨p, -, rfl⟩ := List.mem_map.mp hmem
  rfl

theorem registered?_defaultHistory {name text : String} (h : (name, text) ∈ defaultQueries) :
    defaultHistory.registered? name = some text := by
  have hget := get_defaultRegistry _ h
  rw [follows_defaultRegistry.get] at hget
  cases hreg : defaultHistory.registered? name with
  | none =>
    rw [hreg] at hget
    cases hget
  | some default =>
    rw [hreg, overridden?_defaultHistory] at hget
    exact congrArg some (Except.ok.inj hget)

theorem registered?_defaultHistory_ne_none_iff {name : String} :
    defaultHistory.registered? name ≠ none ↔ name ∈ defaultRegistry.names := by
  rw [follows_defaultRegistry.mem_names_iff, History.mem_names_iff, Option.isSome_iff_ne_none]

theorem mem_names_defaultRegistry {name : String} :
    name ∈ defaultRegistry.names ↔ name ∈ defaultQueries.map Prod.fst := by
  rw [follows_defaultRegistry.mem_names_iff, History.names, List.mem_dedup, defaultHistory,
    List.filterMap_map]
  simp [Registry.Change.registeredName?, Function.comp_def]

def Known (c : Config) : Prop :=
  ∀ name ∈ c.overrides.map Prod.fst, name ∈ defaultRegistry.names

/-- The first name, in the order of bytes, that is overridden and has no default. -/
structure IsFirstUnknown (c : Config) (name : String) : Prop where
  overridden : name ∈ c.overrides.map Prod.fst
  unknown : name ∉ defaultRegistry.names
  first {other : String} : other ∈ c.overrides.map Prod.fst → other ∉ defaultRegistry.names →
    other ≠ name → Text.bytes name < Text.bytes other

/-- The registry has the names of the defaults, the overrides of the configuration and no
others, and under each name the override or else the default. -/
structure Overlays (c : Config) (r : Registry) : Prop where
  names : r.names = defaultRegistry.names
  mem_names (name : String) : name ∈ r.names ↔ name ∈ defaultQueries.map Prod.fst
  overrides : r.overrides = c.overrides
  increasing : r.overrides.Pairwise fun p q => Text.bytes p.1 < Text.bytes q.1
  get_override {name text : String} : (name, text) ∈ c.overrides → r.get name = .ok text
  get_default {name text : String} : (name, text) ∈ defaultQueries →
    name ∉ c.overrides.map Prod.fst → r.get name = .ok text

section

variable {c : Config}

theorem firstUnregistered?_eq_none_iff :
    defaultHistory.firstUnregistered? (c.overrides.map Prod.fst) = none ↔ Known c := by
  rw [History.firstUnregistered?, List.find?_eq_none, Known]
  simp only [← registered?_defaultHistory_ne_none_iff, Option.isNone_iff_eq_none, ne_eq]

/-- The first name without a default that is met is the least one. -/
theorem isFirstUnknown_of_firstUnregistered? (h : c.Ordered) {name : String}
    (hname : defaultHistory.firstUnregistered? (c.overrides.map Prod.fst) = some name) :
    IsFirstUnknown c name := by
  have hsorted : (c.overrides.map Prod.fst).Pairwise (· < ·) := List.pairwise_map.mpr h
  obtain ⟨hnone, before, after, hsplit, hbefore⟩ := List.find?_eq_some_iff_append.mp hname
  refine ⟨?_, ?_, ?_⟩
  · rw [hsplit]
    exact List.mem_append_right before List.mem_cons_self
  · intro hmem
    exact registered?_defaultHistory_ne_none_iff.mpr hmem (Option.isNone_iff_eq_none.mp hnone)
  · intro other hother hunknown hne
    rw [hsplit] at hother hsorted
    rcases List.mem_append.mp hother with hother | hother
    · have hreg : defaultHistory.registered? other ≠ none := by
        simpa [Option.isSome_iff_ne_none] using hbefore other hother
      exact absurd (registered?_defaultHistory_ne_none_iff.mp hreg) hunknown
    · have hafter := (List.mem_cons.mp hother).resolve_left hne
      have hrest := (List.pairwise_append.mp hsorted).2.1
      exact Text.bytes_lt_iff.mpr ((List.pairwise_cons.mp hrest).1 other hafter)

def configHistory (c : Config) : History :=
  defaultHistory ++ Registry.overriding c.overrides

theorem registered?_configHistory (c : Config) (name : String) :
    (configHistory c).registered? name = defaultHistory.registered? name :=
  History.registered?_overriding defaultHistory c.overrides name

theorem overridden?_configHistory_iff (h : c.Ordered) (hknown : Known c) (name text : String) :
    (configHistory c).overridden? name = some text ↔ (name, text) ∈ c.overrides := by
  by_cases hname : name ∈ defaultRegistry.names
  · have hapart : (c.overrides.map Prod.fst).Nodup := (List.pairwise_map.mpr h).imp ne_of_lt
    exact History.overridden?_overriding (registered?_defaultHistory_ne_none_iff.mpr hname)
      (overridden?_defaultHistory name) hapart text
  · have hreg : (configHistory c).registered? name = none := by
      rw [registered?_configHistory]
      exact not_not.mp (mt registered?_defaultHistory_ne_none_iff.mp hname)
    rw [History.overridden?_of_unregistered hreg]
    constructor
    · intro hnone
      cases hnone
    · intro hmem
      exact absurd (hknown name (List.mem_map_of_mem hmem)) hname

theorem names_of_follows {r : Registry} (hr : r.Follows (configHistory c)) :
    r.names = defaultRegistry.names := by
  have hsorted : r.names.Pairwise (· < ·) := List.pairwise_map.mpr hr.ordered
  have hdefaults : defaultRegistry.names.Pairwise (· < ·) :=
    List.pairwise_map.mpr follows_defaultRegistry.ordered
  apply hsorted.eq_of_mem_iff hdefaults
  intro name
  rw [hr.mem_names_iff, History.mem_names_iff, registered?_configHistory,
    ← registered?_defaultHistory_ne_none_iff, Option.isSome_iff_ne_none]

theorem overrides_of_follows (h : c.Ordered) (hknown : Known c) {r : Registry}
    (hr : r.Follows (configHistory c)) : r.overrides = c.overrides := by
  have hsorted : r.overrides.Pairwise fun p q => p.1 < q.1 :=
    hr.overrides_increasing.imp fun hlt => Text.bytes_lt_iff.mp hlt
  have hperm : r.overrides.Perm c.overrides := by
    apply (List.perm_ext_iff_of_nodup _ _).mpr
    · rintro ⟨name, text⟩
      rw [hr.mem_overrides_iff, overridden?_configHistory_iff h hknown]
    · exact hsorted.imp fun hlt heq => absurd hlt (by simp [heq])
    · exact h.imp fun hlt heq => absurd hlt (by simp [heq])
  apply hperm.eq_of_pairwise _ hsorted h
  intro p q _ _ hpq hqp
  exact absurd hqp (lt_asymm hpq)

theorem overlays_of_follows (h : c.Ordered) (hknown : Known c) {r : Registry}
    (hr : r.Follows (configHistory c)) : Overlays c r where
  names := names_of_follows hr
  mem_names name := by rw [names_of_follows hr, mem_names_defaultRegistry]
  overrides := overrides_of_follows h hknown hr
  increasing := hr.overrides_increasing
  get_override {name text} hmem := by
    obtain ⟨default, hreg⟩ := Option.ne_none_iff_exists'.mp
      (registered?_defaultHistory_ne_none_iff.mpr (hknown name (List.mem_map_of_mem hmem)))
    rw [hr.get, registered?_configHistory, hreg,
      (overridden?_configHistory_iff h hknown name text).mpr hmem]
    rfl
  get_default {name text} hmem hother := by
    have hnone : (configHistory c).overridden? name = none := by
      rw [Option.eq_none_iff_forall_ne_some]
      intro other hsome
      have hover := (overridden?_configHistory_iff h hknown name other).mp hsome
      exact hother (List.mem_map_of_mem hover)
    rw [hr.get, registered?_configHistory, registered?_defaultHistory hmem, hnone]
    rfl

namespace Context

theorem ofConfig_eq (c : Config) : ofConfig c =
    (defaultRegistry.overrideAll c.overrides).map fun r =>
      ⟨c.clusterLabel, c.datasource, c.project, c.extraFilters, r⟩ := by
  rw [ofConfig, show c.overrides.foldlM _ (registerDefaults .empty) =
    defaultRegistry.overrideAll c.overrides from rfl]
  cases defaultRegistry.overrideAll c.overrides with
  | error cause => rfl
  | ok r => rfl

/-- The outcome is told by the first name that the defaults do not register. -/
theorem ofConfig_eq_of_firstUnregistered? (c : Config) : ofConfig c =
    match defaultHistory.firstUnregistered? (c.overrides.map Prod.fst) with
    | some name => .error (.unknownQuery name)
    | none => .ok ⟨c.clusterLabel, c.datasource, c.project, c.extraFilters,
        (Registry.overriding c.overrides).foldl Registry.perform defaultRegistry⟩ := by
  rw [ofConfig_eq, follows_defaultRegistry.overrideAll_eq]
  cases defaultHistory.firstUnregistered? (c.overrides.map Prod.fst) with
  | some name => rfl
  | none => rfl

theorem exists_ofConfig_of_known (h : c.Ordered) (hknown : Known c) :
    ∃ r, ofConfig c = .ok ⟨c.clusterLabel, c.datasource, c.project, c.extraFilters, r⟩ ∧
      Overlays c r := by
  have hrun := follows_defaultRegistry.performAll (Registry.overriding c.overrides)
  refine ⟨_, ?_, overlays_of_follows h hknown hrun⟩
  rw [ofConfig_eq_of_firstUnregistered?, firstUnregistered?_eq_none_iff.mpr hknown]

theorem exists_isFirstUnknown (h : c.Ordered) {cause : Error} (hfail : ofConfig c = .error cause) :
    ∃ name, cause = .unknownQuery name ∧ IsFirstUnknown c name := by
  rw [ofConfig_eq_of_firstUnregistered?] at hfail
  cases hfirst : defaultHistory.firstUnregistered? (c.overrides.map Prod.fst) with
  | none =>
    rw [hfirst] at hfail
    cases hfail
  | some name =>
    rw [hfirst] at hfail
    exact ⟨name, (Except.error.inj hfail).symm, isFirstUnknown_of_firstUnregistered? h hfirst⟩

theorem exists_error_iff : (∃ cause, ofConfig c = .error cause) ↔ ¬ Known c := by
  rw [ofConfig_eq_of_firstUnregistered?, ← firstUnregistered?_eq_none_iff]
  cases defaultHistory.firstUnregistered? (c.overrides.map Prod.fst) with
  | none => simp
  | some name => simp

/-- Only the names that are overridden decide whether there is a context. -/
theorem ofConfig_error_congr {other : Config}
    (hnames : other.overrides.map Prod.fst = c.overrides.map Prod.fst) (cause : Error) :
    ofConfig other = .error cause ↔ ofConfig c = .error cause := by
  rw [ofConfig_eq_of_firstUnregistered?, ofConfig_eq_of_firstUnregistered?, hnames]
  cases defaultHistory.firstUnregistered? (c.overrides.map Prod.fst) with
  | none => simp
  | some name => rfl

/-- There is a context of a configuration unless a name is overridden that has no default;
the first such name is then the error, whatever the texts are. In the context all
overrides are in force, and nothing else has changed. -/
theorem ofConfig_all_or_nothing (h : c.Ordered) :
    ((∃ cause, ofConfig c = .error cause) ↔
      ∃ name ∈ c.overrides.map Prod.fst, name ∉ defaultRegistry.names) ∧
    (∀ cause, ofConfig c = .error cause →
      ∃ name, cause = .unknownQuery name ∧ IsFirstUnknown c name) ∧
    (∀ ctx, ofConfig c = .ok ctx → ∃ r,
      ctx = ⟨c.clusterLabel, c.datasource, c.project, c.extraFilters, r⟩ ∧ Overlays c r) ∧
    (∀ other : Config, other.overrides.map Prod.fst = c.overrides.map Prod.fst →
      ∀ cause, ofConfig other = .error cause ↔ ofConfig c = .error cause) := by
  refine ⟨?_, fun _ => exists_isFirstUnknown h, ?_, fun _ => ofConfig_error_congr⟩
  · rw [exists_error_iff, Known]
    simp only [not_forall, exists_prop]
  · intro ctx hctx
    have hknown : Known c := by
      by_contra hunknown
      obtain ⟨cause, hfail⟩ := exists_error_iff.mpr hunknown
      rw [hctx] at hfail
      cases hfail
    obtain ⟨r, hr, hover⟩ := exists_ofConfig_of_known h hknown
    rw [hctx] at hr
    exact ⟨r, Except.ok.inj hr, hover⟩

end Context

end

/-- The first text overrides a default. Of the names in the second text one is known, and
of the two others the smaller one is the error, although it is given last. -/
theorem Context.ofConfig_all_or_nothing_read :
    (∃ c r, Config.ofToml "[overrides]\n\"tempo.live_traces\" = \"up\"\n" = .ok c ∧
      Context.ofConfig c = .ok ⟨"cluster", "prometheus", "monitoring", [], r⟩ ∧
      r.overrides = [("tempo.live_traces", "up")]) ∧
    (∃ c, Config.ofToml
        "[overrides]\nz = \"up\"\n\"tempo.live_traces\" = \"up\"\n\"tempo.a\" = \"up\"\n" = .ok c ∧
      Context.ofConfig c = .error (.unknownQuery "tempo.a")) := by
  have hone : Config.ofToml "[overrides]\n\"tempo.live_traces\" = \"up\"\n" =
      .ok { Config.standard with overrides := [("tempo.live_traces", "up")] } := by
    decide +kernel
  have hthree : Config.ofToml
      "[overrides]\nz = \"up\"\n\"tempo.live_traces\" = \"up\"\n\"tempo.a\" = \"up\"\n" =
      .ok { Config.standard with
        overrides := [("tempo.a", "up"), ("tempo.live_traces", "up"), ("z", "up")] } := by
    decide +kernel
  have hlive : "tempo.live_traces" ∈ defaultRegistry.names := by
    rw [mem_names_defaultRegistry]
    decide +kernel
  constructor
  · obtain ⟨hfails, -, hdone, -⟩ := ofConfig_all_or_nothing (Config.ordered_of_ofToml hone)
    cases hrun : ofConfig { Config.standard with overrides := [("tempo.live_traces", "up")] } with
    | error cause =>
      obtain ⟨name, hname, hunknown⟩ := hfails.mp ⟨cause, hrun⟩
      rw [List.mem_singleton.mp hname] at hunknown
      exact absurd hlive hunknown
    | ok ctx =>
      obtain ⟨r, rfl, hover⟩ := hdone ctx hrun
      exact ⟨_, r, hone, hrun, hover.overrides⟩
  · obtain ⟨hfails, herror, -⟩ := ofConfig_all_or_nothing (Config.ordered_of_ofToml hthree)
    have ha : "tempo.a" ∉ defaultRegistry.names := by
      rw [mem_names_defaultRegistry]
      decide +kernel
    obtain ⟨cause, hrun⟩ := hfails.mpr ⟨"tempo.a", List.mem_cons_self, ha⟩
    obtain ⟨name, rfl, hfirst⟩ := herror cause hrun
    have hname : name = "tempo.a" := by
      have hmem := hfirst.overridden
      simp only [List.map_cons, List.map_nil, List.mem_cons, List.not_mem_nil, or_false] at hmem
      rcases hmem with rfl | rfl | rfl
      · rfl
      · exact absurd hlive hfirst.unknown
      · have hlt := Text.bytes_lt_iff.mp (hfirst.first List.mem_cons_self ha (by decide))
        exact absurd hlt (by decide)
    rw [hname] at hrun
    exact ⟨_, hthree, hrun⟩

end Catalog

end MetricScope
