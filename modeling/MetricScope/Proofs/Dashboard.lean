import MetricScope.Proofs.Json.Reading
import MetricScope.Rendering

/-!
# Dashboards are read back

Every part of a dashboard is encoded as an object of its fields and decoded from it, and
what is encoded has a text in all strings and names. So each part comes back from both
forms of its text, and two dashboards have different files.
-/

set_option autoImplicit false

namespace MetricScope

open Json (Value fields? list? required withDefault string? optionalString? parseWith?)

theorem Json.isTextual_text (s : String) : (Value.text s).IsTextual :=
  .string s

theorem Json.isTextual_list {α : Type} {encode : α → Value} (h : ∀ a, (encode a).IsTextual)
    (l : List α) : (Value.array (l.map encode)).IsTextual := by
  apply Value.IsTextual.array
  intro v hv
  obtain ⟨a, -, rfl⟩ := List.mem_map.mp hv
  exact h a

theorem Json.isTextual_ofFields {fields : List (String × Value)}
    (h : ∀ f ∈ fields, f.2.IsTextual) : (Value.ofFields fields).IsTextual := by
  apply Value.IsTextual.object
  · intro m hm
    obtain ⟨f, -, rfl⟩ := List.mem_map.mp hm
    rfl
  · intro m hm
    obtain ⟨f, hf, rfl⟩ := List.mem_map.mp hm
    exact h f hf

theorem PanelQuery.isTextual_encode (q : PanelQuery) : q.encode.IsTextual := by
  apply Json.isTextual_ofFields
  cases h : q.legend <;> simp [Json.isTextual_text]

theorem Panel.isTextual_encode (p : Panel) : p.encode.IsTextual := by
  apply Json.isTextual_ofFields
  simp [Json.isTextual_text, Json.isTextual_list PanelQuery.isTextual_encode]

theorem PanelGroup.isTextual_encode (g : PanelGroup) : g.encode.IsTextual := by
  apply Json.isTextual_ofFields
  simp [Json.isTextual_text, Json.isTextual_list Panel.isTextual_encode]

theorem Variable.isTextual_encode (x : Variable) : x.encode.IsTextual := by
  apply Json.isTextual_ofFields
  simp [Json.isTextual_text]

theorem Dashboard.isTextual_encode (d : Dashboard) : d.encode.IsTextual := by
  apply Json.isTextual_ofFields
  simp [Json.isTextual_text, Json.isTextual_list Variable.isTextual_encode,
    Json.isTextual_list PanelGroup.isTextual_encode]

theorem LabelFilter.isTextual_encode (f : LabelFilter) : f.encode.IsTextual := by
  apply Json.isTextual_ofFields
  simp [Json.isTextual_text]

theorem Json.list?_map {α : Type} {encode : α → Value} {decode : Value → Option α}
    (h : ∀ a, decode (encode a) = some a) (l : List α) :
    list? decode (.array (l.map encode)) = some l := by
  rw [list?]
  induction l with
  | nil => rfl
  | cons a rest ih =>
    rw [List.map_cons, List.mapM_cons, h, ih]
    rfl

theorem PanelQuery.decode?_encode (q : PanelQuery) : decode? q.encode = some q := by
  obtain ⟨expr, legend⟩ := q
  cases legend with
  | none => rfl
  | some legend => rfl

theorem Panel.decode?_encode (p : Panel) : decode? p.encode = some p := by
  have hqueries := Json.list?_map PanelQuery.decode?_encode p.queries
  have hfields : fields? ["title", "description", "unit", "queries"] p.encode =
      some [some (.text p.title), some (.text p.description), some (.text p.unit),
        some (.array (p.queries.map PanelQuery.encode))] := rfl
  rw [decode?, hfields]
  simp [required, withDefault, string?, Value.text, hqueries]

theorem PanelGroup.decode?_encode (g : PanelGroup) : decode? g.encode = some g := by
  have hpanels := Json.list?_map Panel.decode?_encode g.panels
  have hfields : fields? ["title", "panels"] g.encode =
      some [some (.text g.title), some (.array (g.panels.map Panel.encode))] := rfl
  rw [decode?, hfields]
  simp [required, withDefault, string?, Value.text, hpanels]

theorem Variable.decode?_encode (x : Variable) : decode? x.encode = some x := by
  rfl

theorem Dashboard.decode?_encode (d : Dashboard) : decode? d.encode = some d := by
  have hvars := Json.list?_map Variable.decode?_encode d.vars
  have hgroups := Json.list?_map PanelGroup.decode?_encode d.groups
  have hfields : fields? ["name", "display_name", "project", "datasource", "variables",
      "panel_groups"] d.encode =
      some [some (.text d.name), some (.text d.displayName), some (.text d.project),
        some (.text d.datasource), some (.array (d.vars.map Variable.encode)),
        some (.array (d.groups.map PanelGroup.encode))] := rfl
  rw [decode?, hfields]
  simp [required, withDefault, string?, Value.text, hvars, hgroups]

theorem LabelFilter.decode?_encode (f : LabelFilter) : decode? f.encode = some f := by
  obtain ⟨name, matchType, value⟩ := f
  cases matchType <;> rfl

/-- What is encoded comes back from the compact and from the pretty form of its text. -/
structure ReadsBack {α : Type} (encode : α → Value) (decode? : Value → Option α) : Prop where
  compact (a : α) : parseWith? decode? (encode a).compact = some a
  pretty (a : α) : parseWith? decode? (encode a).pretty = some a

theorem readsBack_of_decode?_encode {α : Type} {encode : α → Value} {decode? : Value → Option α}
    (htextual : ∀ a, (encode a).IsTextual) (hdecode : ∀ a, decode? (encode a) = some a) :
    ReadsBack encode decode? where
  compact a := by
    rw [parseWith?, (htextual a).read?_compact]
    exact hdecode a
  pretty a := by
    rw [parseWith?, (htextual a).read?_pretty]
    exact hdecode a

theorem ReadsBack.injective_pretty {α : Type} {encode : α → Value}
    {decode? : Value → Option α} (h : ReadsBack encode decode?) :
    Function.Injective fun a => (encode a).pretty := by
  intro a b hab
  have ha := h.pretty a
  rw [show (encode a).pretty = (encode b).pretty from hab, h.pretty b] at ha
  exact (Option.some.inj ha).symm

theorem Dashboard.readsBack : ReadsBack Dashboard.encode Dashboard.decode? :=
  readsBack_of_decode?_encode isTextual_encode decode?_encode

/-- Dashboards, their parts and label filters are read back from both forms of their
texts, so the file of a dashboard is that of no other one. -/
theorem dashboards_readBack :
    ReadsBack Dashboard.encode Dashboard.decode? ∧ ReadsBack Variable.encode Variable.decode? ∧
    ReadsBack PanelGroup.encode PanelGroup.decode? ∧ ReadsBack Panel.encode Panel.decode? ∧
    ReadsBack PanelQuery.encode PanelQuery.decode? ∧
    ReadsBack LabelFilter.encode LabelFilter.decode? ∧
    Function.Injective fun d => (Rendering.OutputFile.ofDashboard d).content :=
  ⟨Dashboard.readsBack,
    readsBack_of_decode?_encode Variable.isTextual_encode Variable.decode?_encode,
    readsBack_of_decode?_encode PanelGroup.isTextual_encode PanelGroup.decode?_encode,
    readsBack_of_decode?_encode Panel.isTextual_encode Panel.decode?_encode,
    readsBack_of_decode?_encode PanelQuery.isTextual_encode PanelQuery.decode?_encode,
    readsBack_of_decode?_encode LabelFilter.isTextual_encode LabelFilter.decode?_encode,
    Dashboard.readsBack.injective_pretty⟩

end MetricScope
