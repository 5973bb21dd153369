import Mathlib.Data.String.Basic
import MetricScope.Registry

/-!
# The entries of a registry

Registrations and overrides keep the entries in the order of their names, each name once.
What they do to the entry of one name they do to no other.
-/

set_option autoImplicit false

namespace MetricScope.Registry

variable {entries : List RegistryEntry}

def Ordered (entries : List RegistryEntry) : Prop :=
  entries.Pairwise fun a b => a.name < b.name

def entryAt? (entries : List RegistryEntry) (name : String) : Option RegistryEntry :=
  entries.find? fun e => e.name == name

theorem entryAt?_cons_self (e : RegistryEntry) (rest : List RegistryEntry) :
    entryAt? (e :: rest) e.name = some e := by
  simp [entryAt?]

theorem entryAt?_cons_of_ne {e : RegistryEntry} {name : String} (h : e.name ≠ name)
    (rest : List RegistryEntry) : entryAt? (e :: rest) name = entryAt? rest name := by
  simp [entryAt?, h]

theorem name_of_entryAt? {e : RegistryEntry} {name : String} (h : entryAt? entries name = some e) :
    e.name = name := by
  simpa using List.find?_some h

theorem entryAt?_eq_none_of_lt {name : String} (h : ∀ e ∈ entries, name < e.name) :
    entryAt? entries name = none := by
  rw [entryAt?, List.find?_eq_none]
  intro e he hname
  exact absurd (h e he) (by simp [eq_of_beq hname])

/-- In order every entry is the one that is found under its name. -/
theorem entryAt?_eq_some_iff (h : Ordered entries) {e : RegistryEntry} {name : String} :
    entryAt? entries name = some e ↔ e ∈ entries ∧ e.name = name := by
  constructor
  · intro he
    exact ⟨List.mem_of_find?_eq_some he, name_of_entryAt? he⟩
  · rintro ⟨he, rfl⟩
    induction entries with
    | nil => exact absurd he List.not_mem_nil
    | cons d rest ih =>
      obtain ⟨hd, hrest⟩ := List.pairwise_cons.mp h
      rcases List.mem_cons.mp he with rfl | he
      · exact entryAt?_cons_self e rest
      · rw [entryAt?_cons_of_ne (ne_of_lt (hd e he)), ih hrest he]

theorem mem_registerIn {name text : String} {e : RegistryEntry}
    (he : e ∈ registerIn name text entries) : e.name = name ∨ e ∈ entries := by
  induction entries with
  | nil => exact .inl (by rw [List.mem_singleton.mp he])
  | cons d rest ih =>
    rw [registerIn] at he
    split_ifs at he with hd hlt
    · rcases List.mem_cons.mp he with rfl | he
      · exact .inl hd
      · exact .inr (List.mem_cons_of_mem d he)
    · rcases List.mem_cons.mp he with rfl | he
      · exact .inl rfl
      · exact .inr he
    · rcases List.mem_cons.mp he with rfl | he
      · exact .inr List.mem_cons_self
      · exact (ih he).imp_right (List.mem_cons_of_mem d)

theorem ordered_registerIn (h : Ordered entries) (name text : String) :
    Ordered (registerIn name text entries) := by
  induction entries with
  | nil => exact List.pairwise_singleton _ _
  | cons d rest ih =>
    obtain ⟨hd, hrest⟩ := List.pairwise_cons.mp h
    rw [registerIn]
    split_ifs with hname hlt
    · exact List.pairwise_cons.mpr ⟨hd, hrest⟩
    · refine List.pairwise_cons.mpr ⟨fun e he => ?_, h⟩
      rcases List.mem_cons.mp he with rfl | he
      · exact hlt
      · exact lt_trans hlt (hd e he)
    · refine List.pairwise_cons.mpr ⟨fun e he => ?_, ih hrest⟩
      rcases mem_registerIn he with rfl | he
      · exact lt_of_le_of_ne (not_lt.mp hlt) hname
      · exact hd e he

/-- A registration sets the default of its name and keeps an override. -/
theorem entryAt?_registerIn_self (h : Ordered entries) (name text : String) :
    entryAt? (registerIn name text entries) name =
      some ⟨name, text, (entryAt? entries name).bind RegistryEntry.override?⟩ := by
  induction entries with
  | nil => exact entryAt?_cons_self ⟨name, text, none⟩ []
  | cons d rest ih =>
    obtain ⟨hd, hrest⟩ := List.pairwise_cons.mp h
    rw [registerIn]
    split_ifs with hname hlt
    · subst hname
      rw [entryAt?_cons_self d rest]
      exact entryAt?_cons_self { d with default := text } rest
    · have hnone : entryAt? (d :: rest) name = none := by
        apply entryAt?_eq_none_of_lt
        intro e he
        rcases List.mem_cons.mp he with rfl | he
        · exact hlt
        · exact lt_trans hlt (hd e he)
      rw [hnone]
      exact entryAt?_cons_self ⟨name, text, none⟩ (d :: rest)
    · rw [entryAt?_cons_of_ne hname, entryAt?_cons_of_ne hname, ih hrest]

theorem entryAt?_registerIn_of_ne {name n : String} (hn : name ≠ n) (text : String) :
    entryAt? (registerIn name text entries) n = entryAt? entries n := by
  induction entries with
  | nil => exact entryAt?_cons_of_ne (e := ⟨name, text, none⟩) hn []
  | cons d rest ih =>
    rw [registerIn]
    split_ifs with hname hlt
    · subst hname
      rw [entryAt?_cons_of_ne hn]
      exact entryAt?_cons_of_ne (e := { d with default := text }) hn rest
    · exact entryAt?_cons_of_ne (e := ⟨name, text, none⟩) hn (d :: rest)
    · by_cases hd : d.name = n
      · rw [← hd, entryAt?_cons_self, entryAt?_cons_self]
      · rw [entryAt?_cons_of_ne hd, entryAt?_cons_of_ne hd, ih]

theorem overrideIn_eq_none_iff {name text : String} :
    overrideIn name text entries = none ↔ entryAt? entries name = none := by
  induction entries with
  | nil => simp [overrideIn, entryAt?]
  | cons d rest ih =>
    rw [overrideIn]
    split_ifs with hname
    · subst hname
      simp [entryAt?_cons_self]
    · rw [entryAt?_cons_of_ne hname, Option.map_eq_none_iff, ih]

theorem map_name_overrideIn {name text : String} {entries' : List RegistryEntry}
    (h : overrideIn name text entries = some entries') :
    entries'.map RegistryEntry.name = entries.map RegistryEntry.name := by
  induction entries generalizing entries' with
  | nil => simp [overrideIn] at h
  | cons d rest ih =>
    rw [overrideIn] at h
    split_ifs at h with hname
    · rw [← Option.some.inj h]
      rfl
    · obtain ⟨rest', hrest', rfl⟩ := Option.map_eq_some_iff.mp h
      rw [List.map_cons, List.map_cons, ih hrest']

/-- An override sets the text of its name and keeps the default. -/
theorem entryAt?_overrideIn_self {name text : String} {entries' : List RegistryEntry}
    (h : overrideIn name text entries = some entries') :
    entryAt? entries' name =
      (entryAt? entries name).map fun e => { e with override? := some text } := by
  induction entries generalizing entries' with
  | nil => simp [overrideIn] at h
  | cons d rest ih =>
    rw [overrideIn] at h
    split_ifs at h with hname
    · subst hname
      rw [← Option.some.inj h, entryAt?_cons_self d rest]
      exact entryAt?_cons_self { d with override? := some text } rest
    · obtain ⟨rest', hrest', rfl⟩ := Option.map_eq_some_iff.mp h
      rw [entryAt?_cons_of_ne hname, entryAt?_cons_of_ne hname, ih hrest']

theorem entryAt?_overrideIn_of_ne {name text n : String} {entries' : List RegistryEntry}
    (h : overrideIn name text entries = some entries') (hn : name ≠ n) :
    entryAt? entries' n = entryAt? entries n := by
  induction entries generalizing entries' with
  | nil => simp [overrideIn] at h
  | cons d rest ih =>
    rw [overrideIn] at h
    split_ifs at h with hname
    · subst hname
      rw [← Option.some.inj h, entryAt?_cons_of_ne hn]
      exact entryAt?_cons_of_ne (e := { d with override? := some text }) hn rest
    · obtain ⟨rest', hrest', rfl⟩ := Option.map_eq_some_iff.mp h
      by_cases hd : d.name = n
      · rw [← hd, entryAt?_cons_self, entryAt?_cons_self]
      · rw [entryAt?_cons_of_ne hd, entryAt?_cons_of_ne hd, ih hrest']

theorem ordered_of_map_name {entries' : List RegistryEntry} (h : Ordered entries)
    (hnames : entries'.map RegistryEntry.name = entries.map RegistryEntry.name) :
    Ordered entries' := by
  have hmap : (entries.map RegistryEntry.name).Pairwise (· < ·) := List.pairwise_map.mpr h
  rw [← hnames] at hmap
  exact List.pairwise_map.mp hmap

/-- A name that is looked up can be given another text, which is then in force. -/
theorem exists_override {r : Registry} {name text : String} (h : r.get name = .ok text)
    (other : String) : ∃ r', r.override name other = .ok r' ∧ r'.get name = .ok other := by
  obtain ⟨e, he⟩ : ∃ e, r.find? name = some e := by
    cases hfind : r.find? name with
    | none => simp [get, hfind] at h
    | some e => exact ⟨e, rfl⟩
  cases hentries : overrideIn name other r.entries with
  | none =>
    have hnone : r.find? name = none := overrideIn_eq_none_iff.mp hentries
    simp [he] at hnone
  | some entries' =>
    refine ⟨⟨entries'⟩, by rw [override, hentries], ?_⟩
    have hself : find? ⟨entries'⟩ name =
        (r.find? name).map fun e => { e with override? := some other } :=
      entryAt?_overrideIn_self hentries
    rw [get, hself, he]
    rfl

theorem get_of_override_of_ne {r r' : Registry} {name text n : String}
    (h : r.override name text = .ok r') (hn : n ≠ name) : r'.get n = r.get n := by
  rw [override] at h
  split at h
  next entries' hentries =>
    obtain rfl := Except.ok.inj h
    have hfind : find? ⟨entries'⟩ n = r.find? n := entryAt?_overrideIn_of_ne hentries hn.symm
    rw [get, get, hfind]
  · exact absurd h (by simp)

end MetricScope.Registry
