import Mathlib.Data.List.Nodup
import MetricScope.Toml.Reader

/-!
# Tables without repeated keys

A key that is given again makes a document unreadable, wherever its table stands and by
whichever header, dotted key or pair it is given. So in what is read every table has each
of its keys once.
-/

set_option autoImplicit false

namespace MetricScope.Toml

inductive Item.Keyed : Item → Prop
  | text (s : String) : Keyed (.text s)
  | bool (b : Bool) : Keyed (.bool b)
  | scalar : Keyed .scalar
  | array {items : List Item} : (∀ item ∈ items, Keyed item) → Keyed (.array items)
  | inlineTable {entries : Entries} : (entries.map Prod.fst).Nodup →
      (∀ entry ∈ entries, Keyed entry.2) → Keyed (.inlineTable entries)
  | table {origin : TableOrigin} {entries : Entries} : (entries.map Prod.fst).Nodup →
      (∀ entry ∈ entries, Keyed entry.2) → Keyed (.table origin entries)
  | tables {items : List Item} : (∀ item ∈ items, Keyed item) → Keyed (.tables items)

namespace Entries

structure Keyed (entries : Entries) : Prop where
  nodup : (entries.map Prod.fst).Nodup
  items : ∀ entry ∈ entries, entry.2.Keyed

variable {entries : Entries} {key : String} {item : Item}

theorem keyed_nil : Keyed [] where
  nodup := List.nodup_nil
  items := List.forall_mem_nil _

theorem keyed_of_table {origin : TableOrigin} (h : (Item.table origin entries).Keyed) :
    Keyed entries := by
  cases h with
  | table hnodup hitems => exact ⟨hnodup, hitems⟩

theorem Keyed.item? (h : Keyed entries) (hitem : entries.item? key = some item) :
    item.Keyed := by
  obtain ⟨entry, hfind, rfl⟩ := Option.map_eq_some_iff.mp hitem
  exact h.items entry (List.mem_of_find?_eq_some hfind)

theorem Keyed.append (h : Keyed entries) (hkey : entries.item? key = none)
    (hitem : item.Keyed) : Keyed (entries ++ [(key, item)]) where
  nodup := by
    have hnew : key ∉ entries.map Prod.fst := by
      intro hmem
      obtain ⟨entry, hentry, hname⟩ := List.mem_map.mp hmem
      have hfind := List.find?_eq_none.mp (Option.map_eq_none_iff.mp hkey) entry hentry
      exact hfind (beq_iff_eq.mpr hname)
    rw [List.map_append]
    exact h.nodup.append (List.nodup_singleton key) (by simpa using hnew)
  items entry hmem := by
    rcases List.mem_append.mp hmem with hmem | hmem
    · exact h.items entry hmem
    · rw [List.mem_singleton.mp hmem]
      exact hitem

/-- A new item under a key leaves the keys as they are. -/
theorem Keyed.replace (h : Keyed entries) (hitem : item.Keyed) :
    Keyed (entries.replace key item) where
  nodup := by
    have hkeys : (entries.replace key item).map Prod.fst = entries.map Prod.fst := by
      rw [Entries.replace, List.map_map]
      apply List.map_congr_left
      intro entry _
      by_cases hkey : entry.1 = key <;> simp [hkey]
    rw [hkeys]
    exact h.nodup
  items entry hmem := by
    obtain ⟨old, hold, rfl⟩ := List.mem_map.mp hmem
    by_cases hkey : old.1 = key
    · simpa [hkey] using hitem
    · simpa [hkey] using h.items old hold

end Entries

def Change.KeepsKeys (change : Change) : Prop :=
  ∀ ⦃origin origin' : TableOrigin⦄ ⦃entries entries' : Entries⦄,
    entries.Keyed → change origin entries = some (origin', entries') → entries'.Keyed

/-- Tables in double brackets, of which the last one is new or changed. -/
theorem Item.Keyed.concat {items front : List Item} {item : Item}
    (h : (Item.tables items).Keyed) (hfront : ∀ i ∈ front, i ∈ items) (hitem : item.Keyed) :
    (Item.tables (front ++ [item])).Keyed := by
  cases h with
  | tables hitems =>
    apply Item.Keyed.tables
    intro i hi
    rcases List.mem_append.mp hi with hi | hi
    · exact hitems i (hfront i hi)
    · rw [List.mem_singleton.mp hi]
      exact hitem

theorem keyed_emptyTable (origin : TableOrigin) : (Item.table origin []).Keyed :=
  .table List.nodup_nil (List.forall_mem_nil _)

theorem keepsKeys_openTable (key : String) : Change.KeepsKeys (openTable key) := by
  intro origin origin' entries entries' h hchange
  unfold openTable at hchange
  cases hkey : entries.item? key with
  | none =>
    rw [hkey] at hchange
    cases hchange
    exact h.append hkey (keyed_emptyTable _)
  | some item =>
    simp only [hkey] at hchange
    cases item with
    | table o es =>
      have hes := Entries.keyed_of_table (h.item? hkey)
      dsimp only at hchange
      split_ifs at hchange
      cases hchange
      exact h.replace (.table hes.nodup hes.items)
    | _ => cases hchange

theorem keepsKeys_addTable (key : String) : Change.KeepsKeys (addTable key) := by
  intro origin origin' entries entries' h hchange
  unfold addTable at hchange
  cases hkey : entries.item? key with
  | none =>
    rw [hkey] at hchange
    cases hchange
    exact h.append hkey (.tables (by simpa using keyed_emptyTable _))
  | some item =>
    simp only [hkey] at hchange
    cases item with
    | tables items =>
      cases hchange
      exact h.replace ((h.item? hkey).concat (fun i hi => hi) (keyed_emptyTable _))
    | _ => cases hchange

theorem keepsKeys_addItem {item : Item} (hitem : item.Keyed) (isDotted : Bool) (key : String) :
    Change.KeepsKeys (addItem isDotted key item) := by
  intro origin origin' entries entries' h hchange
  unfold addItem at hchange
  split_ifs at hchange
  cases hkey : entries.item? key with
  | none =>
    rw [hkey] at hchange
    cases hchange
    exact h.append hkey hitem
  | some _ =>
    rw [hkey] at hchange
    cases hchange

/-- What keeps the keys of one table keeps those of all tables around it. -/
theorem keepsKeys_descend {change : Change} (hc : change.KeepsKeys) (dotted : Bool)
    (path : List String) : Change.KeepsKeys (descend dotted change path) := by
  induction path with
  | nil => exact hc
  | cons key path ih =>
    intro origin origin' entries entries' h hchange
    unfold descend at hchange
    have hinside : ∀ {o o' : TableOrigin} {es es' : Entries}, es.Keyed →
        descend dotted change path o es = some (o', es') → (Item.table o' es').Keyed :=
      fun hes hinner => .table (ih hes hinner).nodup (ih hes hinner).items
    cases hkey : entries.item? key with
    | none =>
      simp only [hkey] at hchange
      cases hinner : descend dotted change path ⟨true, dotted⟩ [] with
      | none =>
        rw [hinner] at hchange
        cases hchange
      | some result =>
        rw [hinner] at hchange
        cases hchange
        exact h.append hkey (hinside Entries.keyed_nil hinner)
    | some item =>
      simp only [hkey] at hchange
      cases item with
      | table o es =>
        dsimp only at hchange
        split_ifs at hchange
        cases hinner : descend dotted change path o es with
        | none =>
          rw [hinner] at hchange
          cases hchange
        | some result =>
          rw [hinner] at hchange
          cases hchange
          exact h.replace (hinside (Entries.keyed_of_table (h.item? hkey)) hinner)
      | tables items =>
        have htables := h.item? hkey
        dsimp only at hchange
        split at hchange
        next o es hlast =>
          have htable : (Item.table o es).Keyed := by
            cases htables with
            | tables hitems => exact hitems _ (List.mem_of_getLast? hlast)
          cases hinner : descend dotted change path o es with
          | none =>
            rw [hinner] at hchange
            cases hchange
          | some result =>
            rw [hinner] at hchange
            cases hchange
            exact h.replace (htables.concat (fun _ hi => List.dropLast_subset items hi)
              (hinside (Entries.keyed_of_table htable) hinner))
        next => cases hchange
      | _ => cases hchange

theorem keepsKeys_addPair {item : Item} (hitem : item.Keyed) (key : KeyPath) :
    Change.KeepsKeys (addPair key item) :=
  keepsKeys_descend (keepsKeys_addItem hitem _ key.last) true key.front

theorem keyed_foldlM_addPair {pairs : List (KeyPath × Item)} {start last : TableOrigin × Entries}
    (hstart : start.2.Keyed) (hpairs : ∀ pair ∈ pairs, pair.2.Keyed)
    (h : pairs.foldlM (fun (origin, entries) (key, item) => addPair key item origin entries)
      start = some last) : last.2.Keyed := by
  induction pairs generalizing start with
  | nil =>
    cases h
    exact hstart
  | cons pair pairs ih =>
    obtain ⟨hpair, hpairs⟩ := List.forall_mem_cons.mp hpairs
    rw [List.foldlM_cons] at h
    obtain ⟨next, hnext, h⟩ := Option.bind_eq_some_iff.mp h
    exact ih (keepsKeys_addPair hpair pair.1 hstart hnext) hpairs h

theorem keyed_inlineEntries {pairs : List (KeyPath × Item)} {entries : Entries}
    (hpairs : ∀ pair ∈ pairs, pair.2.Keyed) (h : inlineEntries pairs = some entries) :
    entries.Keyed := by
  obtain ⟨last, hlast, rfl⟩ := Option.map_eq_some_iff.mp h
  exact keyed_foldlM_addPair Entries.keyed_nil hpairs hlast

/-- Within a number of steps no table with a repeated key is read. -/
structure ReadsKeyed (fuel : Nat) : Prop where
  value {level : Nat} {text rest : List Char} {item : Item} :
    readValue fuel level text = some (item, rest) → item.Keyed
  items {level : Nat} {text rest : List Char} {items : List Item} :
    readItems fuel level text = some (items, rest) → ∀ item ∈ items, item.Keyed
  pairs {level : Nat} {text rest : List Char} {pairs : List (KeyPath × Item)} :
    readPairs fuel level text = some (pairs, rest) → ∀ pair ∈ pairs, pair.2.Keyed
  pair {level : Nat} {text rest : List Char} {pair : KeyPath × Item} :
    readPair fuel level text = some (pair, rest) → pair.2.Keyed

theorem keyed_readScalar {text rest : List Char} {item : Item}
    (h : readScalar text = some (item, rest)) : item.Keyed := by
  have hscalar : (∃ b, item = .bool b) ∨ item = .scalar := by
    simp only [readScalar] at h
    grind
  rcases hscalar with ⟨b, rfl⟩ | rfl
  · exact .bool b
  · exact .scalar

namespace ReadsKeyed

variable {fuel level : Nat} {text rest : List Char}

theorem readValue (h : ReadsKeyed fuel) {item : Item}
    (hread : Toml.readValue (fuel + 1) level text = some (item, rest)) : item.Keyed := by
  unfold Toml.readValue at hread
  split at hread
  · obtain ⟨read, -, heq⟩ := Option.map_eq_some_iff.mp hread
    cases heq
    exact .text _
  · obtain ⟨read, -, heq⟩ := Option.map_eq_some_iff.mp hread
    cases heq
    exact .text _
  · split at hread
    · obtain ⟨read, hitems, heq⟩ := Option.map_eq_some_iff.mp hread
      cases heq
      exact .array (h.items hitems)
    · cases hread
  · split at hread
    · split at hread
      · cases hread
        exact .inlineTable List.nodup_nil (List.forall_mem_nil _)
      · split at hread
        next pairs more hpairs =>
          obtain ⟨entries, hentries, heq⟩ := Option.map_eq_some_iff.mp hread
          have hkeyed := keyed_inlineEntries (h.pairs hpairs) hentries
          cases heq
          exact .inlineTable hkeyed.nodup hkeyed.items
        next => cases hread
    · cases hread
  · exact keyed_readScalar hread

theorem readItems (h : ReadsKeyed fuel) {items : List Item}
    (hread : Toml.readItems (fuel + 1) level text = some (items, rest)) :
    ∀ item ∈ items, item.Keyed := by
  rw [Toml.readItems] at hread
  split at hread
  · cases hread
  · cases hread
    exact List.forall_mem_nil _
  · split at hread
    · cases hread
    next item more hitem =>
      have hkeyed := h.value hitem
      split at hread
      · cases hread
        simpa using hkeyed
      · obtain ⟨read, hitems, heq⟩ := Option.map_eq_some_iff.mp hread
        cases heq
        exact List.forall_mem_cons.mpr ⟨hkeyed, h.items hitems⟩
      · cases hread

theorem readPairs (h : ReadsKeyed fuel) {pairs : List (KeyPath × Item)}
    (hread : Toml.readPairs (fuel + 1) level text = some (pairs, rest)) :
    ∀ pair ∈ pairs, pair.2.Keyed := by
  rw [Toml.readPairs] at hread
  split at hread
  · cases hread
  next pair more hpair =>
    have hkeyed := h.pair hpair
    split at hread
    · cases hread
      simpa using hkeyed
    · obtain ⟨read, hpairs, heq⟩ := Option.map_eq_some_iff.mp hread
      cases heq
      exact List.forall_mem_cons.mpr ⟨hkeyed, h.pairs hpairs⟩
    · cases hread

theorem readPair (h : ReadsKeyed fuel) {pair : KeyPath × Item}
    (hread : Toml.readPair (fuel + 1) level text = some (pair, rest)) : pair.2.Keyed := by
  rw [Toml.readPair] at hread
  split at hread
  · obtain ⟨read, hitem, heq⟩ := Option.map_eq_some_iff.mp hread
    cases heq
    exact h.value hitem
  · cases hread

end ReadsKeyed

theorem readsKeyed (fuel : Nat) : ReadsKeyed fuel := by
  induction fuel with
  | zero => constructor <;> simp [readValue, readItems, readPairs, readPair]
  | succ fuel ih => exact ⟨ih.readValue, ih.readItems, ih.readPairs, ih.readPair⟩

namespace Document

variable {d d' : Document}

theorem keyed_change {change : Change} (hc : change.KeepsKeys) {path : List String}
    (h : d.entries.Keyed) (hchange : d.change path change = some d') : d'.entries.Keyed := by
  obtain ⟨read, hread, rfl⟩ := Option.map_eq_some_iff.mp hchange
  exact keepsKeys_descend hc false path h hread

theorem keyed_header {opening : String → Change} (hc : ∀ key, (opening key).KeepsKeys)
    {key : KeyPath} {text rest : List Char} (h : d.entries.Keyed)
    (hread : ((d.enter key opening).bind fun next =>
      (endOfLine text).bind fun rest => some (next, rest)) = some (d', rest)) :
    d'.entries.Keyed := by
  obtain ⟨next, henter, hread⟩ := Option.bind_eq_some_iff.mp hread
  obtain ⟨_, -, heq⟩ := Option.bind_eq_some_iff.mp hread
  cases heq
  obtain ⟨changed, hchange, heq⟩ := Option.map_eq_some_iff.mp henter
  cases heq
  have hkeyed : changed.entries.Keyed := keyed_change (hc key.last) h hchange
  exact hkeyed

theorem keyed_readLine {text rest : List Char} (h : d.entries.Keyed)
    (hread : d.readLine text = some (d', rest)) : d'.entries.Keyed := by
  rw [readLine] at hread
  simp only [Option.bind_eq_bind, Option.pure_def] at hread
  split at hread
  · cases hread
    exact h
  · obtain ⟨_, -, heq⟩ := Option.bind_eq_some_iff.mp hread
    cases heq
    exact h
  · obtain ⟨_, -, heq⟩ := Option.bind_eq_some_iff.mp hread
    cases heq
    exact h
  · obtain ⟨_, -, heq⟩ := Option.bind_eq_some_iff.mp hread
    cases heq
    exact h
  · obtain ⟨_, -, hread⟩ := Option.bind_eq_some_iff.mp hread
    split at hread
    · exact keyed_header keepsKeys_addTable h hread
    · cases hread
  · obtain ⟨_, -, hread⟩ := Option.bind_eq_some_iff.mp hread
    split at hread
    · exact keyed_header keepsKeys_openTable h hread
    · cases hread
  · obtain ⟨⟨pair, _⟩, hpair, hread⟩ := Option.bind_eq_some_iff.mp hread
    obtain ⟨next, hnext, hread⟩ := Option.bind_eq_some_iff.mp hread
    obtain ⟨_, -, heq⟩ := Option.bind_eq_some_iff.mp hread
    cases heq
    exact keyed_change (keepsKeys_addPair ((readsKeyed _).pair hpair) pair.1) h hnext

theorem keyed_readLines (fuel : Nat) {text : List Char} (h : d.entries.Keyed)
    (hread : d.readLines fuel text = some d') : d'.entries.Keyed := by
  induction fuel generalizing d text with
  | zero =>
    cases text with
    | nil =>
      cases hread
      exact h
    | cons c text => cases hread
  | succ fuel ih =>
    cases text with
    | nil =>
      cases hread
      exact h
    | cons c text =>
      rw [readLines] at hread
      split at hread
      next next rest hline =>
        exact ih (keyed_readLine h hline) hread
      · cases hread
      · simp

end Document

/-- In a document that was read each table has each of its keys once. -/
theorem keyed_read? {text : String} {entries : Entries} (h : read? text = some entries) :
    entries.Keyed := by
  obtain ⟨d, hd, rfl⟩ := Option.map_eq_some_iff.mp h
  exact Document.keyed_readLines _ Entries.keyed_nil hd

end MetricScope.Toml
