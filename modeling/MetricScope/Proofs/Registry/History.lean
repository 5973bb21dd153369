import Mathlib.Data.List.Dedup
import Mathlib.Data.List.Induction
import Mathlib.Data.List.TakeWhile
import MetricScope.Proofs.Registry.Entries
import MetricScope.Proofs.Text.ByteOrder

/-!
# Registries over time

A registry refines two maps that its history gives: the text of the last registration of
a name, and the text of the last override behind the first registration. Registries that
are copied from one another have histories of their own, and a change of one is seen in
no other.
-/

set_option autoImplicit false

namespace MetricScope.Registry

inductive Change where
  | register (name text : String)
  | override (name text : String)
  deriving DecidableEq, Repr

namespace Change

def registered? (name : String) : Change → Option String
  | register n text => if n = name then some text else none
  | override _ _ => none

def overridden? (name : String) : Change → Option String
  | register _ _ => none
  | override n text => if n = name then some text else none

def registeredName? : Change → Option String
  | register name _ => some name
  | override _ _ => none

end Change

def perform (r : Registry) : Change → Registry
  | .register name text => r.register name text
  | .override name text =>
    match r.override name text with
    | .ok r' => r'
    | .error _ => r

abbrev History := List Change

namespace History

def replay (history : History) : Registry :=
  history.foldl perform empty

def registered? (history : History) (name : String) : Option String :=
  history.reverse.findSome? (Change.registered? name)

/-- The text of the last override of `name` behind its first registration. -/
def overridden? (history : History) (name : String) : Option String :=
  (history.dropWhile fun c => (c.registered? name).isNone).reverse.findSome?
    (Change.overridden? name)

def names (history : History) : List String :=
  (history.filterMap Change.registeredName?).dedup

def entryAt? (history : History) (name : String) : Option RegistryEntry :=
  (history.registered? name).map fun text => ⟨name, text, history.overridden? name⟩

section

variable {history : History} {c : Change} {name : String}

theorem replay_concat (history : History) (c : Change) :
    replay (history ++ [c]) = history.replay.perform c := by
  rw [replay, List.foldl_concat, ← replay]

theorem registered?_concat :
    registered? (history ++ [c]) name = (c.registered? name).or (history.registered? name) := by
  rw [registered?, List.reverse_concat, List.findSome?_cons]
  cases c.registered? name with
  | none => rfl
  | some text => rfl

theorem dropWhile_eq_nil_iff :
    (history.dropWhile fun c => (c.registered? name).isNone) = [] ↔
      history.registered? name = none := by
  rw [List.dropWhile_eq_nil_iff, registered?, List.findSome?_eq_none_iff]
  simp only [Option.isNone_iff_eq_none, List.mem_reverse]

theorem overridden?_of_unregistered (h : history.registered? name = none) :
    history.overridden? name = none := by
  rw [overridden?, dropWhile_eq_nil_iff.mpr h]
  rfl

theorem overridden?_concat_of_registered (h : history.registered? name ≠ none) :
    overridden? (history ++ [c]) name = (c.overridden? name).or (history.overridden? name) := by
  have hne := mt dropWhile_eq_nil_iff.mp h
  rw [overridden?, List.dropWhile_append, if_neg (by rwa [List.isEmpty_iff]),
    List.reverse_concat, List.findSome?_cons]
  cases c.overridden? name with
  | none => rfl
  | some text => rfl

theorem overridden?_concat_of_unregistered (h : history.registered? name = none) :
    overridden? (history ++ [c]) name = none := by
  rw [overridden?, List.dropWhile_append,
    if_pos (by rw [dropWhile_eq_nil_iff.mpr h]; rfl)]
  cases c with
  | register n text => by_cases hn : n = name <;> simp [Change.registered?, Change.overridden?, hn]
  | override n text => rfl

/-- A registration gives the name its text and leaves the override. -/
theorem entryAt?_concat_register (history : History) (name text : String) :
    entryAt? (history ++ [.register name text]) name =
      some ⟨name, text, (history.entryAt? name).bind RegistryEntry.override?⟩ := by
  rw [entryAt?, entryAt?, registered?_concat, Change.registered?, if_pos rfl]
  cases h : history.registered? name with
  | none =>
    rw [overridden?_concat_of_unregistered h]
    rfl
  | some default =>
    rw [overridden?_concat_of_registered (by simp [h])]
    rfl

theorem entryAt?_concat_override (history : History) (name text : String) :
    entryAt? (history ++ [.override name text]) name =
      (history.entryAt? name).map fun e => { e with override? := some text } := by
  rw [entryAt?, entryAt?, registered?_concat]
  cases h : history.registered? name with
  | none => rfl
  | some default =>
    rw [overridden?_concat_of_registered (by simp [h]), Change.overridden?, if_pos rfl]
    rfl

/-- Changes of other names leave the entry as it is. -/
theorem entryAt?_concat_of_other (hreg : c.registered? name = none)
    (hover : c.overridden? name = none) :
    entryAt? (history ++ [c]) name = history.entryAt? name := by
  rw [entryAt?, entryAt?, registered?_concat, hreg, Option.none_or]
  cases h : history.registered? name with
  | none => rfl
  | some default => rw [overridden?_concat_of_registered (by simp [h]), hover, Option.none_or]

theorem mem_names_iff : name ∈ history.names ↔ (history.registered? name).isSome := by
  rw [names, List.mem_dedup, List.mem_filterMap, registered?, List.findSome?_isSome_iff]
  constructor
  · rintro ⟨c, hc, hname⟩
    refine ⟨c, List.mem_reverse.mpr hc, ?_⟩
    cases c with
    | register n text => simp [Change.registered?, Option.some.inj hname]
    | override n text => exact absurd hname (by simp [Change.registeredName?])
  · rintro ⟨c, hc, hsome⟩
    refine ⟨c, List.mem_reverse.mp hc, ?_⟩
    cases c with
    | register n text =>
      by_cases hn : n = name
      · rw [Change.registeredName?, hn]
      · simp [Change.registered?, hn] at hsome
    | override n text => simp [Change.registered?] at hsome

end

end History

structure Follows (r : Registry) (history : History) : Prop where
  ordered : Ordered r.entries
  entry (name : String) : entryAt? r.entries name = history.entryAt? name

section

variable {r : Registry} {history : History}

theorem follows_empty : empty.Follows [] where
  ordered := List.Pairwise.nil
  entry _ := rfl

theorem Follows.register (h : r.Follows history) (name text : String) :
    (r.register name text).Follows (history ++ [.register name text]) where
  ordered := ordered_registerIn h.ordered name text
  entry n := by
    by_cases hn : name = n
    · subst hn
      rw [History.entryAt?_concat_register, ← h.entry]
      exact entryAt?_registerIn_self h.ordered name text
    · have hno : (Change.register name text).registered? n = none := if_neg hn
      rw [History.entryAt?_concat_of_other hno rfl, ← h.entry]
      exact entryAt?_registerIn_of_ne hn text

theorem Follows.overrideIn_eq_none_iff (h : r.Follows history) (name text : String) :
    overrideIn name text r.entries = none ↔ history.registered? name = none := by
  rw [Registry.overrideIn_eq_none_iff, h.entry, History.entryAt?, Option.map_eq_none_iff]

theorem Follows.override (h : r.Follows history) (name text : String) :
    (r.perform (.override name text)).Follows (history ++ [.override name text]) := by
  have hother : ∀ {n}, name ≠ n →
      History.entryAt? (history ++ [.override name text]) n = history.entryAt? n :=
    fun hn => History.entryAt?_concat_of_other rfl (if_neg hn)
  rw [perform, Registry.override]
  cases hin : overrideIn name text r.entries with
  | none =>
    refine ⟨h.ordered, fun n => ?_⟩
    by_cases hn : name = n
    · subst hn
      have hno := (h.overrideIn_eq_none_iff name text).mp hin
      rw [History.entryAt?_concat_override, h.entry, History.entryAt?, hno]
      rfl
    · rw [hother hn, ← h.entry]
  | some entries =>
    refine ⟨ordered_of_map_name h.ordered (map_name_overrideIn hin), fun n => ?_⟩
    by_cases hn : name = n
    · subst hn
      rw [History.entryAt?_concat_override, ← h.entry]
      exact entryAt?_overrideIn_self hin
    · rw [hother hn, ← h.entry]
      exact entryAt?_overrideIn_of_ne hin hn

theorem Follows.perform (h : r.Follows history) (c : Change) :
    (r.perform c).Follows (history ++ [c]) := by
  cases c with
  | register name text => exact h.register name text
  | override name text => exact h.override name text

/-- After any history a registry holds what the history gives. -/
theorem follows_replay (history : History) : history.replay.Follows history := by
  induction history using List.reverseRecOn with
  | nil => exact follows_empty
  | append_singleton history c ih =>
    rw [History.replay_concat]
    exact ih.perform c

end

/-- What a registry answers, told by the two maps of its history. Names are ordered by
their bytes. -/
structure Answers (r : Registry) (history : History) : Prop where
  get (name : String) : r.get name =
    match history.registered? name with
    | none => .error (.unknownQuery name)
    | some text => .ok ((history.overridden? name).getD text)
  override_unregistered (name text : String) (h : history.registered? name = none) :
    r.override name text = .error (.unknownQuery name) ∧ r.perform (.override name text) = r
  override_registered (name text : String) (h : history.registered? name ≠ none) :
    ∃ r', r.override name text = .ok r'
  isOverridden (name : String) : r.isOverridden name = (history.overridden? name).isSome
  names_increasing : r.names.Pairwise fun a b => Text.bytes a < Text.bytes b
  mem_names (name : String) : name ∈ r.names ↔ name ∈ history.names
  overrides_increasing : r.overrides.Pairwise fun a b => Text.bytes a.1 < Text.bytes b.1
  mem_overrides (name text : String) :
    (name, text) ∈ r.overrides ↔ history.overridden? name = some text
  size : r.size = history.names.length

section

variable {r : Registry} {history : History}

theorem Follows.get (h : r.Follows history) (name : String) : r.get name =
    match history.registered? name with
    | none => .error (.unknownQuery name)
    | some text => .ok ((history.overridden? name).getD text) := by
  have hentry := h.entry name
  rw [History.entryAt?] at hentry
  rw [Registry.get, show r.find? name = entryAt? r.entries name from rfl, hentry]
  cases history.registered? name with
  | none => rfl
  | some text => rfl

theorem Follows.isOverridden (h : r.Follows history) (name : String) :
    r.isOverridden name = (history.overridden? name).isSome := by
  have hentry := h.entry name
  rw [History.entryAt?] at hentry
  rw [Registry.isOverridden, show r.find? name = entryAt? r.entries name from rfl, hentry]
  cases hreg : history.registered? name with
  | none =>
    rw [History.overridden?_of_unregistered hreg]
    rfl
  | some text => rfl

theorem Follows.override_unregistered (h : r.Follows history) {name : String} (text : String)
    (hno : history.registered? name = none) :
    r.override name text = .error (.unknownQuery name) ∧
      r.perform (.override name text) = r := by
  have heq : r.override name text = .error (.unknownQuery name) := by
    rw [Registry.override, (h.overrideIn_eq_none_iff name text).mpr hno]
  exact ⟨heq, by rw [Registry.perform, heq]⟩

theorem Follows.override_registered (h : r.Follows history) {name : String} (text : String)
    (hreg : history.registered? name ≠ none) : ∃ r', r.override name text = .ok r' := by
  rw [Registry.override]
  cases hin : overrideIn name text r.entries with
  | none => exact absurd ((h.overrideIn_eq_none_iff name text).mp hin) hreg
  | some entries => exact ⟨_, rfl⟩

theorem Follows.mem_names_iff (h : r.Follows history) (name : String) :
    name ∈ r.names ↔ name ∈ history.names := by
  have hfound : name ∈ r.names ↔ (entryAt? r.entries name).isSome := by
    rw [Option.isSome_iff_exists, Registry.names, List.mem_map]
    simp only [entryAt?_eq_some_iff h.ordered]
  rw [hfound, h.entry, History.entryAt?, Option.isSome_map, History.mem_names_iff]

theorem Follows.names_increasing (h : r.Follows history) :
    r.names.Pairwise fun a b => Text.bytes a < Text.bytes b := by
  simp only [Text.bytes_lt_iff]
  exact List.pairwise_map.mpr h.ordered

theorem Follows.mem_overrides_iff (h : r.Follows history) (name text : String) :
    (name, text) ∈ r.overrides ↔ history.overridden? name = some text := by
  have hfound : (name, text) ∈ r.overrides ↔
      ∃ e, entryAt? r.entries name = some e ∧ e.override? = some text := by
    rw [Registry.overrides, List.mem_filterMap]
    simp only [entryAt?_eq_some_iff h.ordered, Option.map_eq_some_iff, Prod.mk.injEq]
    constructor
    · rintro ⟨e, he, text', htext, hname, rfl⟩
      exact ⟨e, ⟨he, hname⟩, htext⟩
    · rintro ⟨e, ⟨he, hname⟩, htext⟩
      exact ⟨e, he, text, htext, hname, rfl⟩
  rw [hfound, h.entry, History.entryAt?]
  cases hreg : history.registered? name with
  | none => simp [History.overridden?_of_unregistered hreg]
  | some default => simp

theorem Follows.overrides_increasing (h : r.Follows history) :
    r.overrides.Pairwise fun a b => Text.bytes a.1 < Text.bytes b.1 := by
  simp only [Text.bytes_lt_iff]
  apply List.Pairwise.filterMap _ _ h.ordered
  intro d e hlt a ha b hb
  obtain ⟨_, -, rfl⟩ := Option.map_eq_some_iff.mp ha
  obtain ⟨_, -, rfl⟩ := Option.map_eq_some_iff.mp hb
  exact hlt

/-- Lists that have the same members, each of them once, are of one length. -/
theorem Follows.size_eq (h : r.Follows history) : r.size = history.names.length := by
  have hnodup : r.names.Nodup := (List.pairwise_map.mpr h.ordered).imp ne_of_lt
  have hperm : r.names.Perm history.names :=
    (List.perm_ext_iff_of_nodup hnodup (List.nodup_dedup _)).mpr h.mem_names_iff
  rw [← hperm.length_eq, Registry.names, List.length_map, Registry.size]

theorem Follows.answers (h : r.Follows history) : r.Answers history where
  get := h.get
  override_unregistered _ text hno := h.override_unregistered text hno
  override_registered _ text hreg := h.override_registered text hreg
  isOverridden := h.isOverridden
  names_increasing := h.names_increasing
  mem_names := h.mem_names_iff
  overrides_increasing := h.overrides_increasing
  mem_overrides := h.mem_overrides_iff
  size := h.size_eq

end

/-- A step on a list of registries: a new one, a copy, or a change of one of them. -/
inductive ShelfStep where
  | new
  | clone (source : Nat)
  | change (place : Nat) (c : Change)
  deriving DecidableEq, Repr

namespace ShelfStep

variable {α β : Type}

def perform (start : α) (act : α → Change → α) (shelf : List α) : ShelfStep → List α
  | new => shelf ++ [start]
  | clone source => shelf ++ shelf[source]?.toList
  | change place c => shelf.modify place (act · c)

theorem getElem?_perform_of_other {start : α} {act : α → Change → α} {shelf : List α}
    {place : Nat} {a : α} (h : shelf[place]? = some a) (step : ShelfStep)
    (hstep : ∀ c, step ≠ change place c) : (step.perform start act shelf)[place]? = some a := by
  have hlt := (List.getElem?_eq_some_iff.mp h).1
  cases step with
  | new => rw [perform, List.getElem?_append_left hlt, h]
  | clone source => rw [perform, List.getElem?_append_left hlt, h]
  | change other c =>
    have hne : other ≠ place := fun heq => hstep c (by rw [heq])
    rw [perform, List.getElem?_modify, h]
    simp [hne]

theorem map_perform {start : α} {act : α → Change → α} {start' : β} {act' : β → Change → β}
    {f : α → β} (hstart : f start = start') (hact : ∀ a c, f (act a c) = act' (f a) c)
    (shelf : List α) (step : ShelfStep) :
    (step.perform start act shelf).map f = step.perform start' act' (shelf.map f) := by
  cases step with
  | new => simp [perform, hstart]
  | clone source => cases h : shelf[source]? <;> simp [perform, h]
  | change place c =>
    apply List.ext_getElem?
    intro i
    rw [perform, perform, List.getElem?_map, List.getElem?_modify, List.getElem?_modify,
      List.getElem?_map]
    cases shelf[i]? with
    | none => rfl
    | some a => by_cases hi : place = i <;> simp [hi, hact]

end ShelfStep

def shelf (steps : List ShelfStep) : List Registry :=
  steps.foldl (ShelfStep.perform empty perform) []

def histories (steps : List ShelfStep) : List History :=
  steps.foldl (ShelfStep.perform [] fun history c => history ++ [c]) []

theorem shelf_eq (steps : List ShelfStep) :
    shelf steps = (histories steps).map History.replay := by
  induction steps using List.reverseRecOn with
  | nil => rfl
  | append_singleton steps step ih =>
    rw [shelf, histories, List.foldl_concat, List.foldl_concat, ← shelf, ← histories, ih]
    have hempty : History.replay [] = empty := rfl
    exact (ShelfStep.map_perform hempty History.replay_concat (histories steps) step).symm

/-- After any run a registry answers as the two maps of its history do. Of several
registries, new ones and copies, each one answers as its own history, and a step on one
changes no other. -/
theorem registries_answer (history : History) (steps : List ShelfStep) :
    history.replay.Answers history ∧ List.Forall₂ Answers (shelf steps) (histories steps) ∧
      ∀ place r step, (shelf steps)[place]? = some r → (∀ c, step ≠ .change place c) →
        (shelf (steps ++ [step]))[place]? = some r := by
  refine ⟨(follows_replay history).answers, ?_, ?_⟩
  · rw [shelf_eq, List.forall₂_map_left_iff, List.forall₂_same]
    exact fun history _ => (follows_replay history).answers
  · intro place r step hr hstep
    rw [shelf, List.foldl_concat]
    exact step.getElem?_perform_of_other hr hstep

/-- A copy that is overridden leaves its source as it was. -/
theorem registries_answer_copy :
    (∀ c, ShelfStep.change 1 (.register "a" "up2") ≠ .change 0 c) ∧
    List.Forall₂ Answers
      [⟨[⟨"a", "up", none⟩]⟩, ⟨[⟨"a", "up", some "down"⟩]⟩]
      [[.register "a" "up"], [.register "a" "up", .override "a" "down"]] ∧
    (shelf ([.new, .change 0 (.register "a" "up"), .clone 0, .change 1 (.override "a" "down")] ++
      [.change 1 (.register "a" "up2")]))[0]? = some ⟨[⟨"a", "up", none⟩]⟩ := by
  have hother : ∀ c, ShelfStep.change 1 (.register "a" "up2") ≠ .change 0 c := fun c h => by
    exact absurd (ShelfStep.change.inj h).1 (by decide)
  obtain ⟨-, hanswers, hframe⟩ := registries_answer []
    [.new, .change 0 (.register "a" "up"), .clone 0, .change 1 (.override "a" "down")]
  exact ⟨hother, hanswers, hframe 0 _ _ (by decide) hother⟩

end MetricScope.Registry
