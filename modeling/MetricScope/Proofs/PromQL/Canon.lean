import MetricScope.Proofs.PromQL.Durations
import MetricScope.Proofs.PromQL.Instants
import MetricScope.Proofs.PromQL.LeafMap
import MetricScope.Proofs.PromQL.ListReading
import MetricScope.Proofs.PromQL.Scanning
import MetricScope.Proofs.Sorting

/-!
# The tree that a text is read as

Writing a tree orders the matchers of a plain group, drops what is less than a
millisecond, and leaves out lists of labels that say nothing. The tree with these changes
made is the one that the text is read as, when the leaves of the tree are legible.
-/

set_option autoImplicit false

namespace MetricScope.PromQL

namespace MatcherGroups

def canon (g : MatcherGroups) : MatcherGroups :=
  match g.others with
  | [] => ⟨sortBy (fun a b => decide (a.text ≤ b.text)) g.first, []⟩
  | _ :: _ => g

theorem canon_of_others {g : MatcherGroups} (h : g.others ≠ []) : g.canon = g := by
  obtain ⟨first, others⟩ := g
  cases others with
  | nil => exact absurd rfl h
  | cons ms others => rfl

theorem others_canon (g : MatcherGroups) : g.canon.others = g.others := by
  obtain ⟨first, others⟩ := g
  cases others <;> rfl

/-- The groups stay where they are, their matchers may not. -/
theorem perm_canon (g : MatcherGroups) : List.Forall₂ List.Perm g.canon.toList g.toList := by
  obtain ⟨first, others⟩ := g
  cases others with
  | nil => exact .cons (sortBy_perm _ first) .nil
  | cons ms others => exact List.forall₂_same.mpr fun _ _ => List.Perm.refl _

theorem matchers_canon (g : MatcherGroups) : g.canon.matchers.Perm g.matchers := by
  obtain ⟨first, others⟩ := g
  cases others with
  | nil => simpa [canon, matchers, toList] using sortBy_perm _ first
  | cons ms others => exact List.Perm.refl _

theorem map_text_canon {g : MatcherGroups} (h : g.others = []) :
    g.canon.first.map Matcher.text = sortTexts (g.first.map Matcher.text) := by
  obtain ⟨first, others⟩ := g
  obtain rfl : others = [] := h
  let before (a b : Matcher) : Prop := a.text ≤ b.text
  rw [sortTexts, sortBy_eq_insertionSort, canon]
  dsimp only
  rw [sortBy_eq_insertionSort before]
  exact List.map_insertionSort before (· ≤ ·) Matcher.text first fun _ _ _ _ => Iff.rfl

theorem sortTexts_eq (texts : List String) : sortTexts texts = texts.insertionSort (· ≤ ·) :=
  sortBy_eq_insertionSort (· ≤ ·) texts

theorem sortTexts_sortTexts (texts : List String) :
    sortTexts (sortTexts texts) = sortTexts texts := by
  rw [sortTexts_eq, sortTexts_eq]
  exact (List.pairwise_insertionSort (· ≤ ·) texts).insertionSort_eq

theorem sortTexts_perm {a b : List String} (h : a.Perm b) : sortTexts a = sortTexts b := by
  rw [sortTexts_eq, sortTexts_eq]
  have hperm := ((List.perm_insertionSort (· ≤ ·) a).trans h).trans
    (List.perm_insertionSort (· ≤ ·) b).symm
  exact hperm.eq_of_pairwise' (List.pairwise_insertionSort (· ≤ ·) a)
    (List.pairwise_insertionSort (· ≤ ·) b)

theorem text_canon (g : MatcherGroups) : g.canon.text = g.text := by
  cases h : g.others with
  | nil =>
    have hcanon : g.canon.others = [] := g.others_canon.trans h
    rw [text, text, hcanon, h]
    dsimp only
    rw [map_text_canon h, sortTexts_sortTexts]
  | cons ms others => rw [canon_of_others (by simp [h])]

theorem isEmpty_canon (g : MatcherGroups) :
    (g.canon.first.isEmpty && g.canon.others.isEmpty) =
      (g.first.isEmpty && g.others.isEmpty) := by
  obtain ⟨first, others⟩ := g
  cases others with
  | nil =>
    have hlength := (sortBy_perm (fun a b => a.text ≤ b.text) first).length_eq
    have hempty : (sortBy (fun a b => decide (a.text ≤ b.text)) first).isEmpty = first.isEmpty := by
      rw [Bool.eq_iff_iff, List.isEmpty_iff_length_eq_zero, List.isEmpty_iff_length_eq_zero,
        hlength]
    simpa [canon] using hempty
  | cons ms others => rfl

theorem bracedText_canon (g : MatcherGroups) : g.canon.bracedText = g.bracedText := by
  rw [bracedText, bracedText, isEmpty_canon, text_canon]

/-- The matchers can be read again, and the text of alternatives starts with a label that
does not lose its first letters. -/
structure IsLegible (g : MatcherGroups) : Prop where
  matchers : ∀ m ∈ g.matchers, m.IsWritten
  leading : g.others ≠ [] → ∀ m ∈ g.first.head?, ¬ ['o', 'r'] <+: (labelText m.name).toList

theorem dropLeadingOr_of_not_prefix {text : List Char} (h : ¬ ['o', 'r'] <+: text) :
    dropLeadingOr text = text := by
  unfold dropLeadingOr
  split
  · exact absurd ⟨_, rfl⟩ h
  · rfl

theorem toList_alternativeText (ms : List Matcher) :
    (alternativeText ms).toList = [',', ' '].intercalate (ms.map Matcher.chars) := by
  rw [alternativeText, toList_join, List.map_map]
  rfl

theorem toList_alternatives (groups : List (List Matcher)) :
    (Text.join " or " (groups.map alternativeText)).toList =
      [' ', 'o', 'r', ' '].intercalate
        (groups.map fun ms => [',', ' '].intercalate (ms.map Matcher.chars)) := by
  rw [toList_join, List.map_map]
  congr 1
  exact List.map_congr_left fun ms _ => toList_alternativeText ms

theorem exists_toList_alternatives (m : Matcher) (ms : List Matcher)
    (others : List (List Matcher)) :
    ∃ c rest, c ∉ ['o', 'r'] ∧
      (Text.join " or " (((m :: ms) :: others).map alternativeText)).toList =
        (labelText m.name).toList ++ c :: rest := by
  obtain ⟨c, tail, hc, hsymbol⟩ := m.op.symbol.exists_text_eq
  have hne : c ∉ ['o', 'r'] := by
    rcases hc with rfl | rfl <;> decide
  have hm : m.chars = (labelText m.name).toList ++
      c :: (tail ++ (quote m.value).toList) := by
    simp [Matcher.chars, Matcher.text, hsymbol]
  rw [toList_alternatives, List.map_cons, intercalate_cons, List.map_cons, intercalate_cons,
    hm, List.append_assoc, List.append_assoc, List.cons_append]
  exact ⟨c, _, hne, rfl⟩

theorem toList_text {g : MatcherGroups} (h : g.IsLegible)
    (hne : g.others ≠ [] → g.first ≠ []) : g.text.toList = g.canon.inner := by
  cases hothers : g.others with
  | nil =>
    rw [text, inner, g.others_canon, hothers]
    dsimp only
    rw [toList_join, ← map_text_canon hothers, List.map_map]
    rfl
  | cons ms others =>
    have hcanon : g.canon = g := canon_of_others (by simp [hothers])
    obtain ⟨m, rest, hfirst⟩ := List.exists_cons_of_ne_nil (hne (by simp [hothers]))
    rw [hcanon, text, inner, hothers]
    dsimp only
    rw [String.toList_ofList, dropLeadingOr_of_not_prefix, toList_alternatives]
    obtain ⟨c, tail, hc, htext⟩ := exists_toList_alternatives m rest (ms :: others)
    rw [hfirst, htext]
    intro hprefix
    refine h.leading (by simp [hothers]) m (by simp [hfirst]) ?_
    exact Text.prefix_of_prefix_append_cons hc hprefix

theorem toList_bracedText {g : MatcherGroups} (h : g.IsLegible)
    (hne : g.others ≠ [] → g.first ≠ []) : g.bracedText.toList = g.canon.chars := by
  rw [bracedText, chars, isEmpty_canon]
  split
  · rfl
  · rw [String.toList_append, String.toList_append, toList_text h hne]
    rfl

end MatcherGroups

def Offset.canon (o : Offset) : Offset := ⟨o.negative, o.duration.canon⟩

def canonGrouping : Option Grouping → Option Grouping
  | some (.including []) => none
  | g => g

def VectorMatching.canon (m : VectorMatching) : VectorMatching :=
  if m.labels = some (.excluding []) then { m with labels := none } else m

def LeafMap.canon : LeafMap :=
  ⟨MatcherGroups.canon, Duration.canon, Instant.canon, canonGrouping, VectorMatching.canon⟩

namespace Leaf

def canon : Leaf → Leaf
  | groups g => groups g.canon
  | grouping g => grouping (canonGrouping g)
  | matching m => matching m.canon
  | duration d => duration d.canon
  | instant i => instant i.canon
  | number x => number x
  | string text => string text

theorem canon_eq : LeafMap.canon.leaf = canon := by
  funext l
  cases l <;> rfl

/-- A leaf whose text is read as the leaf, or as one of the same text. -/
def IsLegible : Leaf → Prop
  | groups g => g.IsLegible
  | grouping g => ∀ labels ∈ g, ∀ name ∈ labels.labels, IsLabel name
  | matching m =>
      (m.labels = some (.excluding []) → m.cardinality = .oneToOne) ∧
        (∀ g ∈ m.labels, ∀ name ∈ g.labels, IsLabel name) ∧
        ∀ labels ∈ m.cardinality.labels?, ∀ name ∈ labels, IsLabel name
  | duration d => d.IsLegible
  | instant i => i.IsLegible
  | number _ => True
  | string text => Plain text

/-- The times of a tree with variables, whose zeros may be left out. -/
def writtenEpochs (vars : List TemplateVariable) (before : Bool) (milliseconds : Nat) :
    List Char :=
  TemplateVariable.undotted vars (Instant.epochChars before milliseconds)

theorem IsLegible.isWritten (vars : List TemplateVariable) {l : Leaf} (h : l.IsLegible) :
    l.canon.IsWritten (writtenEpochs vars) := by
  cases l with
  | groups g => exact fun m hm => h.matchers m (g.matchers_canon.mem_iff.mp hm)
  | grouping g =>
    rw [canon]
    unfold canonGrouping
    split
    · exact ⟨by simp, by simp⟩
    next hne =>
      exact ⟨hne, h⟩
  | matching m =>
    obtain ⟨-, hlabels, hcardinality⟩ := h
    rw [canon, VectorMatching.canon]
    split
    · exact ⟨by simp, by simp, hcardinality⟩
    next hne =>
      exact ⟨hne, hlabels, hcardinality⟩
  | duration d => exact Duration.IsLegible.isWritten h
  | instant i => exact Instant.IsLegible.isWritten vars h
  | number x => trivial
  | string text => exact h

end Leaf

def Selector.canon (s : Selector) : Selector :=
  ⟨s.metric, s.groups.canon, s.offset.map Offset.canon, s.at?.map Instant.canon⟩

namespace Expr

mutual

def canon : Expr → Expr
  | selector s => selector s.canon
  | range s length => range s.canon length.canon
  | subquery e length step offset at? =>
      subquery e.canon length.canon (step.map Duration.canon) (offset.map Offset.canon)
        (at?.map Instant.canon)
  | call f arguments => call f (canonList arguments)
  | aggregate op grouping parameter e =>
      aggregate op (canonGrouping grouping) (canonOption parameter) e.canon
  | binary op matching left right => binary op matching.canon left.canon right.canon
  | negated e => negated e.canon
  | paren e => paren e.canon
  | number x => number x
  | string text => string text

def canonList : List Expr → List Expr
  | [] => []
  | e :: rest => e.canon :: canonList rest

def canonOption : Option Expr → Option Expr
  | none => none
  | some e => some e.canon

end

theorem canonList_eq_map (es : List Expr) : canonList es = es.map canon := by
  induction es with
  | nil => rfl
  | cons e rest ih => rw [canonList, ih, List.map_cons]

theorem canonOption_eq_map (e? : Option Expr) : canonOption e? = e?.map canon := by
  cases e? <;> rfl

theorem canon_eq_mapLeaves (e : Expr) : e.canon = e.mapLeaves .canon := by
  induction e with
  | selector s => rfl
  | range s length => rfl
  | subquery e length step offset at? ih =>
    rw [canon, mapLeaves, ih]
    rfl
  | call f arguments ih =>
    rw [canon, mapLeaves, canonList_eq_map, mapLeavesList_eq_map]
    exact congrArg _ (List.map_congr_left ih)
  | aggregate op grouping parameter e ihp ih =>
    rw [canon, mapLeaves, canonOption_eq_map, mapLeavesOption_eq_map, ih]
    congr 1
    exact Option.map_congr ihp
  | binary op matching left right ihl ihr =>
    rw [canon, mapLeaves, ihl, ihr]
    rfl
  | negated e ih => rw [canon, mapLeaves, ih]
  | paren e ih => rw [canon, mapLeaves, ih]
  | number x => rfl
  | string text => rfl

/-- The leaves of the tree that is read are those that the leaves are read as. -/
theorem leaves_canon (e : Expr) : e.canon.leaves = e.leaves.map Leaf.canon := by
  rw [canon_eq_mapLeaves, leaves_mapLeaves, Leaf.canon_eq]

theorem isWritten_leaves_canon (vars : List TemplateVariable) {e : Expr}
    (h : ∀ l ∈ e.leaves, l.IsLegible) :
    ∀ l ∈ e.canon.leaves, l.IsWritten (Leaf.writtenEpochs vars) := by
  intro l hl
  rw [leaves_canon] at hl
  obtain ⟨leaf, hleaf, rfl⟩ := List.mem_map.mp hl
  exact (h leaf hleaf).isWritten vars

end Expr

end MetricScope.PromQL
