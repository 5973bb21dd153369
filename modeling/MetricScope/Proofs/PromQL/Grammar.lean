import MetricScope.Proofs.PromQL.Precedence
import MetricScope.Proofs.PromQL.Layout

/-!
# The trees that reading gives

A tree is grammatical when its nodes pass their checks, its operators stand as they
bind, and its names and numbers are such as can be read. Everything else that is
written depends on the leaves, which carry the texts, times and labels of the tree.
-/

set_option autoImplicit false

namespace MetricScope.PromQL

namespace Token

def namesMetric : Token → Bool
  | identifier _ | metricIdentifier _ => true
  | keyword word _ => word.canNameMetric
  | _ => false

end Token

def IsMetricName (name : String) : Prop :=
  Lexer.isWord name.toList = true ∧ (Lexer.wordToken name).namesMetric = true

def Matcher.IsRead (m : Matcher) : Prop :=
  Matcher.read m.name m.op.symbol m.value = .ok m

namespace Selector

structure IsRead (s : Selector) : Prop where
  metric : ∀ name ∈ s.metric, IsMetricName name
  matchers : ∀ m ∈ s.groups.matchers, m.IsRead
  alternatives : s.groups.others ≠ [] → ∀ ms ∈ s.groups.toList, ms ≠ []
  check : s.check = .ok ()

/-- Behind a metric name no matcher may speak of the metric name. -/
theorem check_eq_ok_iff {s : Selector} {name : String} (h : s.metric = some name) :
    s.check = .ok () ↔ ∀ m ∈ s.groups.matchers, m.name ≠ metricLabel := by
  have hfind : (∀ m ∈ s.groups.matchers, m.name ≠ metricLabel) ↔
      s.groups.matchers.find? (fun m => m.name == metricLabel) = none := by
    simp
  rw [hfind, check, h]
  dsimp only
  cases s.groups.matchers.find? fun m => m.name == metricLabel <;> simp

end Selector

def VectorMatching.IsRead (m : VectorMatching) : Prop :=
  m.cardinality ≠ .oneToOne → m.labels.isSome = true

/-- The number is written and read back as itself, apart from its sign. -/
structure NumberReadsBack (x : Binary64) : Prop where
  scans : Lexer.Scans (numberText x).toList [.number (numberText x)]
  literal : Literal.number (numberText x) = .ok x

namespace Expr

inductive Grammatical : Expr → Prop
  | selector {s : Selector} : s.IsRead → Grammatical (selector s)
  | range {s : Selector} {length : Duration} : s.IsRead → Grammatical (range s length)
  | subquery {e : Expr} {length : Duration} {step : Option Duration}
      {offset : Option Offset} {at? : Option Instant} :
      Grammatical e → e.IsOperand → e.type = .vector →
      Grammatical (subquery e length step offset at?)
  | call {f : Function} {arguments : List Expr} :
      Function.find? f.name = some f → (∀ e ∈ arguments, Grammatical e) →
      f.checkArguments arguments = .ok () → Grammatical (call f arguments)
  | aggregate {op : Aggregator} {grouping : Option Grouping} {parameter : Option Expr}
      {e : Expr} :
      parameter.isSome = op.parameter?.isSome → (∀ p ∈ parameter, Grammatical p) →
      Grammatical e → checkAggregate op parameter e = .ok () →
      Grammatical (aggregate op grouping parameter e)
  | binary {op : Operator} {matching : VectorMatching} {left right : Expr} :
      Grammatical left → Grammatical right → matching.IsRead →
      left.ClosesBefore (some op) →
      (∀ o ∈ right.leftOperators, op.bindsBefore o = false) →
      checkBinary op matching left.type right.type = .ok () →
      Grammatical (binary op matching left right)
  | negated {e : Expr} :
      Grammatical e → (∀ o ∈ e.leftOperators, Binder.sign.bindsBefore o = false) →
      (e.type = .scalar ∨ e.type = .vector) → (∀ x, e ≠ number x) →
      Grammatical (negated e)
  | paren {e : Expr} : Grammatical e → Grammatical (paren e)
  | number {x : Binary64} :
      NumberReadsBack (if x.isNegative then x.neg else x) → Grammatical (number x)
  | string {text : String} : Grammatical (string text)

theorem Grammatical.checkRoot {e : Expr} (h : e.Grammatical) : e.checkRoot = .ok () := by
  cases h with
  | selector hs => exact hs.check
  | subquery _ _ ht => simp [Expr.checkRoot, ht]
  | call _ _ hc => exact hc
  | aggregate _ _ _ hc => exact hc
  | binary _ _ _ _ _ hc => exact hc
  | negated _ _ ht => simp [Expr.checkRoot, ht]
  | range | paren | number | string => rfl

theorem Grammatical.checked {e : Expr} (h : e.Grammatical) : e.checked = .ok e :=
  checked_eq_ok_iff.mpr ⟨h.checkRoot, rfl⟩

end Expr

inductive Leaf where
  | groups (g : MatcherGroups)
  | grouping (g : Option Grouping)
  | matching (m : VectorMatching)
  | duration (d : Duration)
  | instant (i : Instant)
  | number (x : Binary64)
  | string (text : String)
  deriving DecidableEq, Repr

def offsetLeaves (offset : Option Offset) : List Leaf :=
  (offset.map fun o => Leaf.duration o.duration).toList

def instantLeaves (at? : Option Instant) : List Leaf :=
  (at?.map Leaf.instant).toList

def Selector.leaves (s : Selector) : List Leaf :=
  .groups s.groups :: (instantLeaves s.at? ++ offsetLeaves s.offset)

namespace Expr

mutual

def leaves : Expr → List Leaf
  | selector s => s.leaves
  | range s length => .duration length :: s.leaves
  | subquery e length step offset at? =>
      e.leaves ++ .duration length :: ((step.map Leaf.duration).toList ++
        (instantLeaves at? ++ offsetLeaves offset))
  | call _ arguments => leavesList arguments
  | aggregate _ grouping parameter e =>
      .grouping grouping :: (leavesOption parameter ++ e.leaves)
  | binary _ matching left right => .matching matching :: (left.leaves ++ right.leaves)
  | negated e => e.leaves
  | paren e => e.leaves
  | number x => [.number x]
  | string text => [.string text]

def leavesList : List Expr → List Leaf
  | [] => []
  | e :: rest => e.leaves ++ leavesList rest

def leavesOption : Option Expr → List Leaf
  | none => []
  | some e => e.leaves

end

theorem leavesList_eq_flatMap (es : List Expr) : leavesList es = es.flatMap leaves := by
  induction es with
  | nil => rfl
  | cons e rest ih => rw [leavesList, ih, List.flatMap_cons]

theorem leavesOption_eq_flatMap (e? : Option Expr) :
    leavesOption e? = e?.toList.flatMap leaves := by
  cases e? <;> simp [leavesOption]

/-- What trees have because of their leaves, the arguments of an aggregation have because of
the leaves of the aggregation. -/
theorem forall_mem_arguments {P : Expr → Prop} {Q : Leaf → Prop} {op : Aggregator}
    {grouping : Option Grouping} {parameter : Option Expr} {e : Expr}
    (hl : ∀ l ∈ (aggregate op grouping parameter e).leaves, Q l)
    (hp : ∀ a ∈ parameter, (∀ l ∈ a.leaves, Q l) → P a)
    (he : (∀ l ∈ e.leaves, Q l) → P e) : ∀ a ∈ parameter.toList ++ [e], P a := by
  rw [leaves, leavesOption_eq_flatMap] at hl
  intro a ha
  rcases List.mem_append.mp ha with ha | ha
  · refine hp a (Option.mem_toList.mp ha) fun l hleaf => hl l ?_
    exact List.mem_cons_of_mem _ (List.mem_append_left _ (List.mem_flatMap_of_mem ha hleaf))
  · obtain rfl := List.mem_singleton.mp ha
    exact he fun l hleaf => hl l (by simp [hleaf])

end Expr

def Plain (text : String) : Prop :=
  text.toList.all Lexer.isPlain = true

structure IsLabel (name : String) : Prop where
  bare_or_plain : isLabelName name = true ∨ Plain name
  label : LabelList.label? (labelToken name) = some (.ok name)

structure Matcher.IsWritten (m : Matcher) : Prop where
  name : isLabelName m.name = true ∨ Plain m.name
  value : Plain m.value

structure Duration.IsWritten (d : Duration) : Prop where
  scans : ∃ phase, Lexer.readNumber d.text.toList = some phase ∧ phase.endsDuration = true
  literal : Literal.duration d.text = .ok d

structure Instant.IsWritten (chars : List Char) (i : Instant) : Prop where
  scans : ∃ phase, Lexer.readNumber chars = some phase ∧ phase.endsDecimal = true
  literal : ∃ x, Literal.number (String.ofList chars) = .ok x ∧
    Instant.ofSeconds false x = .ok i

namespace Leaf

def IsWritten (epochs : Bool → Nat → List Char) : Leaf → Prop
  | groups g => ∀ m ∈ g.matchers, m.IsWritten
  | grouping g => g ≠ some (.including []) ∧ ∀ labels ∈ g, ∀ name ∈ labels.labels, IsLabel name
  | matching m =>
      m.labels ≠ some (.excluding []) ∧ (∀ g ∈ m.labels, ∀ name ∈ g.labels, IsLabel name) ∧
        ∀ labels ∈ m.cardinality.labels?, ∀ name ∈ labels, IsLabel name
  | duration d => d.IsWritten
  | instant (.epoch before milliseconds) =>
      (Instant.epoch before milliseconds).IsWritten (epochs before milliseconds)
  | instant .start | instant .finish => True
  | number _ => True
  | string text => Plain text

end Leaf

end MetricScope.PromQL
