import MetricScope.Regex.Parser
import MetricScope.Regex.Matching

/-!
# Patterns

A pattern is a text that reads as a regular expression, together with what it
reads as. Escaping a text gives a pattern for that text alone.
-/

set_option autoImplicit false

namespace MetricScope.Regex

structure Pattern where
  source : String
  node : Node
  node_eq : Node.ofPattern? source.toList = some node

namespace Pattern

def compile? (source : String) : Option Pattern :=
  match h : Node.ofPattern? source.toList with
  | some node => some ⟨source, node, h⟩
  | none => none

theorem compile?_source {source : String} {p : Pattern} (h : compile? source = some p) :
    p.source = source := by
  unfold compile? at h
  split at h
  · cases h; rfl
  · cases h

theorem eq_of_source_eq {p q : Pattern} (h : p.source = q.source) : p = q := by
  cases p with
  | mk s n hn =>
    cases q with
    | mk t m hm =>
      simp only at h
      subst h
      have : n = m := Option.some.inj (hn.symm.trans hm)
      subst this
      rfl

instance : DecidableEq Pattern := fun p q =>
  if h : p.source = q.source then .isTrue (eq_of_source_eq h)
  else .isFalse fun e => h (congrArg Pattern.source e)

instance : Repr Pattern := ⟨fun p n => reprPrec p.source n⟩

def isMatch (p : Pattern) (text : String) : Bool :=
  p.node.isMatch text.toList

def anchored (value : String) : String :=
  "^(?:" ++ value ++ ")$"

def escape (value : String) : String :=
  String.ofList (value.toList.flatMap fun c => if Parser.isMeta c then ['\\', c] else [c])

end Pattern

end MetricScope.Regex
