import MetricScope.PromQL.Expr

/-!
# Label filters

A filter asks for one matcher in every group of every selector. It takes the place
of the first matcher on its label, or is added at the end of a group that has none.
A filter without a name or without a value asks for nothing.
-/

set_option autoImplicit false

namespace MetricScope

open PromQL Regex

inductive MatchType where
  | equal
  | notEqual
  | regexMatch
  | regexNotMatch
  deriving DecidableEq, Repr

namespace MatchType

def all : List MatchType := [equal, notEqual, regexMatch, regexNotMatch]

def name : MatchType → String
  | equal => "equal"
  | notEqual => "not_equal"
  | regexMatch => "regex_match"
  | regexNotMatch => "regex_not_match"

def ofName? (name : String) : Option MatchType :=
  all.find? fun kind => kind.name == name

theorem ofName?_name (kind : MatchType) : ofName? kind.name = some kind := by
  cases kind <;> decide

end MatchType

structure LabelFilter where
  name : String
  matchType : MatchType
  value : String
  deriving DecidableEq, Repr

namespace LabelFilter

def equal (name value : String) : LabelFilter := ⟨name, .equal, value⟩

def regex (name value : String) : LabelFilter := ⟨name, .regexMatch, value⟩

def isNoop (f : LabelFilter) : Bool :=
  f.name.isEmpty || f.value.isEmpty

/-- The pattern for a value; a value that is no pattern stands for itself. -/
def pattern? (value : String) : Option Pattern :=
  match Pattern.compile? (Pattern.anchored value) with
  | some pattern => some pattern
  | none => Pattern.compile? ("^" ++ Pattern.escape value ++ "$")

def op (f : LabelFilter) : MatchOp :=
  match f.matchType with
  | .equal => .equal
  | .notEqual => .notEqual
  | .regexMatch =>
    match pattern? f.value with
    | some pattern => .regexMatch pattern
    | none => .equal
  | .regexNotMatch =>
    match pattern? f.value with
    | some pattern => .regexNotMatch pattern
    | none => .notEqual

def matcher (f : LabelFilter) : Matcher :=
  ⟨f.name, f.op, f.value⟩

/-- Overwrites the first matcher on the label, or adds one. -/
def upsert (f : LabelFilter) : List Matcher → List Matcher
  | [] => [f.matcher]
  | m :: rest => if m.name = f.name then f.matcher :: rest else m :: f.upsert rest

theorem matcher_mem_upsert (f : LabelFilter) (ms : List Matcher) :
    f.matcher ∈ f.upsert ms := by
  induction ms with
  | nil => simp [upsert]
  | cons m rest ih => simp only [upsert]; split <;> simp [ih]

theorem upsert_upsert (f : LabelFilter) (ms : List Matcher) :
    f.upsert (f.upsert ms) = f.upsert ms := by
  induction ms with
  | nil => simp [upsert, matcher]
  | cons m rest ih =>
    by_cases h : m.name = f.name
    · simp [upsert, h, matcher]
    · simp [upsert, h, ih]

def mergeGroup (f : LabelFilter) (ms : List Matcher) : List Matcher :=
  if f.isNoop then ms else f.upsert ms

def mergeSelector (f : LabelFilter) (s : Selector) : Selector :=
  { s with groups := s.groups.map f.mergeGroup }

end LabelFilter

namespace PromQL.Expr

def merge (f : LabelFilter) (e : Expr) : Expr :=
  e.mapSelectors f.mergeSelector

def mergeAll (filters : List LabelFilter) (e : Expr) : Expr :=
  filters.foldl (fun e f => e.merge f) e

@[simp] theorem mergeAll_nil (e : Expr) : e.mergeAll [] = e := rfl

theorem mergeAll_append (fs gs : List LabelFilter) (e : Expr) :
    e.mergeAll (fs ++ gs) = (e.mergeAll fs).mergeAll gs := by
  simp [mergeAll]

end PromQL.Expr

end MetricScope
