import MetricScope.Regex.Braces
import MetricScope.PromQL.LabelList
import MetricScope.PromQL.Typing

/-!
# Lists of matchers

Matchers between braces, separated by commas or by the word for alternatives. Some
faults have rules of their own, so that a message can tell what is wrong; they win
over the faults of the parts that they cover.
-/

set_option autoImplicit false

namespace MetricScope.PromQL

open MetricScope.Regex (Pattern)

/-- The pattern for a label value. Braces that start no repetition are made literal if
the value is no pattern as it stands. -/
def readPattern (value : String) : Checked Pattern :=
  let source := Pattern.anchored value
  match Pattern.compile? source with
  | some pattern => .ok pattern
  | none =>
    match Pattern.compile? (Regex.escapeBraces source) with
    | some pattern => .ok pattern
    | none => .error (.failed (.illegalRegex value))

def Matcher.read (name : String) (symbol : MatchSymbol) (value : String) :
    Checked Matcher :=
  match symbol with
  | .equal => .ok ⟨name, .equal, value⟩
  | .notEqual => .ok ⟨name, .notEqual, value⟩
  | .regexMatch => do
    let pattern ← readPattern value
    pure ⟨name, .regexMatch pattern, value⟩
  | .regexNotMatch => do
    let pattern ← readPattern value
    pure ⟨name, .regexNotMatch pattern, value⟩

inductive MatcherName where
  | identifier (name : String)
  | string (quote : Char) (body : String)
  deriving DecidableEq, Repr

namespace MatcherName

def ofToken? : Token → Option MatcherName
  | .identifier name => some (.identifier name)
  | .string quote body => some (.string quote body)
  | _ => none

def read : MatcherName → Checked String
  | identifier name => .ok name
  | string quote body => Literal.unquote quote body

def alone : MatcherName → Checked Matcher
  | identifier name => .error (.failed (.missingMatchSymbol name))
  | string quote body => do
    let name ← Literal.unquote quote body
    pure ⟨Selector.metricLabel, .equal, name⟩

end MatcherName

inductive MatcherPhase where
  | first
  | loneComma
  | afterComma
  | afterAlternative
  | named (name : MatcherName)
  | symbol (name : MatcherName) (symbol : MatchSymbol)
  /-- A second symbol, and whether a value followed it. -/
  | secondSymbol (symbol : MatchSymbol) (value : Bool)
  | complete (m : Checked Matcher)

structure MatcherList where
  phase : MatcherPhase
  newGroup : Bool
  groups : Checked MatcherGroups

namespace MatcherList

def opened : MatcherList := ⟨.first, false, .ok .empty⟩

def add (list : MatcherList) (m : Checked Matcher) : Checked MatcherGroups := do
  let groups ← list.groups
  let m ← m
  pure (if list.newGroup then groups.pushGroup m else groups.push m)

def endMatcher (list : MatcherList) (m : Checked Matcher) (t : Token) :
    Progress MatcherList (Checked MatcherGroups) :=
  match t with
  | .comma => .more ⟨.afterComma, false, list.add m⟩
  | .alternative => .more ⟨.afterAlternative, true, list.add m⟩
  | .closeBrace => .done (list.add m)
  | _ => .refused

def startMatcher (list : MatcherList) (t : Token) :
    Progress MatcherList (Checked MatcherGroups) :=
  match MatcherName.ofToken? t with
  | some name => .more { list with phase := .named name }
  | none => .refused

def afterBrace (list : MatcherList) : Token → Progress MatcherList (Checked MatcherGroups)
  | .closeBrace => .done list.groups
  | .comma => .more { list with phase := .loneComma }
  | t => list.startMatcher t

def afterComma (list : MatcherList) : Token → Progress MatcherList (Checked MatcherGroups)
  | .closeBrace => .done list.groups
  | t => list.startMatcher t

def afterName (list : MatcherList) (name : MatcherName) :
    Token → Progress MatcherList (Checked MatcherGroups)
  | .matching symbol => .more { list with phase := .symbol name symbol }
  | t => list.endMatcher name.alone t

def matcher (name : MatcherName) (symbol : MatchSymbol) (quote : Char) (body : String) :
    Checked Matcher := do
  let name ← name.read
  let value ← Literal.unquote quote body
  Matcher.read name symbol value

def afterSymbol (list : MatcherList) (name : MatcherName) (symbol : MatchSymbol) :
    Token → Progress MatcherList (Checked MatcherGroups)
  | .string quote body =>
      .more { list with phase := .complete (matcher name symbol quote body) }
  | .matching second => .more { list with phase := .secondSymbol second false }
  | .identifier value =>
      .more { list with phase := .complete (.error (.failed (.identifierAsValue value))) }
  | _ => .refused

def isValue : Token → Bool
  | .string _ _ | .identifier _ => true
  | _ => false

def step (list : MatcherList) (t : Token) : Progress MatcherList (Checked MatcherGroups) :=
  match list.phase with
  | .first => list.afterBrace t
  | .loneComma => if t = .closeBrace then .done (.error (.failed .loneComma)) else .refused
  | .afterComma => list.afterComma t
  | .afterAlternative => list.startMatcher t
  | .named name => list.afterName name t
  | .symbol name symbol => list.afterSymbol name symbol t
  | .secondSymbol symbol value =>
    if isValue t && !value then .more { list with phase := .secondSymbol symbol true }
    else list.endMatcher (.error (.failed (.repeatedMatchSymbol symbol))) t
  | .complete m => list.endMatcher m t

end MatcherList

end MetricScope.PromQL
