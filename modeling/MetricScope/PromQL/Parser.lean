import MetricScope.PromQL.Build
import MetricScope.PromQL.Lexer
import MetricScope.PromQL.MatcherList

/-!
# From tokens to expressions

The tokens are read one at a time. The state is the stack of constructs that wait
for an operand, the innermost first, and the focus, which is what the last tokens
belong to. A token that the focus cannot take makes the query malformed, whatever
faults its parts have; those come to light only at the end, with one exception: a
number of seconds that no duration can hold crashes the reading as soon as the
duration is complete.
-/

set_option autoImplicit false

namespace MetricScope.PromQL

inductive Callee where
  | function (name : String)
  | aggregator (op : Aggregator) (grouping : Option (Checked Grouping))

inductive Frame where
  | paren
  | arguments (callee : Callee) (read : Checked (List Expr))
  | signed (negative : Bool)
  | operand (left : Checked Expr) (op : Operator) (matching : Checked VectorMatching)

inductive MatchingPhase where
  | start
  | bool
  | labels (returnBool excluding : Bool) (list : LabelList)
  | labelled (returnBool : Bool) (grouping : Checked Grouping)
  | group (returnBool : Bool) (grouping : Checked Grouping) (toMany : Bool)
  | groupLabels (returnBool : Bool) (grouping : Checked Grouping) (toMany : Bool)
      (list : LabelList)
  | groupAlone (toMany : Bool) (list : LabelList)
  | complete (matching : Checked VectorMatching)

def Grouping.ofLabels (excluding : Bool) (labels : Checked (List String)) :
    Checked Grouping := do
  let labels ← labels
  pure (if excluding then .excluding labels else .including labels)

def joining (toMany : Bool) (labels : List String) : Cardinality :=
  if toMany then .oneToMany labels else .manyToOne labels

namespace MatchingPhase

/-- What one more token makes of the matching; nothing if the token is no part of it
and must be the first one of the right operand. -/
def step (phase : MatchingPhase) (t : Token) : Option MatchingPhase :=
  match phase, t with
  | .start, .keyword .bool _ => some .bool
  | .start, .keyword .onLabels _ => some (.labels false false .unopened)
  | .start, .keyword .ignoringLabels _ => some (.labels false true .unopened)
  | .start, .keyword .groupLeft _ => some (.groupAlone false .unopened)
  | .start, .keyword .groupRight _ => some (.groupAlone true .unopened)
  | .bool, .keyword .onLabels _ => some (.labels true false .unopened)
  | .bool, .keyword .ignoringLabels _ => some (.labels true true .unopened)
  | .labels returnBool excluding list, t =>
    match list.step t with
    | .more list => some (.labels returnBool excluding list)
    | .done names => some (.labelled returnBool (Grouping.ofLabels excluding names))
    | .refused => none
  | .labelled returnBool grouping, .keyword .groupLeft _ =>
      some (.group returnBool grouping false)
  | .labelled returnBool grouping, .keyword .groupRight _ =>
      some (.group returnBool grouping true)
  | .group returnBool grouping toMany, .openParen =>
      some (.groupLabels returnBool grouping toMany .opened)
  | .groupLabels returnBool grouping toMany list, t =>
    match list.step t with
    | .more list => some (.groupLabels returnBool grouping toMany list)
    | .done names => some (.complete do
        let grouping ← grouping
        let names ← names
        pure ⟨returnBool, some grouping, joining toMany names⟩)
    | .refused => none
  | .groupAlone toMany list, t =>
    match list.step t with
    | .more list => some (.groupAlone toMany list)
    | .done _ => some (.complete (.error (.failed (.groupWithoutLabels toMany))))
    | .refused => none
  | _, _ => none

def value? : MatchingPhase → Option (Checked VectorMatching)
  | .start => some (.ok .plain)
  | .bool => some (.ok { VectorMatching.plain with returnBool := true })
  | .labelled returnBool grouping => some do
      let grouping ← grouping
      pure ⟨returnBool, some grouping, .oneToOne⟩
  | .group returnBool grouping toMany => some do
      let grouping ← grouping
      pure ⟨returnBool, some grouping, joining toMany []⟩
  | .complete matching => some matching
  | .labels _ _ _ | .groupLabels _ _ _ _ | .groupAlone _ _ => none

end MatchingPhase

inductive RangePhase where
  | start
  | length (length : Checked Duration)
  | stepStart (length : Checked Duration)
  | step (length step : Checked Duration)

inductive OffsetPhase where
  | start
  | signed (negative : Bool)
  | complete (negative : Bool) (duration : Checked Duration)

inductive AtPhase where
  | start
  | signed (before : Bool)
  | bound (instant : Instant)
  | boundOpened (instant : Instant)

inductive Focus where
  | operand
  | firstArgument (callee : Callee)
  /-- After a comma between arguments. -/
  | nextArgument (callee : Callee) (read : Checked (List Expr))
  | identifier (name : String)
  | metric (name : String)
  | aggregator (op : Aggregator) (text : String)
  | matchers (metric : Option String) (list : MatcherList)
  /-- Labels in front of the arguments of an aggregation, or after them. -/
  | aggregatorLabels (op : Aggregator) (arguments : Option (Checked (List Expr)))
      (excluding : Bool) (list : LabelList)
  | aggregatorLabelled (op : Aggregator) (grouping : Checked Grouping)
  | aggregated (op : Aggregator) (arguments : Checked (List Expr))
  | matching (left : Checked Expr) (op : Operator) (phase : MatchingPhase)
  | brackets (e : Checked Expr) (phase : RangePhase)
  | offset (e : Checked Expr) (phase : OffsetPhase)
  | at (e : Checked Expr) (phase : AtPhase)
  | complete (e : Checked Expr)

structure Parser where
  frames : List Frame
  focus : Focus

namespace Parser

def initial : Parser := ⟨[], .operand⟩

def duration? : Token → Option (Checked Duration)
  | .duration text => some (Literal.duration text)
  | .number text => some (Literal.secondsDuration text)
  | _ => none

def number? : Token → Option (Checked Binary64)
  | .number text => some (Literal.number text)
  | .duration text => some (Literal.durationSeconds text)
  | _ => none

def binaryOperator? : Token → Option Operator
  | .operator op => some op
  | .keyword (.operator op) _ => some op
  | _ => none

def overflows : Checked Duration → Bool
  | .error .crashed => true
  | _ => false

def canFollow (t : Token) : Bool :=
  match t with
  | .closeParen | .comma | .openBracket | .at | .keyword .offset _ => true
  | t => (binaryOperator? t).isSome

/-- Completes the signs and operators that bind their operand before the operator
that follows it, all of them if none follows. -/
def unwind (next : Option Operator) : List Frame → Checked Expr → List Frame × Checked Expr
  | .signed negative :: frames, e =>
      match next with
      | none => unwind next frames (Expr.signed? negative e)
      | some op =>
        if op.level ≤ Operator.signLevel then unwind next frames (Expr.signed? negative e)
        else (.signed negative :: frames, e)
  | .operand left op matching :: frames, e =>
      match next with
      | none => unwind next frames (Expr.binary? op left matching e)
      | some after =>
        if op.bindsBefore after then unwind next frames (Expr.binary? op left matching e)
        else (.operand left op matching :: frames, e)
  | frames, e => (frames, e)

abbrev Step := Except (Halt ParseError) Parser

def refuse : Step := .error (.failed .malformed)

def withFocus (p : Parser) (focus : Focus) : Step := .ok { p with focus := focus }

def completed (p : Parser) (e : Checked Expr) : Step := p.withFocus (.complete e)

def endArguments (p : Parser) (callee : Callee) (arguments : Checked (List Expr)) : Step :=
  match callee with
  | .function name => p.completed (Expr.call? name arguments)
  | .aggregator op (some grouping) =>
      p.completed (Expr.aggregate? op (grouping.map some) arguments)
  | .aggregator op none => p.withFocus (.aggregated op arguments)

def startOperand (p : Parser) (t : Token) : Step :=
  match t with
  | .identifier name => p.withFocus (.identifier name)
  | .metricIdentifier name => p.withFocus (.metric name)
  | .keyword (.aggregator op) text => p.withFocus (.aggregator op text)
  | .keyword word text =>
      if word.canNameMetric then p.withFocus (.metric text) else refuse
  | .string quote body => p.completed (Expr.string? (Literal.unquote quote body))
  | .openParen => .ok ⟨.paren :: p.frames, .operand⟩
  | .openBrace => p.withFocus (.matchers none .opened)
  | .operator .add => .ok ⟨.signed false :: p.frames, .operand⟩
  | .operator .sub => .ok ⟨.signed true :: p.frames, .operand⟩
  | t =>
    match number? t with
    | some x => p.completed (Expr.number? x)
    | none => refuse

def afterOperand (p : Parser) (e : Checked Expr) (t : Token) : Step :=
  match t with
  | .openBracket => p.withFocus (.brackets e .start)
  | .at => p.withFocus (.at e .start)
  | .keyword .offset _ => p.withFocus (.offset e .start)
  | .closeParen =>
    match unwind none p.frames e with
    | (.paren :: frames, e) => .ok ⟨frames, .complete (Expr.paren? e)⟩
    | (.arguments callee read :: frames, e) =>
      endArguments ⟨frames, .operand⟩ callee do
        let read ← read
        let e ← e
        pure (read ++ [e])
    | _ => refuse
  | .comma =>
    match unwind none p.frames e with
    | (.arguments callee read :: frames, e) =>
      .ok ⟨frames, .nextArgument callee do
        let read ← read
        let e ← e
        pure (read ++ [e])⟩
    | _ => refuse
  | t =>
    match binaryOperator? t with
    | some op =>
      let (frames, e) := unwind (some op) p.frames e
      .ok ⟨frames, .matching e op .start⟩
    | none => refuse

def operand? : Focus → Option (Checked Expr)
  | .identifier name | .metric name | .aggregator _ name => some (Expr.metric name)
  | .aggregated op arguments => some (Expr.aggregate? op (.ok none) arguments)
  | .offset e (.complete negative duration) => some (Expr.offset? e negative duration)
  | .complete e => some e
  | _ => none

def settle (p : Parser) (t : Token) : Step :=
  match operand? p.focus with
  | some e => p.afterOperand e t
  | none => refuse

def inBrackets (p : Parser) (e : Checked Expr) (phase : RangePhase) (t : Token) : Step :=
  match phase with
  | .start =>
    match t with
    | .closeBracket => p.completed (.error (.failed .emptyRange))
    | t =>
      match duration? t with
      | some length => p.withFocus (.brackets e (.length length))
      | none => refuse
  | .length length =>
    match t with
    | .closeBracket =>
      if overflows length then .error .crashed
      else p.completed (Expr.range? e length)
    | .colon =>
      if overflows length then .error .crashed
      else p.withFocus (.brackets e (.stepStart length))
    | _ => refuse
  | .stepStart length =>
    match t with
    | .closeBracket => p.completed (Expr.subquery? e length (.ok none))
    | t =>
      match duration? t with
      | some step => p.withFocus (.brackets e (.step length step))
      | none => refuse
  | .step length step =>
    match t with
    | .closeBracket =>
      if overflows step then .error .crashed
      else p.completed (Expr.subquery? e length (step.map some))
    | _ => refuse

def inOffset (p : Parser) (e : Checked Expr) (phase : OffsetPhase) (t : Token) : Step :=
  let read (negative : Bool) : Step :=
    match duration? t with
    | some duration => p.withFocus (.offset e (.complete negative duration))
    | none => refuse
  match phase with
  | .start =>
    match t with
    | .operator .add => p.withFocus (.offset e (.signed false))
    | .operator .sub => p.withFocus (.offset e (.signed true))
    | _ => read false
  | .signed negative => read negative
  | .complete _ duration =>
    if overflows duration && canFollow t then .error .crashed else p.settle t

def inAt (p : Parser) (e : Checked Expr) (phase : AtPhase) (t : Token) : Step :=
  let read (before : Bool) : Step :=
    match number? t with
    | some x => p.completed (Expr.at? e do
        let x ← x
        Instant.ofSeconds before x)
    | none => refuse
  match phase with
  | .start =>
    match t with
    | .operator .add => p.withFocus (.at e (.signed false))
    | .operator .sub => p.withFocus (.at e (.signed true))
    | .keyword .start _ => p.withFocus (.at e (.bound .start))
    | .keyword .finish _ => p.withFocus (.at e (.bound .finish))
    | _ => read false
  | .signed before => read before
  | .bound instant =>
    match t with
    | .openParen => p.withFocus (.at e (.boundOpened instant))
    | _ => refuse
  | .boundOpened instant =>
    match t with
    | .closeParen => p.completed (Expr.at? e (.ok instant))
    | _ => refuse

def step (p : Parser) (t : Token) : Step :=
  match p.focus with
  | .operand => p.startOperand t
  | .firstArgument callee =>
    match t with
    | .closeParen => p.endArguments callee (.ok [])
    | t => startOperand ⟨.arguments callee (.ok []) :: p.frames, .operand⟩ t
  | .nextArgument callee read =>
    match t with
    | .closeParen => p.endArguments callee (.error (.failed .trailingComma))
    | .comma => p.withFocus (.nextArgument callee (.error (.failed .trailingComma)))
    | t => startOperand ⟨.arguments callee read :: p.frames, .operand⟩ t
  | .identifier name =>
    match t with
    | .openParen => p.withFocus (.firstArgument (.function name))
    | .openBrace => p.withFocus (.matchers (some name) .opened)
    | t => p.settle t
  | .metric name =>
    match t with
    | .openBrace => p.withFocus (.matchers (some name) .opened)
    | t => p.settle t
  | .aggregator op text =>
    match t with
    | .openParen => p.withFocus (.firstArgument (.aggregator op none))
    | .keyword .byLabels _ => p.withFocus (.aggregatorLabels op none false .unopened)
    | .keyword .withoutLabels _ => p.withFocus (.aggregatorLabels op none true .unopened)
    | .openBrace => p.withFocus (.matchers (some text) .opened)
    | t => p.settle t
  | .matchers metric list =>
    match list.step t with
    | .more list => p.withFocus (.matchers metric list)
    | .done groups => p.completed (Expr.selector? metric groups)
    | .refused => refuse
  | .aggregatorLabels op arguments excluding list =>
    match list.step t with
    | .more list => p.withFocus (.aggregatorLabels op arguments excluding list)
    | .done labels =>
      let grouping := Grouping.ofLabels excluding labels
      match arguments with
      | none => p.withFocus (.aggregatorLabelled op grouping)
      | some arguments => p.completed (Expr.aggregate? op (grouping.map some) arguments)
    | .refused => refuse
  | .aggregatorLabelled op grouping =>
    match t with
    | .openParen => p.withFocus (.firstArgument (.aggregator op (some grouping)))
    | _ => refuse
  | .aggregated op arguments =>
    match t with
    | .keyword .byLabels _ =>
      p.withFocus (.aggregatorLabels op (some arguments) false .unopened)
    | .keyword .withoutLabels _ =>
      p.withFocus (.aggregatorLabels op (some arguments) true .unopened)
    | t => p.settle t
  | .matching left op phase =>
    match phase.step t with
    | some phase => p.withFocus (.matching left op phase)
    | none =>
      match phase.value? with
      | some matching => startOperand ⟨.operand left op matching :: p.frames, .operand⟩ t
      | none => refuse
  | .brackets e phase => p.inBrackets e phase t
  | .offset e phase => p.inOffset e phase t
  | .at e phase => p.inAt e phase t
  | .complete e => p.afterOperand e t

def run (p : Parser) (tokens : List Token) : Step :=
  tokens.foldlM step p

def endOperand (p : Parser) : Except (Halt ParseError) (Checked Expr) :=
  match p.focus with
  | .operand => .error (.failed (if p.frames.isEmpty then .empty else .malformed))
  | .offset _ .start => .ok (.error (.failed .offsetAtEnd))
  | .offset e (.complete negative duration) =>
    if overflows duration then .error .crashed
    else .ok (Expr.offset? e negative duration)
  | .at _ .start => .ok (.error (.failed .timestampAtEnd))
  | focus =>
    match operand? focus with
    | some e => .ok e
    | none => .error (.failed .malformed)

def finish (p : Parser) : Except (Halt ParseError) Expr := do
  let e ← p.endOperand
  match unwind none p.frames e with
  | ([], e) => e
  | _ => .error (.failed .malformed)

end Parser

def Expr.ofTokens (tokens : List Token) : Except (Halt ParseError) Expr := do
  let p ← Parser.initial.run tokens
  p.finish

def Expr.parse (text : String) : Except (Halt ParseError) Expr :=
  match tokenize text with
  | .error cause => .error (.failed (.lexical cause))
  | .ok tokens => Expr.ofTokens tokens

end MetricScope.PromQL
