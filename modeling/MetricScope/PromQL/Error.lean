import MetricScope.Text.Quoted
import MetricScope.PromQL.Token

/-!
# Why a query is refused

Each constructor is one cause; the wording of all of them is in the two
functions called `message`.
-/

set_option autoImplicit false

namespace MetricScope

/-- How an operation ends without a result: with a cause that its caller is told, or in
a crash, which no caller sees and which ends the program. -/
inductive Halt (ε : Type) where
  | failed (cause : ε)
  | crashed
  deriving DecidableEq, Repr

def Halt.map {ε ε' : Type} (f : ε → ε') : Halt ε → Halt ε'
  | failed cause => .failed (f cause)
  | crashed => .crashed

end MetricScope

namespace MetricScope.PromQL

inductive LexicalError where
  | unclosedParenthesis
  | strayParenthesis
  | strayBrace
  | strayBracket
  | unexpected (c : Char)
  | unexpectedAfterEquals (c : Char)
  | unexpectedAfterBang (c : Char)
  | unexpectedAfterDot (c : Char)
  | bangAtEnd
  | badNumber (text : String)
  | unknownEscape (c : Char)
  | openEscape
  | openString (quote : Char)
  | unexpectedAfterBangInBraces (c : Char)
  | braceInBraces
  | unexpectedInBraces (c : Char)
  | openBraces
  | secondColon
  | leadingColon
  | bracketInBrackets
  | unexpectedInBrackets (c : Char)
  | openBrackets
  deriving DecidableEq, Repr

def betweenApostrophes (c : Char) : String :=
  String.ofList ['\'', c, '\'']

namespace LexicalError

def message : LexicalError → String
  | unclosedParenthesis => "unclosed left parenthesis"
  | strayParenthesis => "unexpected right parenthesis ')'"
  | strayBrace => "unexpected right brace '\x7d'"
  | strayBracket => "unexpected right bracket ']'"
  | unexpected c => String.join ["unexpected character: ", Text.quotedChar c]
  | unexpectedAfterEquals c =>
      String.join ["unexpected character after '=': ", betweenApostrophes c]
  | unexpectedAfterBang c =>
      String.join ["unexpected character after '!': ", betweenApostrophes c]
  | unexpectedAfterDot c =>
      String.join ["unexpected character after '.': ", betweenApostrophes c]
  | bangAtEnd => "'!' can not be at the end"
  | badNumber text => String.join ["bad number or duration syntax: ", text]
  | unknownEscape c => String.join ["unknown escape sequence ", betweenApostrophes c]
  | openEscape => "escape sequence not terminated"
  | openString quote => String.join ["unterminated quoted string ", String.singleton quote]
  | unexpectedAfterBangInBraces c =>
      String.join ["unexpected character after '!' inside braces: ", betweenApostrophes c]
  | braceInBraces => "unexpected left brace '\x7b' inside braces"
  | unexpectedInBraces c =>
      String.join ["unexpected character inside braces: ", betweenApostrophes c]
  | openBraces => "unexpected end of input inside braces"
  | secondColon => "unexpected second colon(:) in brackets"
  | leadingColon => "expect duration before first colon(:) in brackets"
  | bracketInBrackets => "unexpected left brace '[' inside brackets"
  | unexpectedInBrackets c =>
      String.join ["unexpected character inside brackets: ", betweenApostrophes c]
  | openBrackets => "unexpected end of input inside brackets"

end LexicalError

inductive ParseError where
  | lexical (cause : LexicalError)
  /-- The tokens are no sentence of the grammar. -/
  | malformed
  | empty
  | unreadableString
  | unreadableInteger (text : String)
  | unreadableNumber (text : String)
  | unreadableDuration (text : String)
  | zeroDuration
  | offsetAtEnd
  | timestampAtEnd
  | emptyRange
  /-- Labels are handed over, to the right side with `toMany`, but none are matched. -/
  | groupWithoutLabels (toMany : Bool)
  | loneComma
  | repeatedMatchSymbol (symbol : MatchSymbol)
  | identifierAsValue (name : String)
  | missingMatchSymbol (name : String)
  | illegalRegex (value : String)
  | invalidGroupingLabel (name : String)
  | trailingComma
  | unknownFunction (name : String)
  | noArguments (op : Aggregator)
  | wrongArgumentCount (expected got : Nat)
  | aggregatedType (expected got : ValueType)
  | callArguments (function : String) (expected got : Nat)
  | callArgumentsAtLeast (function : String) (expected got : Nat)
  | callArgumentsAtMost (function : String) (expected got : Nat)
  | callArgumentType (function : String) (expected got : ValueType)
  | offsetOperand
  | repeatedOffset
  | timestampOperand
  | repeatedTimestamp
  | timestampOutOfBounds (text : String)
  | offsetBeforeRange
  | timestampBeforeRange
  | rangeOperand
  | subqueryOperand (got : ValueType)
  | negatedLiteral (got : ValueType)
  | signedOperand (got : ValueType)
  | boolWithoutComparison
  | scalarComparison
  | labelOnBothSides (label : String)
  | setOperatorOnScalar (op : Operator)
  | groupedSetOperator (op : Operator)
  | binaryOperand
  | matchingWithoutVectors
  | repeatedMetricName (name value : String)
  | emptySelector
  deriving DecidableEq, Repr

namespace ParseError

def typeMismatch (place : String) (expected got : ValueType) : String :=
  String.join ["expected type ", expected.name, " in ", place, ", got ", got.name]

def countMismatch (bound function : String) (expected got : Nat) : String :=
  String.join ["expected ", bound, toString expected, " argument(s) in call to '", function,
    "', got ", toString got]

def message : ParseError → String
  | lexical cause => cause.message
  | malformed => "invalid promql query"
  | empty => "no expression found in input"
  | unreadableString => "invalid syntax"
  | unreadableInteger text =>
      String.join ["ParseFloatError. ", text, " can't be parsed into i64"]
  | unreadableNumber text =>
      String.join ["ParseFloatError. ", text, " can't be parsed into f64"]
  | unreadableDuration text => String.join ["not a valid duration string: ", text]
  | zeroDuration => "duration must be greater than 0"
  | offsetAtEnd => "unexpected end of input in offset, expected duration"
  | timestampAtEnd => "unexpected end of input in @, expected timestamp"
  | emptyRange => "missing unit character in duration"
  | groupWithoutLabels toMany =>
      if toMany then "unexpected <group_right>" else "unexpected <group_left>"
  | loneComma =>
      "unexpected ',' in label matching, expected identifier or right_brace"
  | repeatedMatchSymbol symbol =>
      String.join ["unexpected '", symbol.text, "' in label matching, expected string"]
  | identifierAsValue name =>
      String.join ["unexpected identifier '", name, "' in label matching, expected string"]
  | missingMatchSymbol name =>
      String.join ["invalid label matcher, expected label matching operator after '", name,
        "'"]
  | illegalRegex value => String.join ["illegal regex for ", value]
  | invalidGroupingLabel name => String.join [name, " is not valid label in grouping opts"]
  | trailingComma => "trailing commas not allowed in function call args"
  | unknownFunction name => String.join ["unknown function with name '", name, "'"]
  | noArguments op =>
      String.join ["no arguments for aggregate expression '", op.name, "' provided"]
  | wrongArgumentCount expected got =>
      String.join ["wrong number of arguments for aggregate expression provided, expected ",
        toString expected, ", got ", toString got]
  | aggregatedType expected got => typeMismatch "aggregation expression" expected got
  | callArguments function expected got => countMismatch "" function expected got
  | callArgumentsAtLeast function expected got =>
      countMismatch "at least " function expected got
  | callArgumentsAtMost function expected got =>
      countMismatch "at most " function expected got
  | callArgumentType function expected got =>
      typeMismatch (String.join ["call to function '", function, "'"]) expected got
  | offsetOperand =>
      "offset modifier must be preceded by an vector selector or matrix selector or a subquery"
  | repeatedOffset => "offset may not be set multiple times"
  | timestampOperand =>
      "@ modifier must be preceded by an vector selector or matrix selector or a subquery"
  | repeatedTimestamp => "@ <timestamp> may not be set multiple times"
  | timestampOutOfBounds text =>
      String.join ["timestamp out of bounds for @ modifier: ", text]
  | offsetBeforeRange => "no offset modifiers allowed before range"
  | timestampBeforeRange => "no @ modifiers allowed before range"
  | rangeOperand => "ranges only allowed for vector selectors"
  | subqueryOperand got =>
      String.join ["subquery is only allowed on vector, got ", got.name, " instead"]
  | negatedLiteral got =>
      String.join ["unary expression only allowed on expressions of type scalar or vector, ",
        "got: ", got.name]
  | signedOperand got =>
      String.join ["unary expression only allowed on expressions of type scalar or vector, ",
        "got ", got.name]
  | boolWithoutComparison => "bool modifier can only be used on comparison operators"
  | scalarComparison => "comparisons between scalars must use BOOL modifier"
  | labelOnBothSides label =>
      String.join ["label '", label, "' must not occur in ON and GROUP clause at once"]
  | setOperatorOnScalar op =>
      String.join ["set operator '", op.text, "' not allowed in binary scalar expression"]
  | groupedSetOperator op =>
      String.join ["no grouping allowed for '", op.text, "' operation"]
  | binaryOperand =>
      "binary expression must contain only scalar and instant vector types"
  | matchingWithoutVectors => "vector matching only allowed between vectors"
  | repeatedMetricName name value =>
      String.join ["metric name must not be set twice: '", name, "' or '", value, "'"]
  | emptySelector => "vector selector must contain at least one non-empty matcher"

end ParseError

end MetricScope.PromQL
