import MetricScope.PromQL.Expr
import MetricScope.Listing

/-!
# The text of expressions

Trees are written without parentheses of their own. Strings and label values are
written as they are between quotes. The matchers of a selector with one group are
ordered by their text; alternatives keep the order in which they stand, and their text
loses the letters of the word between them if it starts with those.
-/

set_option autoImplicit false

namespace MetricScope.PromQL

def isLabelName (name : String) : Bool :=
  match name.toList with
  | [] => false
  | c :: rest => (c == '_' || c.isAlpha) && rest.all fun c => c == '_' || c.isAlphanum

def quote (text : String) : String :=
  "\"" ++ text ++ "\""

def labelText (name : String) : String :=
  if isLabelName name then name else quote name

def labelsText (labels : List String) : String :=
  "(" ++ Text.join ", " (labels.map labelText) ++ ")"

def Matcher.text (m : Matcher) : String :=
  labelText m.name ++ m.op.symbol.text ++ quote m.value

def sortTexts (texts : List String) : List String :=
  sortBy (fun a b => decide (a ≤ b)) texts

def dropLeadingOr : List Char → List Char
  | 'o' :: 'r' :: rest => rest
  | text => text

def alternativeText (group : List Matcher) : String :=
  Text.join ", " (group.map Matcher.text)

/-- The inside of the braces. Of alternatives, a first label whose name starts with the
letters of the word for alternatives is written without them. -/
def MatcherGroups.text (g : MatcherGroups) : String :=
  match g.others with
  | [] => Text.join "," (sortTexts (g.first.map Matcher.text))
  | others =>
    String.ofList (dropLeadingOr
      (Text.join " or " ((g.first :: others).map alternativeText)).toList)

def MatcherGroups.bracedText (g : MatcherGroups) : String :=
  if g.first.isEmpty && g.others.isEmpty then "" else "\x7b" ++ g.text ++ "\x7d"

def Instant.text : Instant → String
  | start => "start()"
  | finish => "end()"
  | epoch before milliseconds =>
    if before then "0.000"
    else
      match (Duration.ofMilliseconds milliseconds).seconds.toQuotient with
      | some (n, den) => String.ofList (Binary64.fixedPlaces 3 n den)
      | none => "0.000"

def instantText : Option Instant → String
  | none => ""
  | some instant => " @ " ++ instant.text

def offsetText : Option Offset → String
  | none => ""
  | some offset =>
    " offset " ++ (if offset.negative then "-" else "") ++ offset.duration.text

def Selector.seriesText (s : Selector) : String :=
  s.metric.getD "" ++ s.groups.bracedText

def Selector.timeText (s : Selector) : String :=
  instantText s.at? ++ offsetText s.offset

/-- The labels of an aggregation. No labels to go by are left unsaid, no labels to
leave out are not. -/
def groupingText : Option Grouping → String
  | none => ""
  | some (.including []) => ""
  | some (.including labels) => " by " ++ labelsText labels ++ " "
  | some (.excluding labels) => " without " ++ labelsText labels ++ " "

def Cardinality.words : Cardinality → List String
  | oneToOne => []
  | manyToOne labels => ["group_left " ++ labelsText labels]
  | oneToMany labels => ["group_right " ++ labelsText labels]

def matchingWords : Option Grouping → List String
  | none => []
  | some (.including labels) => ["on " ++ labelsText labels]
  | some (.excluding []) => []
  | some (.excluding labels) => ["ignoring " ++ labelsText labels]

def VectorMatching.words (m : VectorMatching) : List String :=
  (if m.returnBool then ["bool"] else []) ++ matchingWords m.labels ++ m.cardinality.words

def numberText : Binary64 → String
  | .infinite negative => if negative then "-Inf" else "Inf"
  | x => String.ofList x.digits

namespace Expr

mutual

def text : Expr → String
  | selector s => s.seriesText ++ s.timeText
  | range s length => s.seriesText ++ "[" ++ length.text ++ "]" ++ s.timeText
  | subquery e length step offset at? =>
      e.text ++ "[" ++ length.text ++ ":" ++ (step.map Duration.text).getD "" ++ "]" ++
        instantText at? ++ offsetText offset
  | call f arguments => f.name ++ "(" ++ Text.join ", " (textList arguments) ++ ")"
  | aggregate op grouping parameter e =>
      op.name ++ groupingText grouping ++
        "(" ++ Text.join ", " (textOption parameter ++ [e.text]) ++ ")"
  | binary op matching left right =>
      Text.join " " (left.text :: op.text :: matching.words ++ [right.text])
  | negated e => "-" ++ e.text
  | paren e => "(" ++ e.text ++ ")"
  | number x => numberText x
  | string text => quote text

def textList : List Expr → List String
  | [] => []
  | e :: rest => e.text :: textList rest

def textOption : Option Expr → List String
  | none => []
  | some e => [e.text]

end

end Expr

end MetricScope.PromQL
