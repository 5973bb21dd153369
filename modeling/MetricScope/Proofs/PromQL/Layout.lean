import MetricScope.Proofs.PromQL.Lexing
import MetricScope.Proofs.PromQL.Tree
import MetricScope.PromQL.Printer

/-!
# The characters and the tokens of a tree

Both are given for any way to write the times of evaluation, since the stand-in of a
variable is written there in two ways. Matchers and labels keep the order in which they
stand in the tree.
-/

set_option autoImplicit false

namespace MetricScope.PromQL

theorem intercalate_cons {α : Type} (separator first : List α) (rest : List (List α)) :
    separator.intercalate (first :: rest) = first ++ rest.flatMap (separator ++ ·) := by
  induction rest generalizing first with
  | nil => simp
  | cons next rest ih => rw [List.intercalate_cons_cons, ih]; simp

theorem toList_join (separator : String) (texts : List String) :
    (Text.join separator texts).toList =
      separator.toList.intercalate (texts.map String.toList) := by
  induction texts with
  | nil => rfl
  | cons text rest ih =>
    cases rest with
    | nil => simp
    | cons next rest =>
      rw [Text.join_cons_cons, String.toList_append, String.toList_append, ih]
      simp

theorem toList_join_blank (first last : String) (words : List String) :
    (Text.join " " (first :: words ++ [last])).toList =
      first.toList ++ words.flatMap (fun word => ' ' :: word.toList) ++
        ' ' :: last.toList := by
  induction words generalizing first with
  | nil => simp [Text.join]
  | cons word rest ih =>
    have hne : rest ++ [last] ≠ [] := by simp
    have hjoin : Text.join " " (first :: (word :: rest) ++ [last]) =
        first ++ " " ++ Text.join " " (word :: rest ++ [last]) := by
      simp [Text.join]
    rw [hjoin, String.toList_append, String.toList_append, ih]
    simp

def labelToken (name : String) : Token :=
  if isLabelName name then Lexer.wordToken name else .string '"' name

def labelsTokens (labels : List String) : List Token :=
  .openParen :: [Token.comma].intercalate (labels.map fun name => [labelToken name]) ++
    [.closeParen]

namespace Matcher

def nameToken (name : String) : Token :=
  if isLabelName name then .identifier name else .string '"' name

def tokens (m : Matcher) : List Token :=
  [nameToken m.name, .matching m.op.symbol, .string '"' m.value]

def chars (m : Matcher) : List Char := m.text.toList

end Matcher

namespace MatcherGroups

def inner (g : MatcherGroups) : List Char :=
  match g.others with
  | [] => [','].intercalate (g.first.map Matcher.chars)
  | others =>
    [' ', 'o', 'r', ' '].intercalate
      ((g.first :: others).map fun ms => [',', ' '].intercalate (ms.map Matcher.chars))

def innerTokens (g : MatcherGroups) : List Token :=
  [Token.alternative].intercalate
    (g.toList.map fun ms => [Token.comma].intercalate (ms.map Matcher.tokens))

def chars (g : MatcherGroups) : List Char :=
  if g.first.isEmpty && g.others.isEmpty then [] else '\x7b' :: g.inner ++ ['\x7d']

def tokens (g : MatcherGroups) : List Token :=
  if g.first.isEmpty && g.others.isEmpty then []
  else .openBrace :: g.innerTokens ++ [.closeBrace]

end MatcherGroups

section

variable (epochs : Bool → Nat → List Char)

namespace Instant

def chars : Instant → List Char
  | start => "start()".toList
  | finish => "end()".toList
  | epoch before milliseconds => epochs before milliseconds

def tokens : Instant → List Token
  | start => [.keyword .start "start", .openParen, .closeParen]
  | finish => [.keyword .finish "end", .openParen, .closeParen]
  | epoch before milliseconds => [.number (String.ofList (epochs before milliseconds))]

def epochChars (before : Bool) (milliseconds : Nat) : List Char :=
  (epoch before milliseconds).text.toList

theorem toList_text (i : Instant) : i.text.toList = i.chars epochChars := by
  cases i <;> rfl

end Instant

def instantChars : Option Instant → List Char
  | none => []
  | some instant => " @ ".toList ++ instant.chars epochs

def instantTokens : Option Instant → List Token
  | none => []
  | some instant => .at :: instant.tokens epochs

def offsetTokens : Option Offset → List Token
  | none => []
  | some offset =>
    .keyword .offset "offset" :: (if offset.negative then [.operator .sub] else []) ++
      [.duration offset.duration.text]

namespace Selector

def seriesChars (s : Selector) : List Char :=
  (s.metric.getD "").toList ++ s.groups.chars

def seriesTokens (s : Selector) : List Token :=
  (s.metric.map Lexer.wordToken).toList ++ s.groups.tokens

def timeChars (s : Selector) : List Char :=
  instantChars epochs s.at? ++ (offsetText s.offset).toList

def timeTokens (s : Selector) : List Token :=
  instantTokens epochs s.at? ++ offsetTokens s.offset

end Selector

def groupingTokens : Option Grouping → List Token
  | none => []
  | some (.including []) => []
  | some (.including labels) => .keyword .byLabels "by" :: labelsTokens labels
  | some (.excluding labels) => .keyword .withoutLabels "without" :: labelsTokens labels

def Cardinality.tokens : Cardinality → List Token
  | oneToOne => []
  | manyToOne labels => .keyword .groupLeft "group_left" :: labelsTokens labels
  | oneToMany labels => .keyword .groupRight "group_right" :: labelsTokens labels

def matchingTokens : Option Grouping → List Token
  | none => []
  | some (.including labels) => .keyword .onLabels "on" :: labelsTokens labels
  | some (.excluding []) => []
  | some (.excluding labels) => .keyword .ignoringLabels "ignoring" :: labelsTokens labels

namespace VectorMatching

def chars (m : VectorMatching) : List Char :=
  m.words.flatMap fun word => ' ' :: word.toList

def tokens (m : VectorMatching) : List Token :=
  (if m.returnBool then [.keyword .bool "bool"] else []) ++ matchingTokens m.labels ++
    m.cardinality.tokens

end VectorMatching

def numberTokens (x : Binary64) : List Token :=
  if x.isNegative then [.operator .sub, .number (numberText x.neg)]
  else [.number (numberText x)]

def lengthChars (length : Duration) (step : Option Duration) : List Char :=
  '[' :: length.text.toList ++ ':' :: ((step.map Duration.text).getD "").toList ++ [']']

def lengthTokens (length : Duration) (step : Option Duration) : List Token :=
  [.openBracket, .duration length.text, .colon] ++
    (step.map fun d => Token.duration d.text).toList ++ [.closeBracket]

namespace Expr

mutual

def chars : Expr → List Char
  | selector s => s.seriesChars ++ s.timeChars epochs
  | range s length =>
      s.seriesChars ++ ('[' :: length.text.toList ++ [']']) ++ s.timeChars epochs
  | subquery e length step offset at? =>
      e.chars ++ lengthChars length step ++ instantChars epochs at? ++
        (offsetText offset).toList
  | call f arguments =>
      f.name.toList ++ ('(' :: [',', ' '].intercalate (charsList arguments) ++ [')'])
  | aggregate op grouping parameter e =>
      op.name.toList ++ (groupingText grouping).toList ++
        ('(' :: [',', ' '].intercalate (charsOption parameter ++ [e.chars]) ++ [')'])
  | binary op matching left right =>
      left.chars ++ (' ' :: op.text.toList ++ matching.chars) ++ ' ' :: right.chars
  | negated e => '-' :: e.chars
  | paren e => '(' :: e.chars ++ [')']
  | number x => (numberText x).toList
  | string text => '"' :: text.toList ++ ['"']

def charsList : List Expr → List (List Char)
  | [] => []
  | e :: rest => e.chars :: charsList rest

def charsOption : Option Expr → List (List Char)
  | none => []
  | some e => [e.chars]

end

mutual

def tokens : Expr → List Token
  | selector s => s.seriesTokens ++ s.timeTokens epochs
  | range s length =>
      s.seriesTokens ++ [.openBracket, .duration length.text, .closeBracket] ++
        s.timeTokens epochs
  | subquery e length step offset at? =>
      e.tokens ++ lengthTokens length step ++ instantTokens epochs at? ++ offsetTokens offset
  | call f arguments =>
      .identifier f.name ::
        (.openParen :: [Token.comma].intercalate (tokensList arguments) ++ [.closeParen])
  | aggregate op grouping parameter e =>
      .keyword (.aggregator op) op.name :: groupingTokens grouping ++
        (.openParen :: [Token.comma].intercalate (tokensOption parameter ++ [e.tokens]) ++
          [.closeParen])
  | binary op matching left right =>
      left.tokens ++ (Lexer.operatorToken op :: matching.tokens) ++ right.tokens
  | negated e => .operator .sub :: e.tokens
  | paren e => .openParen :: e.tokens ++ [.closeParen]
  | number x => numberTokens x
  | string text => [.string '"' text]

def tokensList : List Expr → List (List Token)
  | [] => []
  | e :: rest => e.tokens :: tokensList rest

def tokensOption : Option Expr → List (List Token)
  | none => []
  | some e => [e.tokens]

end

theorem charsList_eq_map (es : List Expr) : charsList epochs es = es.map (chars epochs) := by
  induction es with
  | nil => rfl
  | cons e rest ih => rw [charsList, ih, List.map_cons]

theorem charsOption_eq_map (e? : Option Expr) :
    charsOption epochs e? = e?.toList.map (chars epochs) := by
  cases e? <;> rfl

theorem tokensList_eq_map (es : List Expr) :
    tokensList epochs es = es.map (tokens epochs) := by
  induction es with
  | nil => rfl
  | cons e rest ih => rw [tokensList, ih, List.map_cons]

theorem tokensOption_eq_map (e? : Option Expr) :
    tokensOption epochs e? = e?.toList.map (tokens epochs) := by
  cases e? <;> rfl

end Expr

end

end MetricScope.PromQL
