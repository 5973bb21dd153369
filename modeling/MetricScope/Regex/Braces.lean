/-!
# Braces that are no repetition

Label values often hold braces that only look like a counted repetition. Those are
made literal; a brace that starts a repetition is left alone.
-/

set_option autoImplicit false

namespace MetricScope.Regex

inductive BraceState where
  | text
  | escaped
  | inside (read : List Char) (comma : Bool)
  deriving DecidableEq, Repr

/-- Copies the text and escapes the braces that start no repetition. A repetition is
digits with at most one comma, which is not first, and a closing brace. -/
def escapeBracesFrom : BraceState → List Char → List Char
  | .text, [] => []
  | .escaped, [] => []
  | .inside read _, [] => '\\' :: '\x7b' :: read.reverse
  | .text, c :: rest =>
      if c == '\\' then escapeBracesFrom .escaped rest
      else if c == '\x7b' then escapeBracesFrom (.inside [] false) rest
      else c :: escapeBracesFrom .text rest
  | .escaped, c :: rest => '\\' :: c :: escapeBracesFrom .text rest
  | .inside read comma, c :: rest =>
      if c.isDigit then escapeBracesFrom (.inside (c :: read) comma) rest
      else if c == ',' && !read.isEmpty && !comma then
        escapeBracesFrom (.inside (c :: read) true) rest
      else if c == '\x7d' && !read.isEmpty then
        '\x7b' :: (read.reverse ++ '\x7d' :: escapeBracesFrom .text rest)
      else '\\' :: '\x7b' :: (read.reverse ++ c :: escapeBracesFrom .text rest)

def escapeBraces (text : String) : String :=
  String.ofList (escapeBracesFrom .text text.toList)

end MetricScope.Regex
