import MetricScope.Unicode.Property

/-!
# Blank and quoted text

Names and characters in messages stand between quotes. The closing quote, the
backslash and characters without a shape of their own are escaped, so the text
can be read back from what is shown.
-/

set_option autoImplicit false

namespace MetricScope.Text

def isBlank (text : String) : Bool :=
  text.toList.all Unicode.isWhiteSpace

def hexDigits (n : Nat) : List Char :=
  Nat.toDigits 16 n

def showChar (quote : Char) (c : Char) : List Char :=
  match c with
  | '\\' => ['\\', '\\']
  | '\t' => ['\\', 't']
  | '\r' => ['\\', 'r']
  | '\n' => ['\\', 'n']
  | '\x00' => ['\\', '0']
  | c =>
    if c = quote then ['\\', c]
    else if Unicode.isPrintable c && !Unicode.extendsGrapheme c then [c]
    else ['\\', 'u', '\x7b'] ++ hexDigits c.toNat ++ ['\x7d']

def quotedChar (c : Char) : String :=
  String.ofList ('\'' :: (showChar '\'' c ++ ['\'']))

def quoted (text : String) : String :=
  String.ofList ('"' :: (text.toList.flatMap (showChar '"') ++ ['"']))

end MetricScope.Text
