import MetricScope.PromQL.Error

/-!
# Why a rendering fails

Each constructor is one cause; `message` words it.
-/

set_option autoImplicit false

namespace MetricScope

inductive ConfigFault where
  | emptyClusterLabel
  | quotedFilterValue (filter : String)
  deriving DecidableEq, Repr

def ConfigFault.message : ConfigFault → String
  | emptyClusterLabel => "cluster_label must not be empty"
  | quotedFilterValue filter =>
      String.join ["extra filter ", Text.quoted filter,
        " has a value containing a double quote"]

inductive FileFault where
  | isDirectory
  | notUtf8
  deriving DecidableEq, Repr

def FileFault.message : FileFault → String
  | isDirectory => "Is a directory (os error 21)"
  | notUtf8 => "stream did not contain valid UTF-8"

inductive Error where
  | parse (query : String) (cause : PromQL.ParseError)
  | unknownQuery (name : String)
  | config (fault : ConfigFault)
  | file (fault : FileFault)
  | toml
  | json
  deriving DecidableEq, Repr

def Error.message : Error → String
  | parse query cause =>
      String.join ["failed to parse PromQL query \x60", query, "\x60: ", cause.message]
  | unknownQuery name => String.join ["unknown named query: ", name]
  | config fault => String.join ["invalid configuration: ", fault.message]
  | file fault => fault.message
  | toml => "TOML parse error"
  | json => "JSON parse error"

end MetricScope
