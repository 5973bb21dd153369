import MetricScope.Listing
import MetricScope.Text.Replace

/-!
# Template variables

Dashboards write variables where a query needs a duration, a number or a name. Each
variable has a stand-in that is legal in its place and unlikely in a real query:
queries are encoded before they are read and decoded after they are written.
-/

set_option autoImplicit false

namespace MetricScope

inductive TemplateVariable where
  | rateInterval
  | intervalMs
  | dashboard
  | rangeMs
  | interval
  | rangeS
  | project
  | range
  | rangeFrom
  | rangeTo
  deriving DecidableEq, Repr

namespace TemplateVariable

inductive Kind where
  /-- Stands for a duration of so many seconds. -/
  | duration (seconds : Nat)
  | number
  /-- A number that is written with three more digits after an at sign. -/
  | timestamp
  /-- Stands where a name or a part of a string may stand. -/
  | name
  deriving DecidableEq, Repr

def Kind.text : Kind → String
  | duration _ => "duration"
  | number => "number"
  | timestamp => "timestamp"
  | name => "name"

def token : TemplateVariable → String
  | rateInterval => "$__rate_interval"
  | intervalMs => "$__interval_ms"
  | dashboard => "$__dashboard"
  | rangeMs => "$__range_ms"
  | interval => "$__interval"
  | rangeS => "$__range_s"
  | project => "$__project"
  | range => "$__range"
  | rangeFrom => "$__from"
  | rangeTo => "$__to"

/-- Durations are in the form in which they are written, numbers have a fraction that
whole thresholds do not have. -/
def standIn : TemplateVariable → String
  | rateInterval => "2d20h8m7s"
  | intervalMs => "7357861.0937"
  | dashboard => "__placeholder_dashboard__"
  | rangeMs => "9579083.1846"
  | interval => "3d21h9m8s"
  | rangeS => "8468972.2755"
  | project => "__placeholder_project__"
  | range => "4d22h10m9s"
  | rangeFrom => "1357924680135"
  | rangeTo => "1468035791246"

def kind : TemplateVariable → Kind
  | rateInterval => .duration 245287
  | interval => .duration 335348
  | range => .duration 425409
  | intervalMs | rangeMs | rangeS => .number
  | rangeFrom | rangeTo => .timestamp
  | dashboard | project => .name

/-- All variables, the longest token first: some tokens start with others, and the
longer one must be seen first. -/
def all : List TemplateVariable :=
  [rateInterval, intervalMs, dashboard, rangeMs, interval, rangeS, project, range,
    rangeFrom, rangeTo]

theorem mem_all (v : TemplateVariable) : v ∈ all := by
  cases v <;> decide

def ofToken? (token : String) : Option TemplateVariable :=
  all.find? fun v => v.token == token

structure Encoding where
  text : List Char
  vars : List TemplateVariable
  deriving DecidableEq, Repr

def encodeEach : List TemplateVariable → List Char → Encoding
  | [], text => ⟨text, []⟩
  | v :: rest, text =>
      if Text.occursIn v.token.toList text then
        let e := encodeEach rest (Text.replaceAll v.token.toList v.standIn.toList text)
        { e with vars := v :: e.vars }
      else encodeEach rest text

def encodeChars (query : List Char) : Encoding :=
  encodeEach all query

/-- Puts the token of `v` for its stand-in, in both forms that a timestamp has. -/
def decodeStep (text : List Char) (v : TemplateVariable) : List Char :=
  let text :=
    if v.kind = .timestamp then
      Text.replaceAll (v.standIn ++ ".000").toList v.token.toList text
    else text
  Text.replaceAll v.standIn.toList v.token.toList text

def decodingOrder (vars : List TemplateVariable) : List TemplateVariable :=
  sortBy (fun a b => decide (b.standIn.length ≤ a.standIn.length)) vars

def decodeChars (vars : List TemplateVariable) (text : List Char) : List Char :=
  (decodingOrder vars).foldl decodeStep text

def encode (query : String) : String × List TemplateVariable :=
  let e := encodeChars query.toList
  (String.ofList e.text, e.vars)

def decode (vars : List TemplateVariable) (text : String) : String :=
  String.ofList (decodeChars vars text.toList)

def decodeAll (text : String) : String :=
  decode all text

end TemplateVariable

end MetricScope
