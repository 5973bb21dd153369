import MetricScope.Error
import MetricScope.LabelFilter
import MetricScope.PromQL.Parser
import MetricScope.PromQL.Printer
import MetricScope.TemplateVariable

/-!
# Dashboard queries

A query is an expression and the template variables that its text is decoded with:
those that were in the text it was read from, or all of them if it was built.
-/

set_option autoImplicit false

namespace MetricScope

open PromQL

structure Query where
  expr : Expr
  vars : List TemplateVariable

namespace Query

def parse (text : String) : Except (Halt Error) Query :=
  let (encoded, vars) := TemplateVariable.encode text
  match Expr.parse encoded with
  | .ok expr => .ok ⟨expr, vars⟩
  | .error halt => .error (halt.map (.parse text))

def ofExpr (expr : Expr) : Query := ⟨expr, TemplateVariable.all⟩

def merge (q : Query) (f : LabelFilter) : Query :=
  { q with expr := q.expr.merge f }

def mergeAll (q : Query) (filters : List LabelFilter) : Query :=
  { q with expr := q.expr.mergeAll filters }

def text (q : Query) : String :=
  TemplateVariable.decode q.vars q.expr.text

end Query

def narrow (query : String) (filters : List LabelFilter) :
    Except (Halt Error) String :=
  match Query.parse query with
  | .ok q => .ok (q.mergeAll filters).text
  | .error halt => .error halt

def narrowWith (query name : String) (matchType : MatchType) (value : String) :
    Except (Halt Error) String :=
  narrow query [⟨name, matchType, value⟩]

def narrowExpr (expr : Expr) (filters : List LabelFilter) : Expr :=
  ((Query.ofExpr expr).mergeAll filters).expr

def renderExpr (expr : Expr) : String :=
  TemplateVariable.decodeAll expr.text

theorem narrowExpr_eq (expr : Expr) (filters : List LabelFilter) :
    narrowExpr expr filters = expr.mergeAll filters := rfl

theorem text_ofExpr (expr : Expr) : (Query.ofExpr expr).text = renderExpr expr := rfl

end MetricScope
