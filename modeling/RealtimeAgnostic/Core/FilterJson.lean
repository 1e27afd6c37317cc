import RealtimeAgnostic.Core.Filter

/-! # Filters from JSON

`FilterExpr::from_json`: an object of objects, one clause for each operator, all
clauses joined by `And` from the left. The fields of an object are in the order
the map iterates them.
-/

namespace RealtimeAgnostic

/-- `json_to_filter_value`: what has no filter value becomes null. -/
def jsonToFilterValue : Json → FilterValue
  | .string s => .string s
  | .number n =>
    match n.asI64, n.asF64 with
    | some i, _ => .integer i
    | none, some x => .float x
    | none, none => .null
  | .bool b => .bool b
  | .null | .array _ | .object _ => .null

def parseOperator (field : FieldPath) (op : String) (val : Json) : Option FilterExpr :=
  if op = "eq" then some (.eq field (jsonToFilterValue val))
  else if op = "ne" then some (.ne field (jsonToFilterValue val))
  else if op = "in" then
    match val with
    | .array items => some (.isIn field (items.map jsonToFilterValue))
    | _ => none
  else none

def combineExprs : List FilterExpr → Option FilterExpr
  | [] => none
  | e :: rest => some (rest.foldl .and e)

def parseConditions (field : String) : Json → Option (List FilterExpr)
  | .object conditions => conditions.mapM fun c => parseOperator ⟨field⟩ c.1 c.2
  | _ => none

def FilterExpr.fromJson : Json → Option FilterExpr
  | .object fields =>
    (fields.mapM fun f => parseConditions f.1 f.2).bind fun clauses => combineExprs clauses.flatten
  | _ => none

/-- `null` and `{}` supply no filter. -/
def Json.Trivial : Json → Prop
  | .null | .object [] => True
  | _ => False

instance : DecidablePred Json.Trivial
  | .null | .object [] => .isTrue trivial
  | .bool _ | .number _ | .string _ | .array _ | .object (_ :: _) => .isFalse id

end RealtimeAgnostic
