import Scratchpad.Decimal.Layout
import Scratchpad.Store.Equality
import Scratchpad.Text.Quoted

/-! The texts of values. A list or dict inside itself, and whatever is nested too deeply, is
written as dots. -/
namespace Scratchpad.Store

def intText (n : Int64) : String := toString n.toInt

def rangeText (r : Range) : String :=
  let ends := "range(" ++ intText r.start ++ ", " ++ intText r.stop
  if r.step = 1 then ends ++ ")" else ends ++ ", " ++ intText r.step ++ ")"

def textLiteral (t : String) : String := .ofList (Text.literal t.toList)

def commas (parts : List String) : String := ", ".intercalate parts

/-- `around` holds the containers that the value stands in. -/
def reprAt (s : Store) : Nat → List Value → Value → String
  | _, _, .none => "None"
  | _, _, .bool b => if b then "True" else "False"
  | _, _, .int n => intText n
  | _, _, .float d => Decimal.floatText d
  | _, _, .text t => textLiteral t
  | _, _, .range r => rangeText r
  | _, _, .builtin b => "<built-in function " ++ b.name ++ ">"
  | _, _, .function ref =>
    "<function " ++ ((s.functions[ref]?.map (·.name)).getD "") ++ ">"
  | _, _, .method ref =>
    match s.methods[ref]? with
    | some m =>
      "<built-in method " ++ m.method.name ++ " of " ++ m.receiver.typeName ++ " object>"
    | none => ""
  | 0, _, .list _ | 0, _, .tuple _ | 0, _, .dict _ => "..."
  | room + 1, around, v@(.list ref) =>
    if v ∈ around then "[...]"
    else "[" ++ commas ((s.list ref).toList.map (s.reprAt room (v :: around))) ++ "]"
  | room + 1, around, v@(.tuple ref) =>
    let items := (s.tuple ref).toList.map (s.reprAt room (v :: around))
    "(" ++ commas items ++ if items.length = 1 then ",)" else ")"
  | room + 1, around, v@(.dict ref) =>
    if v ∈ around then "\x7b...\x7d"
    else
      let entry (e : Entry) := s.reprAt room (v :: around) e.key ++ ": " ++
        s.reprAt room (v :: around) e.value
      "\x7b" ++ commas ((s.dict ref).entries.map entry) ++ "\x7d"

def repr (s : Store) (v : Value) : String := s.reprAt maxDepth [] v

/-- A text is shown bare, any other value by its `repr`. -/
def display (s : Store) : Value → String
  | .text t => t
  | v => s.repr v

end Scratchpad.Store
