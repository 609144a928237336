import Quotation.Tree.Printer

namespace Quotation

def outlineRecord (name : String) (fields : List (String × String)) : String :=
  name ++ " \x7b " ++ commaSeparated (fields.map fun f => f.1 ++ ": " ++ f.2) ++ " \x7d"

def outlineList (l : List String) : String := "[" ++ commaSeparated l ++ "]"

def outlineOption : Option String → String
  | some s => "Some" ++ parenthesized s
  | none => "None"

def outlineName (name : Option String) : String := outlineOption (name.map Text.quoted)

mutual

def Tree.outline : Tree → String
  | .literal v => "Literal" ++ parenthesized v.inspect
  | .reference name => "Reference" ++ parenthesized (Text.quoted name)
  | .call head args =>
    "Call" ++ parenthesized
      (outlineRecord "CallNode"
        [("head", head.outline), ("args", outlineList (Slot.outlineAll args))])
  | .pairlist args => "Pairlist" ++ parenthesized (outlineList (Slot.outlineAll args))
  | .unquote e => "Marker" ++ parenthesized ("Unquote" ++ parenthesized e.outline)
  | .splice e => "Marker" ++ parenthesized ("Splice" ++ parenthesized e.outline)
  | .define n v =>
    "Marker" ++ parenthesized (outlineRecord "Define" [("name", n.outline), ("value", v.outline)])
termination_by structural t => t

def Slot.outlineAll : List Slot → List String
  | [] => []
  | ⟨name, t⟩ :: rest =>
    outlineRecord "Arg" [("name", outlineName name), ("node", t.outline)] :: Slot.outlineAll rest
termination_by structural l => l

end

def Formal.outline (f : Formal Tree) : String :=
  outlineRecord "Formal"
    [("name", Text.quoted f.name), ("default", outlineOption (f.default?.map Tree.outline))]

def outlineFrame (names : List String) (isCall enclosed : Bool) : String :=
  outlineRecord "Environment"
    [("names", outlineList (names.map Text.quoted)), ("call_frame", boolText isCall),
      ("has_parent", boolText enclosed)]

def Closure.outline (c : Closure Tree) (frame : String) : String :=
  outlineRecord "Closure"
    [("name", outlineName c.name), ("formals", outlineList (c.formals.map Formal.outline)),
      ("body", c.body.outline), ("env", frame)]

def Builtin.outline (b : Builtin) : String := "BuiltinFn" ++ parenthesized b.name

def Special.outline (s : Special) : String := "SpecialFn" ++ parenthesized s.name

end Quotation
