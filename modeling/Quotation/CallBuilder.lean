import Quotation.Tree.OfValue

/-! Calls built from values. Each argument becomes a marker around a literal, so that building a
call is substitution in the tree that is given here. -/

namespace Quotation

inductive CallHead
  | name (s : String)
  | tree (t : Tree)

namespace CallHead

def ofValue (v : Value) : Except Error CallHead :=
  match v with
  | .str s => .ok (.name s)
  | .tree t => .ok (.tree t)
  | .capture c => .ok (.tree c.tree)
  | v => if v.isCallable then .ok (.tree (.literal v)) else .error (.notCallable v.typeName)

def toTree : CallHead → Tree
  | .name s => .reference s
  | .tree t => t

end CallHead

inductive CallArg
  | positional (v : Value)
  | labelled (name : String) (v : Value)
  | splice (v : Value)
  | define (name v : Value)

namespace CallArg

def ofItem (i : Item) : CallArg :=
  match i.name with
  | some name => .labelled name i.val
  | none => .positional i.val

def toSlot : CallArg → Slot
  | .positional v => .positional (.unquote (.literal v))
  | .labelled name v => .labelled name (.unquote (.literal v))
  | .splice v => .positional (.splice (.literal v))
  | .define name v => .positional (.define (.literal name) (.unquote (.literal v)))

end CallArg

def CallHead.template (head : CallHead) (args : List CallArg) : Tree :=
  .call head.toTree (args.map CallArg.toSlot)

end Quotation
