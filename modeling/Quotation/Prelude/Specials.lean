import Quotation.CallBuilder
import Quotation.Engine.Routine
import Quotation.Tree.Printer

namespace Quotation.Special

def quote (call : SpecialCall) : Routine Value := do
  let slot ← .ofExcept (call.single "expr")
  let t ← Routine.resolve slot.val call.env call.mask
  return .tree t

def quo (call : SpecialCall) : Routine Value := do
  let slot ← .ofExcept (call.single "expr")
  let t ← Routine.resolve slot.val call.env call.mask
  return .capture ⟨t, call.env⟩

def capturedParameter (call : SpecialCall) : Routine (Capture Tree) := do
  let slot ← .ofExcept (call.single "arg")
  match slot.val.asReference? with
  | none => .fail (.noCapturableArgument slot.val.text "expected the name of a parameter")
  | some name =>
    let c ← Routine.capture call.env name
    let t ← Routine.resolve c.tree c.env none
    return ⟨t, c.env⟩

def enexpr (call : SpecialCall) : Routine Value := do
  let c ← capturedParameter call
  return .tree c.tree

def enquo (call : SpecialCall) : Routine Value := do
  let c ← capturedParameter call
  return .capture c

def ensym (call : SpecialCall) : Routine Value := do
  let c ← capturedParameter call
  if c.tree.isReference then return .tree c.tree else .fail (.notASymbol c.tree.text)

/-- Substitutes in each captured argument as in a slot, where a splice gives any number of slots. -/
def resolveCaptures : List (Named (Capture Tree)) → Routine (List (Named (Capture Tree)))
  | [] => return []
  | ⟨name, c⟩ :: rest => do
    let t ← Routine.resolve (.pairlist [⟨name, c.tree⟩]) c.env none
    let more ← resolveCaptures rest
    return (t.slots?.getD []).map (Named.map fun t => ⟨t, c.env⟩) ++ more

def capturedDots (call : SpecialCall) : Routine (List (Named (Capture Tree))) := do
  match call.args.find? fun slot => !slot.val.isDots with
  | some extra => .fail (.unusedArgument extra.name)
  | none =>
    let captures ← Routine.captureDots call.env
    resolveCaptures captures

def enexprs (call : SpecialCall) : Routine Value := do
  let captures ← capturedDots call
  return .list (captures.map (Named.map fun c => .tree c.tree))

def enquos (call : SpecialCall) : Routine Value := do
  let captures ← capturedDots call
  return .list (captures.map (Named.map .capture))

def dataMask : Value → Except Error (Option Mask)
  | .null => .ok none
  | v => (Mask.ofValue v).map some

def tidyArguments (call : SpecialCall) : Except Error (Slot × Option Slot) :=
  match call.args with
  | [] => .error (.missingArgument "expr")
  | [expr] => .ok (expr, none)
  | [expr, data] => .ok (expr, some data)
  | _ :: _ :: extra :: _ => .error (.unusedArgument extra.name)

def tidyMask (call : SpecialCall) : Option Slot → Routine (Option Mask)
  | none => return none
  | some slot => do
    let v ← Routine.evaluate slot.val call.env call.mask
    .ofExcept (dataMask v)

def evalTidy (call : SpecialCall) : Routine Value := do
  let (expr, data) ← .ofExcept (tidyArguments call)
  let mask ← tidyMask call data
  let v ← Routine.evaluate expr.val call.env call.mask
  match v with
  | .tree t => .evaluate t call.env mask
  | .capture c => .evaluate c.tree c.env mask
  | v => return v

def call2 (call : SpecialCall) : Routine Value := do
  let items ← Routine.arguments call.args call.env call.mask
  match items with
  | [] => .fail (.missingArgument "head")
  | first :: rest =>
    let head ← .ofExcept (CallHead.ofValue first.val)
    let t ← Routine.resolve (head.template (rest.map CallArg.ofItem)) call.env none
    return .tree t

def list2 (call : SpecialCall) : Routine Value := do
  let items ← Routine.arguments call.args call.env call.mask
  return .list items

def Op.routine (host : String → SpecialCall → Routine Value) :
    Op → SpecialCall → Routine Value
  | .quote => Special.quote
  | .expr => Special.quote
  | .quo => Special.quo
  | .enexpr => Special.enexpr
  | .enquo => Special.enquo
  | .ensym => Special.ensym
  | .enexprs => Special.enexprs
  | .enquos => Special.enquos
  | .evalTidy => Special.evalTidy
  | .call2 => Special.call2
  | .list2 => Special.list2
  | .host name => host name

end Quotation.Special
