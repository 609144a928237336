import Quotation.Engine.Host
import Quotation.Tree.Printer

namespace Quotation.Session

def firstText (args : List Item) : String := (args.head?.map fun i => i.val.text).getD ""

namespace HostBuiltin

def tick (w : World) : Except Error Value × World :=
  (.ok (.int (Int64.ofNat (w.ticks + 1))), { w with ticks := w.ticks + 1 })

def note (args : List Item) (w : World) : Except Error Value × World :=
  (.ok ((args.getLast?.map Named.val).getD .null),
    { w with events := w.events ++ [args.map (Named.map Value.inspect)] })

def makeExternal (args : List Item) (w : World) : Except Error Value × World :=
  let (id, w) := w.freshIdentity
  (.ok (.external ⟨firstText args, none, id⟩), w)

def run (name : String) (args : List Item) (w : World) : Except Error Value × World :=
  match name with
  | "tick" => tick w
  | "note" => note args w
  | "fail" => (.error (.host (firstText args)), w)
  | "reenter" => (.error (.undefinedVariable (firstText args)), w)
  | "external" => makeExternal args w
  | _ => (.ok .null, w)

def names : List String := ["tick", "note", "fail", "reenter", "external"]

end HostBuiltin

namespace HostSpecial

def cond (call : SpecialCall) : Routine Value :=
  match call.args with
  | [test, yes, no] => do
    let v ← Routine.evaluate test.val call.env call.mask
    let chosen := if v.asBool? == some true then yes else no
    .evaluate chosen.val call.env call.mask
  | _ => .fail (.missingArgument "cond")

def formal (slot : Slot) : Except Error (Formal Tree) :=
  match slot.name, slot.val with
  | some name, t => .ok ⟨name, some t⟩
  | none, .reference name => .ok ⟨name, none⟩
  | none, t => .error (.notASymbol t.text)

def lambda (call : SpecialCall) : Routine Value :=
  match call.args.getLast? with
  | none => .fail (.missingArgument "body")
  | some body => do
    let formals ← .ofExcept (call.args.dropLast.mapM formal)
    let id ← Routine.identity .done
    return .closure ⟨none, formals, body.val, call.env, id⟩

def assign (call : SpecialCall) : Routine Value :=
  match call.args with
  | [⟨_, .reference name⟩, value] => do
    let v ← Routine.evaluate value.val call.env call.mask
    Routine.define call.env name v
    return v
  | [target, _] => .fail (.notASymbol target.val.text)
  | _ => .fail (.missingArgument "assign")

def callers (call : SpecialCall) : Routine Value := do
  let captures ← Routine.captureDots call.env
  return .tree (.pairlist (captures.map (Named.map Capture.tree)))

def depth : Routine Value := .depth fun n => .done (.int (Int64.ofNat n))

def raw (call : SpecialCall) : Routine Value := do
  let slot ← .ofExcept (call.single "e")
  return .tree slot.val

def pairs (call : SpecialCall) : Routine Value := .done (.tree (.pairlist call.args))

def masked (call : SpecialCall) : Routine Value :=
  match call.mask with
  | some m => .done (.ofList (m.names.map .str))
  | none => .done .null

def here (call : SpecialCall) : Routine Value := .done (.capture ⟨.literal .null, call.env⟩)

def run (name : String) (call : SpecialCall) : Routine Value :=
  match name with
  | "cond" => cond call
  | "lambda" => lambda call
  | "assign" => assign call
  | "callers" => callers call
  | "depth" => depth
  | "raw" => raw call
  | "pairs" => pairs call
  | "masked" => masked call
  | "here" => here call
  | _ => .done .null

end HostSpecial

def host : Host := ⟨HostBuiltin.run, HostSpecial.run⟩

def hostCallable (name : String) (id : Identity) : Value :=
  if HostBuiltin.names.contains name then .builtin ⟨.host name, id⟩
  else .special ⟨.host name, id⟩

end Quotation.Session
