import Quotation.Engine.Force
import Quotation.Engine.Resolve

namespace Quotation

variable (eng : Engine) (ev : Evaluator)

def visibleDots (env : FrameId) : Eval (List (Named PromiseId)) := do
  match (← Eval.heap).dots? env with
  | some args => return args
  | none => Eval.fail .dotsOutsideFunction

def forceAll : List (Named PromiseId) → Eval (List Item)
  | [] => return []
  | ⟨name, p⟩ :: rest => do
    let v ← force ev p
    let vs ← forceAll rest
    return ⟨name, v⟩ :: vs

def evalSlot (env : FrameId) (mask : Option Mask) (slot : Slot) : Eval (List Item) := do
  if slot.val.isDots then
    let args ← visibleDots env
    forceAll ev args
  else
    let v ← ev slot.val env mask
    return [⟨slot.name, v⟩]

def evalSlots (env : FrameId) (mask : Option Mask) : List Slot → Eval (List Item)
  | [] => return []
  | slot :: rest => do
    let here ← evalSlot ev env mask slot
    let there ← evalSlots env mask rest
    return here ++ there

/-- The elements a value stands for when it is spliced into evaluated arguments. A literal in a
pairlist gives back its value. -/
def Item.ofSequence (v : Value) : Except Error (List Item) :=
  match v with
  | .null => .ok []
  | .list items => .ok items
  | .tree (.pairlist args) => .ok (args.map fun s => s.map fun
    | .literal v => v
    | t => .tree t)
  | v => .error (.notASequence v.typeName)

def spliceItems (e : Tree) (env : FrameId) (mask : Option Mask) : Eval (List Item) := do
  let v ← ev e env mask
  Eval.ofExcept (Item.ofSequence v)

/-- The value of a computed argument: that of the operand of an unquotation as it is, and that of
any other tree after substitution. -/
def evalInjected (env : FrameId) (mask : Option Mask) (t : Tree) : Eval Value := do
  match t with
  | .unquote e => ev e env mask
  | _ =>
    if t.hasMarkers then
      let t ← resolve eng ev t env mask
      ev t env mask
    else ev t env mask

def evalDynamicSlot (env : FrameId) (mask : Option Mask) (slot : Slot) : Eval (List Item) := do
  match slot.val with
  | .splice e => spliceItems ev e env mask
  | .define n v =>
    let name ← resolveName ev n env mask
    match v.spliced? with
    | some e =>
      let items ← spliceItems ev e env mask
      return items.map (·.nameOr name)
    | none =>
      let v ← evalInjected eng ev env mask v
      return [⟨some name, v⟩]
  | t =>
    if t.isDots then evalSlot ev env mask slot
    else
      let v ← evalInjected eng ev env mask t
      return [⟨slot.name, v⟩]

def evalDynamicSlots (env : FrameId) (mask : Option Mask) : List Slot → Eval (List Item)
  | [] => return []
  | slot :: rest => do
    let here ← evalDynamicSlot eng ev env mask slot
    let there ← evalDynamicSlots env mask rest
    return here ++ there

end Quotation
