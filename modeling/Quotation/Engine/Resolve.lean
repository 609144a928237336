import Quotation.Engine.Host
import Quotation.Tree.Printer
import Quotation.Tree.OfValue

namespace Quotation

variable (eng : Engine) (ev : Evaluator)

def Tree.spliced? : Tree → Option Tree
  | .splice e => some e
  | _ => none

def resolveUnquote (e : Tree) (env : FrameId) (mask : Option Mask) : Eval Tree := do
  let v ← ev e env mask
  let t ← Eval.ofExcept (Tree.ofValue v)
  Eval.trace eng.trace ("!!" ++ e.text ++ " => " ++ t.text)
  return t

def resolveSplice (e : Tree) (env : FrameId) (mask : Option Mask) : Eval (List Slot) := do
  let v ← ev e env mask
  let slots ← Eval.ofExcept (Slot.ofSequence v)
  Eval.trace eng.trace ("!!!" ++ e.text ++ " => " ++ toString slots.length ++ " argument(s)")
  return slots

def resolveName (n : Tree) (env : FrameId) (mask : Option Mask) : Eval String := do
  let v ← ev n env mask
  Eval.ofExcept v.toName

mutual

def resolveTree (env : FrameId) (mask : Option Mask) : Tree → Eval Tree
  | .literal v => return .literal v
  | .reference name => return .reference name
  | .call head args =>
    if head.hasMarkers || Slot.anyMarkers args then
      Eval.nested eng.maxDepth do
        let head ← resolveTree env mask head
        let args ← resolveSlots env mask args
        return .call head args
    else return .call head args
  | .pairlist args =>
    if Slot.anyMarkers args then
      Eval.nested eng.maxDepth do
        let args ← resolveSlots env mask args
        return .pairlist args
    else return .pairlist args
  | .unquote e => resolveUnquote eng ev e env mask
  | .splice _ => Eval.fail .invalidSpliceContext
  | .define _ _ => Eval.fail .invalidDefineContext
termination_by structural t => t

/-- The slots that a slot becomes. The name of a spliced slot is dropped. -/
def resolveSlot (env : FrameId) (mask : Option Mask) : Slot → Eval (List Slot)
  | ⟨_, .splice e⟩ => resolveSplice eng ev e env mask
  | ⟨_, .define n (.splice e)⟩ => do
    let name ← resolveName ev n env mask
    let slots ← resolveSplice eng ev e env mask
    return slots.map (·.nameOr name)
  | ⟨_, .define n v⟩ => do
    let name ← resolveName ev n env mask
    let t ← resolveTree env mask v
    return [⟨some name, t⟩]
  | ⟨name, t⟩ => do
    let t ← resolveTree env mask t
    return [⟨name, t⟩]
termination_by structural slot => slot

def resolveSlots (env : FrameId) (mask : Option Mask) : List Slot → Eval (List Slot)
  | [] => return []
  | slot :: rest => do
    let here ← resolveSlot env mask slot
    let there ← resolveSlots env mask rest
    return here ++ there
termination_by structural l => l

end

def resolve (t : Tree) (env : FrameId) (mask : Option Mask) : Eval Tree := do
  Eval.debug ("resolve " ++ t.text)
  resolveTree eng ev env mask t

end Quotation
