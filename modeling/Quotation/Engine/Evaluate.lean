import Quotation.Engine.Capture
import Quotation.Engine.Closure
import Quotation.Prelude.Builtins
import Quotation.Prelude.Specials

/-! Evaluation. A call looks up its head, and then hands its arguments over as the callable wants
them: evaluated to a built-in function, as they were written to a special, and as promises to a
closure. A call of a built-in function that carries a marker fails before any of its arguments is
evaluated.

The one recursion of the evaluator is bounded by fuel: each tree that is evaluated inside another
has one unit less. Running out of fuel is told apart from every error. -/

namespace Quotation

section

variable (eng : Engine) (ev : Evaluator)

def answer : (d : Demand) → Eval d.Answer
  | .evaluate t env mask => ev t env mask
  | .force p => force ev p
  | .arguments args env mask => evalDynamicSlots eng ev env mask args
  | .resolve t env mask => resolve eng ev t env mask
  | .capture env name => captureParameter env name
  | .captureDots env => captureDots env
  | .perform name args => Eval.onWorld (eng.host.builtin name args)

def runRoutine {α : Type} : Routine α → Eval α
  | .done a => return a
  | .fail e => Eval.fail e
  | .ask d next => do
    let r ← (answer eng ev d).attempt
    runRoutine (next r)
  | .inspect next => do
    let h ← Eval.heap
    runRoutine (next h)
  | .newFrame parent isCall next => do
    let f ← Eval.onHeap (·.newFrame parent isCall)
    runRoutine (next f)
  | .newPromise expr env mask next => do
    let p ← Eval.onHeap (·.newPromise { expr, env, mask })
    runRoutine (next p)
  | .rebind env name b next => do
    Eval.modifyHeap (·.rebind env name b)
    runRoutine next
  | .identity next => do
    let i ← Eval.freshIdentity
    runRoutine (next i)
  | .depth next => do
    let n ← Eval.depth
    runRoutine (next n)

def runSpecial (s : Special) (call : SpecialCall) : Eval Value :=
  runRoutine eng ev (s.op.routine eng.host.special call)

def runBuiltin (b : Builtin) (args : List Item) : Eval Value :=
  Eval.onWorld (b.op.run eng.host.builtin args)

def apply (func : Value) (args : List Slot) (env : FrameId) (mask : Option Mask) : Eval Value := do
  match func with
  | .builtin b =>
    let items ← evalSlots ev env mask args
    runBuiltin eng b items
  | .special s => runSpecial eng ev s ⟨args, env, mask⟩
  | .closure c => applyClosure eng ev c args env mask
  | v => Eval.fail (.notCallable v.typeName)

def rejectExposed (t : Tree) (env : FrameId) (mask : Option Mask) : Eval Unit := do
  match (← Eval.heap).exposed? env mask t with
  | some m => Eval.fail (.unresolvedMarker m.kind)
  | none => return ()

/-- The callable at the head of a call. If there is none, a marker in the call is what is
reported. -/
def callHead (head : Tree) (args : List Slot) (env : FrameId) (mask : Option Mask) :
    Eval Value := do
  try resolveHead ev head env mask
  catch
    | .outOfFuel => throw .outOfFuel
    | .failed e =>
      rejectExposed (.call head args) env mask
      Eval.fail e

def rejectMarkers (func : Value) (t : Tree) (env : FrameId) (mask : Option Mask) : Eval Unit :=
  match func with
  | .builtin _ => rejectExposed t env mask
  | _ => return ()

def evaluateCall (head : Tree) (args : List Slot) (env : FrameId) (mask : Option Mask) :
    Eval Value := do
  let depth ← Eval.depth
  Eval.trace eng.trace ("eval " ++ (Tree.call head args).text ++ " at depth " ++ toString depth)
  let func ← callHead ev head args env mask
  rejectMarkers func (.call head args) env mask
  apply eng ev func args env mask

def evaluateStep (t : Tree) (env : FrameId) (mask : Option Mask) : Eval Value := do
  match t with
  | .literal v => return v
  | .reference name => lookupVariable ev name env mask
  | .call head args => Eval.nested eng.maxDepth (evaluateCall eng ev head args env mask)
  | .pairlist args =>
    let items ← evalSlots ev env mask args
    return .list items
  | .unquote _ => Eval.fail (.unresolvedMarker .unquote)
  | .splice _ => Eval.fail (.unresolvedMarker .splice)
  | .define _ _ => Eval.fail (.unresolvedMarker .define)

end

/-- The value of a tree in a frame; the mask, if there is one, is consulted before the frame. -/
def evaluate (eng : Engine) : Nat → Evaluator
  | 0, _, _, _ => throw .outOfFuel
  | fuel + 1, t, env, mask => evaluateStep eng (evaluate eng fuel) t env mask

end Quotation
