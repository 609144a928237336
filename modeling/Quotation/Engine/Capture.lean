import Quotation.Engine.State

namespace Quotation

def capturePromise (p : PromiseId) : Eval (Capture Tree) :=
  Eval.onHeap fun h =>
    (⟨(h.promise p).expr, (h.promise p).env⟩, h.markCaptured p)

def captureAll : List (Named PromiseId) → Eval (List (Named (Capture Tree)))
  | [] => return []
  | ⟨name, p⟩ :: rest => do
    let c ← capturePromise p
    let cs ← captureAll rest
    return ⟨name, c⟩ :: cs

def captureParameter (env : FrameId) (name : String) : Eval (Capture Tree) := do
  Eval.debug ("deferred capture of `" ++ name ++ "`")
  let h ← Eval.heap
  match h.callFrame? env with
  | none => Eval.fail (.noCapturableArgument name "no enclosing call")
  | some f =>
    match h.binding? f name with
    | some (.promise p) => capturePromise p
    | some .missing => Eval.fail (.noCapturableArgument name "argument was not supplied")
    | some (.value _) => Eval.fail (.noCapturableArgument name "binding is not an argument")
    | some (.dots _) =>
      Eval.fail (.noCapturableArgument name "variadic arguments need the batch variant")
    | none => Eval.fail (.noCapturableArgument name "not a parameter of the enclosing function")

def captureDots (env : FrameId) : Eval (List (Named (Capture Tree))) := do
  Eval.debug ("deferred capture of `" ++ dotsName ++ "`")
  let h ← Eval.heap
  match h.callFrame? env with
  | none => Eval.fail (.noCapturableArgument dotsName "no enclosing call")
  | some f =>
    match h.binding? f dotsName with
    | some (.dots args) => captureAll args
    | _ => Eval.fail (.noCapturableArgument dotsName "function has no variadic parameter")

end Quotation
