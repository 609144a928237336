import Quotation.Engine.State

namespace Quotation

variable (ev : Evaluator)

/-- Marks a promise as under evaluation while its tree is evaluated, and keeps the value. -/
def forcePending (p : PromiseId) : Eval Value := fun s =>
  let pr := s.heap.promise p
  match ev pr.expr pr.env pr.mask { s with heap := s.heap.beginForce p } with
  | .ok v s => .ok v { s with heap := s.heap.finishForce p v }
  | .error h s => .error h { s with heap := s.heap.abandonForce p }

def force (p : PromiseId) : Eval Value := do
  let pr := (← Eval.heap).promise p
  match pr.value? with
  | some v => return v
  | none => if pr.forcing then Eval.fail .recursivePromise else forcePending ev p

def lookupVariable (name : String) (env : FrameId) (mask : Option Mask) : Eval Value := do
  match Mask.find? mask name with
  | some v => return v
  | none =>
    match (← Eval.heap).lookup env name with
    | some (.value v) => return v
    | some (.promise p) => force ev p
    | some .missing => Eval.fail (.missingArgument name)
    | some (.dots _) => Eval.fail .dotsOutsideFunction
    | none => Eval.fail (if name = dotsName then .dotsOutsideFunction else .undefinedVariable name)

def findFunction (name : String) : List FrameId → Eval Value
  | [] => Eval.fail (.undefinedVariable name)
  | f :: rest => do
    match (← Eval.heap).binding? f name with
    | some (.value v) => if v.isCallable then return v else findFunction name rest
    | some (.promise p) =>
      let v ← force ev p
      if v.isCallable then return v else findFunction name rest
    | _ => findFunction name rest

def lookupFunction (name : String) (env : FrameId) (mask : Option Mask) : Eval Value := do
  match (Mask.find? mask name).filter Value.isCallable with
  | some v => return v
  | none => findFunction ev name ((← Eval.heap).chain env)

def resolveHead (head : Tree) (env : FrameId) (mask : Option Mask) : Eval Value := do
  match head with
  | .reference name => lookupFunction ev name env mask
  | _ =>
    let v ← ev head env mask
    if v.isCallable then return v else Eval.fail (.notCallable v.typeName)

end Quotation
