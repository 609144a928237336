import Quotation.Engine.Evaluate

namespace Quotation

abbrev Forcer := PromiseId → Eval Value

namespace Forcer

variable (fo : Forcer) (eng : Engine) (ev : Evaluator)

def lookupVariable (name : String) (env : FrameId) (mask : Option Mask) : Eval Value := do
  match Mask.find? mask name with
  | some v => return v
  | none =>
    match (← Eval.heap).lookup env name with
    | some (.value v) => return v
    | some (.promise p) => fo p
    | some .missing => Eval.fail (.missingArgument name)
    | some (.dots _) => Eval.fail .dotsOutsideFunction
    | none => Eval.fail (if name = dotsName then .dotsOutsideFunction else .undefinedVariable name)

def findFunction (name : String) : List FrameId → Eval Value
  | [] => Eval.fail (.undefinedVariable name)
  | f :: rest => do
    match (← Eval.heap).binding? f name with
    | some (.value v) => if v.isCallable then return v else findFunction name rest
    | some (.promise p) =>
      let v ← fo p
      if v.isCallable then return v else findFunction name rest
    | _ => findFunction name rest

def lookupFunction (name : String) (env : FrameId) (mask : Option Mask) : Eval Value := do
  match (Mask.find? mask name).filter Value.isCallable with
  | some v => return v
  | none => fo.findFunction name ((← Eval.heap).chain env)

def resolveHead (head : Tree) (env : FrameId) (mask : Option Mask) : Eval Value := do
  match head with
  | .reference name => fo.lookupFunction name env mask
  | _ =>
    let v ← ev head env mask
    if v.isCallable then return v else Eval.fail (.notCallable v.typeName)

def forceAll : List (Named PromiseId) → Eval (List Item)
  | [] => return []
  | ⟨name, p⟩ :: rest => do
    let v ← fo p
    let vs ← forceAll rest
    return ⟨name, v⟩ :: vs

def evalSlot (env : FrameId) (mask : Option Mask) (slot : Slot) : Eval (List Item) := do
  if slot.val.isDots then
    let args ← visibleDots env
    fo.forceAll args
  else
    let v ← ev slot.val env mask
    return [⟨slot.name, v⟩]

def evalSlots (env : FrameId) (mask : Option Mask) : List Slot → Eval (List Item)
  | [] => return []
  | slot :: rest => do
    let here ← fo.evalSlot ev env mask slot
    let there ← evalSlots env mask rest
    return here ++ there

def apply (func : Value) (args : List Slot) (env : FrameId) (mask : Option Mask) : Eval Value := do
  match func with
  | .builtin b =>
    let items ← fo.evalSlots ev env mask args
    runBuiltin eng b items
  | .special s => runSpecial eng ev s ⟨args, env, mask⟩
  | .closure c => applyClosure eng ev c args env mask
  | v => Eval.fail (.notCallable v.typeName)

def callHead (head : Tree) (args : List Slot) (env : FrameId) (mask : Option Mask) :
    Eval Value := do
  try fo.resolveHead ev head env mask
  catch
    | .outOfFuel => throw .outOfFuel
    | .failed e =>
      rejectExposed (.call head args) env mask
      Eval.fail e

def evaluateCall (head : Tree) (args : List Slot) (env : FrameId) (mask : Option Mask) :
    Eval Value := do
  let depth ← Eval.depth
  Eval.trace eng.trace ("eval " ++ (Tree.call head args).text ++ " at depth " ++ toString depth)
  let func ← fo.callHead ev head args env mask
  rejectMarkers func (.call head args) env mask
  fo.apply eng ev func args env mask

def evaluateStep (t : Tree) (env : FrameId) (mask : Option Mask) : Eval Value := do
  match t with
  | .literal v => return v
  | .reference name => fo.lookupVariable name env mask
  | .call head args => Eval.nested eng.maxDepth (fo.evaluateCall eng ev head args env mask)
  | .pairlist args =>
    let items ← fo.evalSlots ev env mask args
    return .list items
  | .unquote _ => Eval.fail (.unresolvedMarker .unquote)
  | .splice _ => Eval.fail (.unresolvedMarker .splice)
  | .define _ _ => Eval.fail (.unresolvedMarker .define)

end Forcer

def forceAgain (ev : Evaluator) : Forcer := fun p => do
  let pr := (← Eval.heap).promise p
  ev pr.expr pr.env pr.mask

/-- Evaluation that calls by name: no promise keeps its value. -/
def evaluateByName (eng : Engine) : Nat → Evaluator
  | 0, _, _, _ => throw .outOfFuel
  | fuel + 1, t, env, mask =>
    (forceAgain (evaluateByName eng fuel)).evaluateStep eng (evaluateByName eng fuel) t env mask

section

variable (eng : Engine) (ev : Evaluator)

theorem Forcer.lookupVariable_force :
    Forcer.lookupVariable (force ev) = Quotation.lookupVariable ev := rfl

theorem Forcer.findFunction_force :
    Forcer.findFunction (force ev) = Quotation.findFunction ev := by
  funext name chain
  induction chain with
  | nil => rfl
  | cons f rest ih =>
    rw [Forcer.findFunction, ih]
    rfl

theorem Forcer.resolveHead_force :
    Forcer.resolveHead (force ev) ev = Quotation.resolveHead ev := by
  funext head env mask
  simp only [Forcer.resolveHead, Forcer.lookupFunction, Forcer.findFunction_force]
  rfl

theorem Forcer.forceAll_force : Forcer.forceAll (force ev) = Quotation.forceAll ev := by
  funext args
  induction args with
  | nil => rfl
  | cons a rest ih => simp only [Forcer.forceAll, Quotation.forceAll, ih]

theorem Forcer.evalSlots_force : Forcer.evalSlots (force ev) ev = Quotation.evalSlots ev := by
  funext env mask slots
  induction slots with
  | nil => rfl
  | cons slot rest ih =>
    simp only [Forcer.evalSlots, Forcer.evalSlot, Forcer.forceAll_force, Quotation.evalSlots,
      Quotation.evalSlot, ih]

theorem Forcer.evaluateCall_force :
    Forcer.evaluateCall (force ev) eng ev = Quotation.evaluateCall eng ev := by
  funext head args env mask
  simp only [Forcer.evaluateCall, Forcer.callHead, Forcer.resolveHead_force, Forcer.apply,
    Forcer.evalSlots_force]
  rfl

theorem Forcer.evaluateStep_force :
    Forcer.evaluateStep (force ev) eng ev = Quotation.evaluateStep eng ev := by
  funext t env mask
  simp only [Forcer.evaluateStep, Forcer.lookupVariable_force, Forcer.evaluateCall_force,
    Forcer.evalSlots_force]
  rfl

end

end Quotation
