import Quotation.Engine.Arguments

/-! Calls of closures. Every argument becomes a promise, and variadic arguments are passed on as
they are. Arguments are matched to parameters by exact name first and then by position; parameters
after the variadic one are matched by name only, and what is left over goes to the variadic
parameter in the order of the call. -/

namespace Quotation

def formalIndex? (formals : List (Formal Tree)) (name : String) : Option Nat :=
  formals.findIdx? fun f => !f.isDots && f.name == name

def fillNamed (formals : List (Formal Tree)) :
    List (Named PromiseId) → List (Option PromiseId) →
      Except Error (List (Option PromiseId) × List (Named PromiseId))
  | [], slots => .ok (slots, [])
  | a :: rest, slots =>
    match a.name.bind (formalIndex? formals) with
    | none => (fillNamed formals rest slots).map fun r => (r.1, a :: r.2)
    | some i =>
      if (slots[i]?.join).isSome then .error (.unusedArgument a.name)
      else fillNamed formals rest (slots.set i (some a.val))

def fillPositional (limit : Nat) :
    List (Named PromiseId) → List (Option PromiseId) →
      List (Option PromiseId) × List (Named PromiseId)
  | [], slots => (slots, [])
  | a :: rest, slots =>
    match a.name, (slots.take limit).findIdx? Option.isNone with
    | none, some i => fillPositional limit rest (slots.set i (some a.val))
    | _, _ =>
      let r := fillPositional limit rest slots
      (r.1, a :: r.2)

structure Matching where
  slots : List (Option PromiseId)
  dots : Option (List (Named PromiseId))

def matchArguments (formals : List (Formal Tree)) (supplied : List (Named PromiseId)) :
    Except Error Matching := do
  let (slots, left) ← fillNamed formals supplied (formals.map fun _ => none)
  match formals.findIdx? Formal.isDots with
  | some limit =>
    let (slots, rest) := fillPositional limit left slots
    .ok ⟨slots, some rest⟩
  | none =>
    match fillPositional formals.length left slots with
    | (slots, []) => .ok ⟨slots, none⟩
    | (_, a :: _) => .error (.unusedArgument a.name)

def bindFormals (frame : FrameId) :
    List (Formal Tree) → List (Option PromiseId) → Heap → Heap
  | f :: formals, slot :: slots, h =>
    if f.isDots then bindFormals frame formals slots h
    else
      let h := match slot, f.default? with
        | some p, _ => h.bind frame f.name (.promise p)
        | none, some t =>
          let (p, h) := h.newPromise { expr := t, env := frame, mask := none }
          h.bind frame f.name (.promise p)
        | none, none => h.bind frame f.name .missing
      bindFormals frame formals slots h
  | _, _, h => h

def bindMatching (frame : FrameId) (formals : List (Formal Tree)) (m : Matching) (h : Heap) :
    Heap :=
  let h := match m.dots with
    | some args => h.bind frame dotsName (.dots args)
    | none => h
  bindFormals frame formals m.slots h

def openFrame (c : Closure Tree) (supplied : List (Named PromiseId)) : Eval FrameId := do
  let frame ← Eval.onHeap fun h => h.newFrame (some c.env) true
  let m ← Eval.ofExcept (matchArguments c.formals supplied)
  Eval.modifyHeap (bindMatching frame c.formals m)
  return frame

/-- The promises that an argument stands for: variadic arguments are passed on as they are. -/
def promiseSlot (env : FrameId) (mask : Option Mask) (slot : Slot) :
    Eval (List (Named PromiseId)) := do
  if slot.val.isDots then visibleDots env
  else
    let p ← Eval.onHeap fun h => h.newPromise { expr := slot.val, env, mask }
    return [⟨slot.name, p⟩]

def promiseSlots (env : FrameId) (mask : Option Mask) : List Slot → Eval (List (Named PromiseId))
  | [] => return []
  | slot :: rest => do
    let here ← promiseSlot env mask slot
    let there ← promiseSlots env mask rest
    return here ++ there

def markedArguments (h : Heap) (supplied : List (Named PromiseId)) : List PromiseId :=
  (supplied.map Named.val).filter fun p => (h.promise p).expr.hasMarkers

def uncapturedMarker? (h : Heap) (marked : List PromiseId) : Option Marker :=
  (marked.filter fun p => !(h.promise p).captured).findSome? fun p =>
    let pr := h.promise p
    h.exposed? pr.env pr.mask pr.expr

variable (eng : Engine) (ev : Evaluator)

/-- Runs the body of a closure in a new frame. An argument with markers has to be captured by the
body: if one was left alone, the call fails when it returns. -/
def applyClosure (c : Closure Tree) (args : List Slot) (env : FrameId) (mask : Option Mask) :
    Eval Value := do
  let supplied ← promiseSlots env mask args
  let marked := markedArguments (← Eval.heap) supplied
  let frame ← openFrame c supplied
  let depth ← Eval.depth
  Eval.trace eng.trace
    ("call " ++ c.name.getD "<anonymous>" ++ " at depth " ++ toString depth)
  let v ← ev c.body frame none
  match uncapturedMarker? (← Eval.heap) marked with
  | some m => Eval.fail (.unresolvedMarker m.kind)
  | none => return v

end Quotation
