import Quotation.Mask
import Quotation.Tree.Markers

/-! Frames and promises. A frame binds names to values, to arguments that are still to be
evaluated, to the variadic arguments of a call, or to nothing because no argument was supplied.
Frames are enclosed by other frames, and a name is looked up through them from the inside out. A
promise is the tree of an argument with the frame and the mask it belongs to; it remembers its
value once it has one. -/

namespace Quotation

structure Promise where
  expr : Tree
  env : FrameId
  mask : Option Mask
  value? : Option Value := none
  forcing : Bool := false
  captured : Bool := false

def Promise.isForced (p : Promise) : Bool := p.value?.isSome

instance : Inhabited Promise := ⟨⟨.literal .null, 0, none, none, false, false⟩⟩

inductive Binding
  | value (v : Value)
  | promise (p : PromiseId)
  | dots (args : List (Named PromiseId))
  | missing

structure Frame where
  bindings : NameTable Binding := {}
  enclosing : List FrameId := []
  isCall : Bool := false

instance : Inhabited Frame := ⟨{}⟩

structure Heap where
  frames : Array Frame := #[]
  promises : Array Promise := #[]

namespace Heap

def frame (h : Heap) (f : FrameId) : Frame := h.frames[f]?.getD default

def promise (h : Heap) (p : PromiseId) : Promise := h.promises[p]?.getD default

def modifyFrame (h : Heap) (f : FrameId) (g : Frame → Frame) : Heap :=
  { h with frames := h.frames.modify f g }

def modifyPromise (h : Heap) (p : PromiseId) (g : Promise → Promise) : Heap :=
  { h with promises := h.promises.modify p g }

def newFrame (h : Heap) (parent : Option FrameId) (isCall : Bool) : FrameId × Heap :=
  let enclosing := match parent with
    | some f => f :: (h.frame f).enclosing
    | none => []
  (h.frames.size, { h with frames := h.frames.push { enclosing, isCall } })

def newPromise (h : Heap) (p : Promise) : PromiseId × Heap :=
  (h.promises.size, { h with promises := h.promises.push p })

def beginForce (h : Heap) (p : PromiseId) : Heap :=
  h.modifyPromise p fun pr => { pr with forcing := true }

def finishForce (h : Heap) (p : PromiseId) (v : Value) : Heap :=
  h.modifyPromise p fun pr => { pr with forcing := false, value? := some v }

def abandonForce (h : Heap) (p : PromiseId) : Heap :=
  h.modifyPromise p fun pr => { pr with forcing := false }

def markCaptured (h : Heap) (p : PromiseId) : Heap :=
  h.modifyPromise p fun pr => { pr with captured := true }

def chain (h : Heap) (f : FrameId) : List FrameId := f :: (h.frame f).enclosing

def parent? (h : Heap) (f : FrameId) : Option FrameId := (h.frame f).enclosing.head?

def names (h : Heap) (f : FrameId) : List String := (h.frame f).bindings.names

def binding? (h : Heap) (f : FrameId) (name : String) : Option Binding :=
  (h.frame f).bindings.get? name

def lookup (h : Heap) (f : FrameId) (name : String) : Option Binding :=
  (h.chain f).findSome? fun g => h.binding? g name

def bind (h : Heap) (f : FrameId) (name : String) (b : Binding) : Heap :=
  h.modifyFrame f fun fr => { fr with bindings := fr.bindings.insert name b }

def define (h : Heap) (f : FrameId) (name : String) (v : Value) : Heap := h.bind f name (.value v)

def erase (h : Heap) (f : FrameId) (name : String) : Heap :=
  h.modifyFrame f fun fr => { fr with bindings := fr.bindings.erase name }

def rebind (h : Heap) (f : FrameId) (name : String) : Option Binding → Heap
  | some b => h.bind f name b
  | none => h.erase f name

def get? (h : Heap) (f : FrameId) (name : String) : Option Value :=
  match h.lookup f name with
  | some (.value v) => some v
  | some (.promise p) => (h.promise p).value?
  | _ => none

def dots? (h : Heap) (f : FrameId) : Option (List (Named PromiseId)) :=
  match h.lookup f dotsName with
  | some (.dots args) => some args
  | _ => none

def callFrame? (h : Heap) (f : FrameId) : Option FrameId :=
  (h.chain f).find? fun g => (h.frame g).isCall

/-- Whether a name in function position is a special, as far as can be told without evaluating
anything: a promise that has no value yet might become anything. -/
def namesSpecial (h : Heap) (name : String) : List FrameId → Bool
  | [] => false
  | f :: rest =>
    match h.binding? f name with
    | some (.value v) => if v.isCallable then v.isSpecial else namesSpecial h name rest
    | some (.promise p) =>
      match (h.promise p).value? with
      | some v => if v.isCallable then v.isSpecial else namesSpecial h name rest
      | none => false
    | _ => namesSpecial h name rest

def isSpecialHead (h : Heap) (env : FrameId) (mask : Option Mask) : Tree → Bool
  | .literal v => v.isSpecial
  | .reference name =>
    match (Mask.find? mask name).filter Value.isCallable with
    | some v => v.isSpecial
    | none => h.namesSpecial name (h.chain env)
  | _ => false

mutual

/-- The first marker that evaluation could reach. The arguments of a call whose head is known to
be a special are not entered: those are quasiquotations under construction. -/
def exposed? (h : Heap) (env : FrameId) (mask : Option Mask) : Tree → Option Marker
  | .literal _ => none
  | .reference _ => none
  | .call head args =>
    if h.isSpecialHead env mask head then none
    else (exposed? h env mask head).or (exposedSlots? h env mask args)
  | .pairlist args => exposedSlots? h env mask args
  | .unquote e => some (.unquote e)
  | .splice e => some (.splice e)
  | .define n v => some (.define n v)
termination_by structural t => t

def exposedSlots? (h : Heap) (env : FrameId) (mask : Option Mask) : List Slot → Option Marker
  | [] => none
  | ⟨_, t⟩ :: rest => (exposed? h env mask t).or (exposedSlots? h env mask rest)
termination_by structural l => l

end

end Heap

end Quotation
