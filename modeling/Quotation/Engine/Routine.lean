import Quotation.Engine.State

/-! What a special does with its unevaluated arguments. A routine is a finite plan of demands on the
engine, each followed by what to do with the answer, or with the error that there is instead. It
sees the heap, may make frames and promises, and may change what names are bound to. Nothing else
can change the state, so whatever holds of every demand and of every change holds of every special,
those of a host included. -/

namespace Quotation

structure SpecialCall where
  args : List Slot
  env : FrameId
  mask : Option Mask

def SpecialCall.single (call : SpecialCall) (name : String) : Except Error Slot :=
  match call.args with
  | [slot] => .ok slot
  | [] => .error (.missingArgument name)
  | _ :: extra :: _ => .error (.unusedArgument extra.name)

inductive Demand
  | evaluate (t : Tree) (env : FrameId) (mask : Option Mask)
  | force (p : PromiseId)
  | arguments (args : List Slot) (env : FrameId) (mask : Option Mask)
  | resolve (t : Tree) (env : FrameId) (mask : Option Mask)
  | capture (env : FrameId) (name : String)
  | captureDots (env : FrameId)
  | perform (name : String) (args : List Item)

def Demand.Answer : Demand → Type
  | .evaluate _ _ _ => Value
  | .force _ => Value
  | .arguments _ _ _ => List Item
  | .resolve _ _ _ => Tree
  | .capture _ _ => Capture Tree
  | .captureDots _ => List (Named (Capture Tree))
  | .perform _ _ => Value

inductive Routine (α : Type)
  | done (a : α)
  | fail (e : Error)
  | ask (d : Demand) (next : Except Error d.Answer → Routine α)
  | inspect (next : Heap → Routine α)
  | newFrame (parent : Option FrameId) (isCall : Bool) (next : FrameId → Routine α)
  | newPromise (expr : Tree) (env : FrameId) (mask : Option Mask) (next : PromiseId → Routine α)
  | rebind (env : FrameId) (name : String) (b : Option Binding) (next : Routine α)
  | identity (next : Identity → Routine α)
  | depth (next : Nat → Routine α)

namespace Routine

variable {α β : Type}

def bind : Routine α → (α → Routine β) → Routine β
  | .done a, f => f a
  | .fail e, _ => .fail e
  | .ask d next, f => .ask d fun r => (next r).bind f
  | .inspect next, f => .inspect fun h => (next h).bind f
  | .newFrame parent isCall next, f => .newFrame parent isCall fun g => (next g).bind f
  | .newPromise expr env mask next, f => .newPromise expr env mask fun p => (next p).bind f
  | .rebind env name b next, f => .rebind env name b (next.bind f)
  | .identity next, f => .identity fun i => (next i).bind f
  | .depth next, f => .depth fun n => (next n).bind f

instance : Monad Routine where
  pure := .done
  bind := bind

def ofExcept : Except Error α → Routine α
  | .ok a => .done a
  | .error e => .fail e

def demand (d : Demand) : Routine d.Answer := .ask d ofExcept

def evaluate (t : Tree) (env : FrameId) (mask : Option Mask) : Routine Value :=
  demand (.evaluate t env mask)

def arguments (args : List Slot) (env : FrameId) (mask : Option Mask) : Routine (List Item) :=
  demand (.arguments args env mask)

def resolve (t : Tree) (env : FrameId) (mask : Option Mask) : Routine Tree :=
  demand (.resolve t env mask)

def capture (env : FrameId) (name : String) : Routine (Capture Tree) :=
  demand (.capture env name)

def captureDots (env : FrameId) : Routine (List (Named (Capture Tree))) :=
  demand (.captureDots env)

def define (env : FrameId) (name : String) (v : Value) : Routine Unit :=
  .rebind env name (some (.value v)) (.done ())

@[simp] theorem pure_eq (a : α) : (pure a : Routine α) = .done a := rfl

@[simp] theorem bind_eq (r : Routine α) (f : α → Routine β) : r >>= f = r.bind f := rfl

theorem bind_assoc {γ : Type} (r : Routine α) (f : α → Routine β) (g : β → Routine γ) :
    (r.bind f).bind g = r.bind fun a => (f a).bind g := by
  induction r with
  | done | fail => rfl
  | rebind _ _ _ _ ih => simp [bind, ih]
  | ask _ _ ih | inspect _ ih | newFrame _ _ _ ih | newPromise _ _ _ _ ih | identity _ ih
  | depth _ ih => simp [bind, ih]

end Routine

end Quotation
