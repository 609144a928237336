import Quotation.Heap

/-! What a computation works on, and how it ends. A computation threads the heap, the nesting depth,
what the hosts see of the world, and the log; it ends with a result, with an error, or without fuel,
and the state survives in each case. -/

namespace Quotation

abbrev Event := List (Named String)

structure World where
  ticks : Nat := 0
  events : List Event := []
  identities : Nat := 0
  deriving DecidableEq, Repr

def World.freshIdentity (w : World) : Identity × World :=
  (w.identities, { w with identities := w.identities + 1 })

namespace Log

inductive Level
  | debug
  | trace
  deriving DecidableEq, Repr

structure Record where
  level : Level
  message : String
  deriving DecidableEq, Repr

def Level.name : Level → String
  | .debug => "DEBUG"
  | .trace => "TRACE"

def Record.text (r : Record) : String := r.level.name ++ " " ++ r.message

end Log

structure State where
  heap : Heap := {}
  depth : Nat := 0
  world : World := {}
  log : List Log.Record := []

inductive Halt
  | failed (e : Error)
  | outOfFuel
  deriving DecidableEq, Repr

abbrev Eval (α : Type) := EStateM Halt State α

abbrev Evaluator := Tree → FrameId → Option Mask → Eval Value

namespace Eval

variable {α : Type}

def fail (e : Error) : Eval α := throw (.failed e)

def ofExcept : Except Error α → Eval α
  | .ok a => pure a
  | .error e => fail e

def heap : Eval Heap := fun s => .ok s.heap s

def modifyHeap (g : Heap → Heap) : Eval Unit := fun s => .ok () { s with heap := g s.heap }

def onHeap (g : Heap → α × Heap) : Eval α := fun s =>
  let (a, h) := g s.heap
  .ok a { s with heap := h }

def onWorld (g : World → Except Error α × World) : Eval α := fun s =>
  match g s.world with
  | (.ok a, w) => .ok a { s with world := w }
  | (.error e, w) => .error (.failed e) { s with world := w }

def freshIdentity : Eval Identity := onWorld fun w => ((.ok w.freshIdentity.1), w.freshIdentity.2)

def depth : Eval Nat := fun s => .ok s.depth s

def log (level : Log.Level) (message : String) : Eval Unit := fun s =>
  .ok () { s with log := ⟨level, message⟩ :: s.log }

def debug (message : String) : Eval Unit := log .debug message

def trace (on : Bool) (message : String) : Eval Unit :=
  if on then log .trace message else pure ()

/-- Gives the error of a computation that fails; there is no going on without fuel. -/
def attempt (act : Eval α) : Eval (Except Error α) := fun s =>
  match act s with
  | .ok a s => .ok (.ok a) s
  | .error (.failed e) s => .ok (.error e) s
  | .error .outOfFuel s => .error .outOfFuel s

/-- Runs a computation one level deeper, and comes back up however it ends. -/
def nested (maxDepth : Nat) (act : Eval α) : Eval α := fun s =>
  if s.depth < maxDepth then
    match act { s with depth := s.depth + 1 } with
    | .ok a s => .ok a { s with depth := s.depth - 1 }
    | .error h s => .error h { s with depth := s.depth - 1 }
  else .error (.failed (.stackOverflow (s.depth + 1) maxDepth)) s

end Eval

end Quotation
