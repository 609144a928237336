import Quotation.Engine.Evaluate
import Quotation.Prelude.Load
import Quotation.Session.Host
import Quotation.Session.Request
import Quotation.Source.Tree

/-! Sessions: an engine, its state, and names for frames and promises. A session begins with one
frame, `global`, which has the prelude unless it is left out and the callables of the host that
are asked for. -/

namespace Quotation

structure Session where
  engine : Engine
  state : State := {}
  frames : NameTable FrameId := {}
  promises : NameTable PromiseId := {}

namespace Session

abbrev Action (α : Type) := EStateM Halt Session α

/-- More layers of evaluation than a run can use up. -/
def fuel : Nat := Nat.pow 2 60

namespace Action

variable {α : Type}

def fail (e : Error) : Action α := throw (.failed e)

def ofExcept : Except Error α → Action α
  | .ok a => pure a
  | .error e => fail e

def ofEval (act : Eval α) : Action α := fun s =>
  match act s.state with
  | .ok a st => .ok a { s with state := st }
  | .error h st => .error h { s with state := st }

def heap : Action Heap := fun s => .ok s.state.heap s

end Action

def frame (s : Session) (name : String) : FrameId := (s.frames.get? name).getD 0

def promise (s : Session) (id : String) : PromiseId := (s.promises.get? id).getD 0

def frameNamed (name : String) : Action FrameId := fun s => .ok (s.frame name) s

def promiseNamed (id : String) : Action PromiseId := fun s => .ok (s.promise id) s

def nameFrame (name : String) (f : FrameId) : Action Unit := fun s =>
  .ok () { s with frames := s.frames.insert name f }

def namePromise (id : String) (p : PromiseId) : Action Unit := fun s =>
  .ok () { s with promises := s.promises.insert id p }

def nestValue : Nat → Value → Value
  | 0, v => v
  | n + 1, v => nestValue n (.ofList [v])

def wrapTree (name : String) : Nat → Tree → Tree
  | 0, t => t
  | n + 1, t => wrapTree name n (.callNamed name [t])

mutual

def ValueSpec.make : ValueSpec → Action Value
  | .null => return .null
  | .bool b => return .bool b
  | .int n => return .int n
  | .float x => return .float x
  | .str s => return .str s
  | .list items => do
    let vs ← makeItems items
    return .list vs
  | .tree t => do
    let t ← t.make
    return .tree t
  | .capture t env => do
    let t ← t.make
    let f ← frameNamed env
    return .capture ⟨t, f⟩
  | .closure name formals body env => do
    let formals ← makeFormals formals
    let body ← body.make
    let f ← frameNamed env
    let id ← Action.ofEval Eval.freshIdentity
    return .closure ⟨name, formals, body, f, id⟩
  | .external label => do
    let id ← Action.ofEval Eval.freshIdentity
    return .external ⟨label, some label, id⟩
  | .callable name => do
    let id ← Action.ofEval Eval.freshIdentity
    return hostCallable name id
  | .bound env name => do
    let f ← frameNamed env
    let h ← Action.heap
    return (h.get? f name).getD .null
  | .copies n v => do
    let v ← v.make
    return .ofList (List.replicate n v)
  | .nested n v => do
    let v ← v.make
    return nestValue n v
  | .repeated n s => return .str (String.join (List.replicate n s))
termination_by structural v => v

def makeItems : List (Named ValueSpec) → Action (List Item)
  | [] => return []
  | ⟨name, v⟩ :: rest => do
    let v ← v.make
    let vs ← makeItems rest
    return ⟨name, v⟩ :: vs
termination_by structural l => l

def TreeSpec.make : TreeSpec → Action Tree
  | .literal v => do
    let v ← v.make
    return .literal v
  | .reference name => return .reference name
  | .call head args => do
    let head ← head.make
    let args ← makeSlots args
    return .call head args
  | .pairlist args => do
    let args ← makeSlots args
    return .pairlist args
  | .unquote e => do
    let e ← e.make
    return .unquote e
  | .splice e => do
    let e ← e.make
    return .splice e
  | .define n v => do
    let n ← n.make
    let v ← v.make
    return .define n v
  | .source text => Action.ofExcept (Source.parse text)
  | .wrapped name n t => do
    let t ← t.make
    return wrapTree name n t
termination_by structural t => t

def makeSlots : List (Named TreeSpec) → Action (List Slot)
  | [] => return []
  | ⟨name, t⟩ :: rest => do
    let t ← t.make
    let ts ← makeSlots rest
    return ⟨name, t⟩ :: ts
termination_by structural l => l

def makeFormals : List (Formal TreeSpec) → Action (List (Formal Tree))
  | [] => return []
  | ⟨name, none⟩ :: rest => do
    let fs ← makeFormals rest
    return ⟨name, none⟩ :: fs
  | ⟨name, some t⟩ :: rest => do
    let t ← t.make
    let fs ← makeFormals rest
    return ⟨name, some t⟩ :: fs
termination_by structural l => l

end

def makeEntries : Mask → MaskSpec → Action Mask
  | m, [] => return m
  | m, (name, v) :: rest => do
    let v ← v.make
    makeEntries (m.insert name v) rest

def makeMask : Option MaskSpec → Action (Option Mask)
  | none => return none
  | some entries => do
    let m ← makeEntries NameTable.empty entries
    return some m

structure Settings where
  prelude : Bool := true
  maxDepth : Nat := 128
  trace : Bool := false
  hosts : List String := []

def globalName : String := "global"

def defineHost (f : FrameId) (name : String) : Eval Unit := do
  let id ← Eval.freshIdentity
  Eval.modifyHeap (·.define f name (hostCallable name id))

def setUp (settings : Settings) : Action Unit := do
  let f ← Action.ofEval (Eval.onHeap fun h => h.newFrame none false)
  nameFrame globalName f
  if settings.prelude then Action.ofEval (loadPrelude f)
  Action.ofEval (settings.hosts.forM (defineHost f))

def start (settings : Settings) : Session :=
  let s : Session := { engine := { maxDepth := settings.maxDepth, trace := settings.trace, host } }
  match setUp settings s with
  | .ok _ s => s
  | .error _ s => s

end Session

end Quotation
