import Quotation.Engine.Build
import Quotation.Session.Reply
import Quotation.Source.Frontend

namespace Quotation.Session

def engineOf (s : Session) : Executor → Engine
  | .session => s.engine
  | .fresh => { host := s.engine.host }

def engineFor (executor : Executor) : Action Engine := fun s => .ok (s.engineOf executor) s

def evaluateIn (executor : Executor) (t : Tree) (f : FrameId) (mask : Option Mask) :
    Action Value := do
  let eng ← engineFor executor
  Action.ofEval (evaluate eng fuel t f mask)

def save (f : FrameId) (name : Option String) (v : Value) : Action Unit := do
  match name with
  | some name => Action.ofEval (Eval.modifyHeap (·.define f name v))
  | none => return ()

def bindingSize (f : FrameId) : Action Reply := do
  let h ← Action.heap
  return .size (h.names f).length

def makeFrameOf : FrameSpec → Action FrameId
  | .new => Action.ofEval (Eval.onHeap fun h => h.newFrame none false)
  | .prelude => do
    let f ← Action.ofEval (Eval.onHeap fun h => h.newFrame none false)
    Action.ofEval (loadPrelude f)
    return f
  | .child parent => do
    let p ← frameNamed parent
    Action.ofEval (Eval.onHeap fun h => h.newFrame (some p) false)
  | .callFrame parent => do
    let p ← frameNamed parent
    Action.ofEval (Eval.onHeap fun h => h.newFrame (some p) true)
  | .ofValue v => do
    let v ← v.make
    match v with
    | .capture c => return c.env
    | .closure c => return c.env
    | _ => frameNamed globalName
  | .parentOf env => do
    let f ← frameNamed env
    let h ← Action.heap
    return (h.parent? f).getD f

def makeBinding : BindingSpec → Action Binding
  | .missing => return .missing
  | .promise id => do
    let p ← promiseNamed id
    return .promise p
  | .dots items => do
    let args ← items.mapM fun i => do
      let p ← promiseNamed i.val
      pure (⟨i.name, p⟩ : Named PromiseId)
    return .dots args

def makeHead : HeadSpec → Action CallHead
  | .name s => return .name s
  | .tree t => do
    let t ← t.make
    return .tree t
  | .value v => do
    let v ← v.make
    Action.ofExcept (CallHead.ofValue v)

def makeCallArg : CallArgSpec → Action CallArg
  | .positional v => do
    let v ← v.make
    return .positional v
  | .labelled name v => do
    let v ← v.make
    return .labelled name v
  | .splice v => do
    let v ← v.make
    return .splice v
  | .define n v => do
    let n ← n.make
    let v ← v.make
    return .define n v

def makeMaskFrom : MaskSource → Action Mask
  | .entries entries => makeEntries NameTable.empty entries
  | .list v => do
    let v ← v.make
    Action.ofExcept (Mask.ofValue v)

def enterLevels (maxDepth : Nat) : (n depth : Nat) → List Nat × Option Error
  | 0, _ => ([], none)
  | n + 1, depth =>
    if depth < maxDepth then
      let r := enterLevels maxDepth n (depth + 1)
      ((depth + 1) :: r.1, r.2)
    else ([], some (.stackOverflow (depth + 1) maxDepth))

def levels (s : Session) (n : Nat) : Reply :=
  let start := s.state.depth
  let (depths, failure) := enterLevels s.engine.maxDepth n start
  .levels depths failure (start + (depths.length - 1)) start

def perform : Step → Action Reply
  | .parse source => do
    let t ← Action.ofExcept (Frontend.rust.parse source)
    return .tree t
  | .formatError e =>
    let f := Frontend.rust
    return .messages e.message (f.report e) (Frontend.plain.report e) f.name f.fileExtension
  | .fromHost e => Action.fail e
  | .makeFrame name spec => do
    let f ← makeFrameOf spec
    let s ← get
    nameFrame name f
    return .madeFrame (s.view f) (s.frameFacts f)
  | .loadPrelude env => do
    let f ← frameNamed env
    Action.ofEval (Quotation.loadPrelude f)
    let h ← Action.heap
    return .names (h.names f)
  | .define env name v => do
    let f ← frameNamed env
    let v ← v.make
    Action.ofEval (Eval.modifyHeap (·.define f name v))
    bindingSize f
  | .defineFunction env name formals body => do
    let f ← frameNamed env
    let formals ← makeFormals formals
    let body ← body.make
    let id ← Action.ofEval Eval.freshIdentity
    let c : Closure Tree := ⟨some name, formals, body, f, id⟩
    Action.ofEval (Eval.modifyHeap (·.define f name (.closure c)))
    bindingSize f
  | .bind env name spec => do
    let f ← frameNamed env
    let b ← makeBinding spec
    Action.ofEval (Eval.modifyHeap (·.bind f name b))
    bindingSize f
  | .lookup env name => do
    let f ← frameNamed env
    let h ← Action.heap
    return .found (h.binding? f name) (h.lookup f name) (h.get? f name)
  | .remove env name => do
    let f ← frameNamed env
    let h ← Action.heap
    Action.ofEval (Eval.modifyHeap (·.erase f name))
    return .removed (h.binding? f name)
  | .describeFrame env => do
    let f ← frameNamed env
    let s ← get
    return .frame (s.frameFacts f)
  | .sameFrame a b => do
    let f ← frameNamed a
    let g ← frameNamed b
    return .same (f == g)
  | .makePromise id t env mask => do
    let t ← t.make
    let f ← frameNamed env
    let mask ← Session.makeMask mask
    let p ← Action.ofEval (Eval.onHeap fun h => h.newPromise { expr := t, env := f, mask })
    namePromise id p
    let h ← Action.heap
    return .promise (h.promise p)
  | .describePromise id => do
    let p ← promiseNamed id
    let h ← Action.heap
    return .promise (h.promise p)
  | .force id => do
    let p ← promiseNamed id
    let eng ← engineFor .session
    let v ← Action.ofEval (Quotation.force (Quotation.evaluate eng fuel) p)
    return .value v
  | .makeMask source name => do
    let m ← makeMaskFrom source
    return .mask m (m.get? name)
  | .evaluate t env mask executor name => do
    let t ← t.make
    let f ← frameNamed env
    let mask ← Session.makeMask mask
    let v ← evaluateIn executor t f mask
    save f name v
    return .value v
  | .evaluateCapture v mask => do
    let v ← v.make
    let mask ← Session.makeMask mask
    match v with
    | .capture c => do
      let v ← evaluateIn .session c.tree c.env mask
      return .value v
    | v => return .value v
  | .evaluateArguments args env mask => do
    let args ← makeSlots args
    let f ← frameNamed env
    let mask ← Session.makeMask mask
    let eng ← engineFor .session
    let items ← Action.ofEval (evalSlots (Quotation.evaluate eng fuel) f mask args)
    return .items items
  | .evaluateDynamicArguments args env mask => do
    let args ← makeSlots args
    let f ← frameNamed env
    let mask ← Session.makeMask mask
    let eng ← engineFor .session
    let items ← Action.ofEval (evalDynamicSlots eng (Quotation.evaluate eng fuel) f mask args)
    return .items items
  | .apply func args env mask => do
    let func ← func.make
    let args ← makeSlots args
    let f ← frameNamed env
    let mask ← Session.makeMask mask
    let eng ← engineFor .session
    let v ← Action.ofEval (Quotation.apply eng (Quotation.evaluate eng fuel) func args f mask)
    return .value v
  | .nest n => do
    let s ← get
    return s.levels n
  | .depth => do
    let s ← get
    return .depth s.state.depth
  | .settings => do
    let s ← get
    return .settings s.engine.maxDepth s.engine.trace
  | .resolve t env mask executor name => do
    let t ← t.make
    let f ← frameNamed env
    let mask ← Session.makeMask mask
    let eng ← engineFor executor
    let t ← Action.ofEval (Quotation.resolve eng (Quotation.evaluate eng fuel) t f mask)
    save f name (.tree t)
    return .tree t
  | .buildCall head args env executor => do
    let head ← makeHead head
    let args ← args.mapM makeCallArg
    let f ← frameNamed env
    let eng ← engineFor executor
    let t ← Action.ofEval (Quotation.buildCall eng (Quotation.evaluate eng fuel) head args f)
    return .tree t
  | .callHead v => do
    let v ← v.make
    let head ← Action.ofExcept (CallHead.ofValue v)
    return .head head
  | .treeOf v => do
    let v ← v.make
    let t ← Action.ofExcept (Tree.ofValue v)
    return .tree t
  | .slotsOf v => do
    let v ← v.make
    let slots ← Action.ofExcept (Slot.ofSequence v)
    return .slots slots
  | .captureParameter env name => do
    let f ← frameNamed env
    let c ← Action.ofEval (Quotation.captureParameter f name)
    return .capture c
  | .quoteArguments env => do
    let f ← frameNamed env
    let cs ← Action.ofEval (captureDots f)
    return .slots (cs.map (Named.map Capture.tree))
  | .captureArguments env => do
    let f ← frameNamed env
    let cs ← Action.ofEval (captureDots f)
    return .captures cs
  | .inspectTree t => do
    let t ← t.make
    return .treeFacts (Session.treeFacts t)
  | .inspectValue v => do
    let v ← v.make
    let h ← Action.heap
    return .valueFacts (Session.valueFacts h v)
  | .equalTrees a b => do
    let a ← a.make
    let b ← b.make
    return .equal (Stored.ofTree a == Stored.ofTree b)
  | .equalValues a b => do
    let a ← a.make
    let b ← b.make
    return .equal (Stored.ofValue a == Stored.ofValue b)

def reply (s : Session) (step : Step) : Reply × Session :=
  match perform step s with
  | .ok r s => (r, s)
  | .error (.failed e) s => (.failed e, s)
  | .error .outOfFuel s => (.outOfFuel, s)

def takeRecords (s : Session) : List Event × List Log.Record × Session :=
  (s.state.world.events, s.state.log.reverse,
    { s with state := { s.state with log := [], world := { s.state.world with events := [] } } })

def run (s : Session) (step : Step) : Answer × Session :=
  let (reply, s) := s.reply step
  let (events, log, s) := s.takeRecords
  (⟨reply, events, log⟩, s)

end Quotation.Session
