import Quotation.Session.Basic
import Quotation.Tree.Outline
import Quotation.Tree.Stored

namespace Quotation.Session

inductive FrameView
  | known (name : String)
  | frame (isCall : Bool) (names : List String) (parent : Option FrameView)

def frameName? (s : Session) (f : FrameId) : Option String :=
  (s.frames.entries.find? (·.2 == f)).map Prod.fst

def viewChain (s : Session) : List FrameId → Option FrameView
  | [] => none
  | f :: rest =>
    match s.frameName? f with
    | some name => some (.known name)
    | none =>
      some (.frame (s.state.heap.frame f).isCall (s.state.heap.names f) (viewChain s rest))

def view (s : Session) (f : FrameId) : FrameView :=
  (s.viewChain (s.state.heap.chain f)).getD (.known globalName)

structure FrameFacts where
  names : List String
  isCall : Bool
  parent : Option FrameView
  outline : String

def frameOutline (h : Heap) (f : FrameId) : String :=
  outlineFrame (h.names f) (h.frame f).isCall (h.parent? f).isSome

def frameFacts (s : Session) (f : FrameId) : FrameFacts where
  names := s.state.heap.names f
  isCall := (s.state.heap.frame f).isCall
  parent := s.viewChain (s.state.heap.frame f).enclosing
  outline := frameOutline s.state.heap f

def promiseText (p : Promise) : String :=
  "<promise " ++ p.expr.text ++ (if p.isForced then " (forced)>" else ">")

structure TreeFacts where
  text : String
  outline : String
  hasMarkers : Bool
  callHasMarkers : Option Bool
  marker : Option String
  firstMarker : Option String
  reference : Option String
  isDots : Bool
  callName : Option String
  slots : Option (List String)
  children : List String

def markerSymbol (m : Marker) : String := m.kind.symbol

/-- What is asked about markers is asked of the tree as it is stored. -/
def treeFacts (t : Tree) : TreeFacts where
  text := t.text
  outline := t.outline
  hasMarkers := (Stored.ofTree t).hasMarkers
  callHasMarkers := (Stored.ofTree t).bit?
  marker := t.asMarker?.map markerSymbol
  firstMarker := do
    let m ← (Stored.ofTree t).firstMarker?
    m.marker?.map Marker.Kind.symbol
  reference := t.asReference?
  isDots := t.isDots
  callName := t.callName?
  slots := t.slots?.map (List.map Slot.text)
  children := t.children.map Tree.text

structure ValueFacts where
  text : String
  inspection : String
  typeName : String
  isNull : Bool
  isConstant : Bool
  isCallable : Bool
  bool : Option Bool
  int : Option Int64
  float : Option Float
  string : Option String
  size : Option Nat
  tree : Option String
  capture : Option String
  hasDots : Option Bool
  handle : Option String
  outline : Option String

def callableOutline (h : Heap) : Value → Option String
  | .closure c => some (c.outline (frameOutline h c.env))
  | .builtin b => some b.outline
  | .special s => some s.outline
  | _ => none

def valueFacts (h : Heap) (v : Value) : ValueFacts where
  text := v.text
  inspection := v.inspect
  typeName := v.typeName
  isNull := v.isNull
  isConstant := v.isConstant
  isCallable := v.isCallable
  bool := v.asBool?
  int := v.asInt?
  float := v.asFloat?
  string := v.asString?
  size := v.asList?.map List.length
  tree := v.asTree?.map Tree.text
  capture := v.asCapture?.map Capture.text
  hasDots := match v with
    | .closure c => some c.hasDots
    | _ => none
  handle := match v with
    | .external x => x.handle
    | _ => none
  outline := callableOutline h v

end Quotation.Session
