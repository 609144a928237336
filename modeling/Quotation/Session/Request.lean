import Quotation.Callable
import Quotation.Error

namespace Quotation.Session

mutual

inductive ValueSpec
  | null
  | bool (b : Bool)
  | int (n : Int64)
  | float (x : Float)
  | str (s : String)
  | list (items : List (Named ValueSpec))
  | tree (t : TreeSpec)
  | capture (t : TreeSpec) (env : String)
  | closure (name : Option String) (formals : List (Formal TreeSpec)) (body : TreeSpec)
      (env : String)
  | external (label : String)
  | callable (name : String)
  | bound (env name : String)
  | copies (n : Nat) (v : ValueSpec)
  | nested (n : Nat) (v : ValueSpec)
  | repeated (n : Nat) (s : String)

inductive TreeSpec
  | literal (v : ValueSpec)
  | reference (name : String)
  | call (head : TreeSpec) (args : List (Named TreeSpec))
  | pairlist (args : List (Named TreeSpec))
  | unquote (operand : TreeSpec)
  | splice (operand : TreeSpec)
  | define (name value : TreeSpec)
  | source (text : String)
  | wrapped (name : String) (n : Nat) (t : TreeSpec)

end

instance : Inhabited ValueSpec := ⟨.null⟩

instance : Inhabited TreeSpec := ⟨.literal .null⟩

abbrev ArgSpecs := List (Named TreeSpec)

abbrev FormalSpecs := List (Formal TreeSpec)

abbrev MaskSpec := List (String × ValueSpec)

inductive FrameSpec
  | new
  | prelude
  | child (parent : String)
  | callFrame (parent : String)
  | ofValue (v : ValueSpec)
  | parentOf (env : String)

inductive BindingSpec
  | missing
  | promise (id : String)
  | dots (items : List (Named String))

inductive MaskSource
  | entries (entries : MaskSpec)
  | list (v : ValueSpec)

inductive HeadSpec
  | name (s : String)
  | tree (t : TreeSpec)
  | value (v : ValueSpec)

inductive CallArgSpec
  | positional (v : ValueSpec)
  | labelled (name : String) (v : ValueSpec)
  | splice (v : ValueSpec)
  | define (name v : ValueSpec)

inductive Executor
  | session
  | fresh
  deriving DecidableEq, Repr

inductive Step
  | parse (source : String)
  | formatError (e : Error)
  | fromHost (e : Error)
  | makeFrame (name : String) (frame : FrameSpec)
  | loadPrelude (env : String)
  | define (env name : String) (v : ValueSpec)
  | defineFunction (env name : String) (formals : FormalSpecs) (body : TreeSpec)
  | bind (env name : String) (b : BindingSpec)
  | lookup (env name : String)
  | remove (env name : String)
  | describeFrame (env : String)
  | sameFrame (a b : String)
  | makePromise (id : String) (t : TreeSpec) (env : String) (mask : Option MaskSpec)
  | describePromise (id : String)
  | force (id : String)
  | makeMask (source : MaskSource) (name : String)
  | evaluate (t : TreeSpec) (env : String) (mask : Option MaskSpec) (executor : Executor)
      (save : Option String)
  | evaluateCapture (v : ValueSpec) (mask : Option MaskSpec)
  | evaluateArguments (args : ArgSpecs) (env : String) (mask : Option MaskSpec)
  | evaluateDynamicArguments (args : ArgSpecs) (env : String) (mask : Option MaskSpec)
  | apply (func : ValueSpec) (args : ArgSpecs) (env : String) (mask : Option MaskSpec)
  | nest (n : Nat)
  | depth
  | settings
  | resolve (t : TreeSpec) (env : String) (mask : Option MaskSpec) (executor : Executor)
      (save : Option String)
  | buildCall (head : HeadSpec) (args : List CallArgSpec) (env : String) (executor : Executor)
  | callHead (v : ValueSpec)
  | treeOf (v : ValueSpec)
  | slotsOf (v : ValueSpec)
  | captureParameter (env name : String)
  | quoteArguments (env : String)
  | captureArguments (env : String)
  | inspectTree (t : TreeSpec)
  | inspectValue (v : ValueSpec)
  | equalTrees (a b : TreeSpec)
  | equalValues (a b : ValueSpec)

end Quotation.Session
