import Quotation.Session.Facts

namespace Quotation.Session

inductive Reply
  | failed (e : Error)
  | outOfFuel
  | value (v : Value)
  | tree (t : Tree)
  | messages (message report plain name fileExtension : String)
  | madeFrame (knownAs : FrameView) (facts : FrameFacts)
  | names (names : List String)
  | size (n : Nat)
  | found (here anywhere : Option Binding) (value : Option Value)
  | removed (b : Option Binding)
  | frame (facts : FrameFacts)
  | same (b : Bool)
  | promise (p : Promise)
  | mask (m : Mask) (value : Option Value)
  | items (items : List Item)
  | levels (depths : List Nat) (failure : Option Error) (popped after : Nat)
  | depth (n : Nat)
  | settings (maxDepth : Nat) (trace : Bool)
  | head (h : CallHead)
  | slots (slots : List Slot)
  | capture (c : Capture Tree)
  | captures (cs : List (Named (Capture Tree)))
  | treeFacts (facts : TreeFacts)
  | valueFacts (facts : ValueFacts)
  | equal (b : Bool)

structure Answer where
  reply : Reply
  events : List Event
  log : List Log.Record

end Quotation.Session
