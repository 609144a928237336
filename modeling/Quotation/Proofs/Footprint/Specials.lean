import Quotation.Proofs.Footprint.Native

namespace Quotation

variable {F : FrameId → Prop}

structure Located (F : FrameId → Prop) (env : FrameId) (mask : Option Mask) : Prop where
  env : F env
  mask : Mask.Native F mask

theorem Located.unmasked {env : FrameId} (h : F env) : Located F env none :=
  ⟨h, Mask.native_none⟩

structure SpecialCall.Native (F : FrameId → Prop) (call : SpecialCall) : Prop where
  args : ∀ slot ∈ call.args, slot.val.Native F
  place : Located F call.env call.mask

def Demand.Native (F : FrameId → Prop) : Demand → Prop
  | .evaluate t env mask => t.Native F ∧ Located F env mask
  | .force _ => False
  | .arguments args env mask => (∀ slot ∈ args, slot.val.Native F) ∧ Located F env mask
  | .resolve t env mask => t.Native F ∧ Located F env mask
  | .capture env _ => F env
  | .captureDots env => F env
  | .perform _ _ => False

def Capture.Native (F : FrameId → Prop) (c : Capture Tree) : Prop := c.tree.Native F ∧ F c.env

abbrev CapturesNative (F : FrameId → Prop) (cs : List (Named (Capture Tree))) : Prop :=
  ∀ c ∈ cs, c.val.Native F

def Demand.AnswerNative (F : FrameId → Prop) : (d : Demand) → d.Answer → Prop
  | .evaluate _ _ _, v => Value.Native F v
  | .force _, v => Value.Native F v
  | .arguments _ _ _, items => Item.AllNative F items
  | .resolve _ _ _, t => Tree.Native F t
  | .capture _ _, c => Capture.Native F c
  | .captureDots _, cs => CapturesNative F cs
  | .perform _ _, v => Value.Native F v

namespace Routine

variable {α β : Type} {good : α → Prop} {good' : β → Prop}

def Asks (F : FrameId → Prop) (good : α → Prop) : Routine α → Prop
  | .done a => good a
  | .fail _ => True
  | .ask d next =>
    d.Native F ∧ ∀ r, (∀ a, r = .ok a → d.AnswerNative F a) → (next r).Asks F good
  | .inspect _ => False
  | .newFrame _ _ _ => False
  | .newPromise _ _ _ _ => False
  | .rebind _ _ _ _ => False
  | .identity _ => False
  | .depth _ => False

theorem Asks.bind {r : Routine α} {f : α → Routine β} (hr : r.Asks F good)
    (hf : ∀ a, good a → (f a).Asks F good') : (r.bind f).Asks F good' := by
  induction r with
  | done a => exact hf a hr
  | fail e => trivial
  | ask d next ih => exact ⟨hr.1, fun r ha => ih r (hr.2 r ha)⟩
  | _ => exact hr.elim

theorem Asks.ofExcept {x : Except Error α} (hx : Gives good x) :
    (Routine.ofExcept x).Asks F good := by
  cases x with
  | error e => trivial
  | ok a => exact hx a rfl

theorem Asks.demand {d : Demand} (hd : d.Native F) : (demand d).Asks F (d.AnswerNative F) :=
  ⟨hd, fun _ ha => .ofExcept ha⟩

variable {t : Tree} {env : FrameId} {mask : Option Mask}

theorem Asks.evaluate (ht : t.Native F) (hplace : Located F env mask) :
    (evaluate t env mask).Asks F (Value.Native F) :=
  .demand (d := .evaluate t env mask) ⟨ht, hplace⟩

theorem Asks.resolve (ht : t.Native F) (hplace : Located F env mask) :
    (resolve t env mask).Asks F (Tree.Native F) :=
  .demand (d := .resolve t env mask) ⟨ht, hplace⟩

end Routine

namespace Special

open Routine

variable {call : SpecialCall}

theorem arguments_asks (hcall : call.Native F) :
    (Routine.arguments call.args call.env call.mask).Asks F (Item.AllNative F) :=
  .demand (d := .arguments call.args call.env call.mask) ⟨hcall.args, hcall.place⟩

theorem quote_asks (hcall : call.Native F) : (quote call).Asks F (Value.Native F) :=
  (Asks.ofExcept (call.single_mem _)).bind fun slot hslot =>
    (Asks.resolve (hcall.args slot hslot) hcall.place).bind fun _ ht => ht

theorem quo_asks (hcall : call.Native F) : (quo call).Asks F (Value.Native F) :=
  (Asks.ofExcept (call.single_mem _)).bind fun slot hslot =>
    (Asks.resolve (hcall.args slot hslot) hcall.place).bind fun _ ht => ⟨ht, hcall.place.env⟩

theorem capturedParameter_asks (hcall : call.Native F) :
    (capturedParameter call).Asks F (Capture.Native F) := by
  refine (Asks.ofExcept (Gives.trivial _)).bind fun slot _ => ?_
  cases slot.val.asReference? with
  | none => trivial
  | some name =>
    refine (Asks.demand (d := .capture call.env name) hcall.place.env).bind fun c hc => ?_
    exact (Asks.resolve hc.1 (.unmasked hc.2)).bind fun t ht => ⟨ht, hc.2⟩

theorem enexpr_asks (hcall : call.Native F) : (enexpr call).Asks F (Value.Native F) :=
  (capturedParameter_asks hcall).bind fun _ hc => hc.1

theorem enquo_asks (hcall : call.Native F) : (enquo call).Asks F (Value.Native F) :=
  (capturedParameter_asks hcall).bind fun _ hc => hc

theorem ensym_asks (hcall : call.Native F) : (ensym call).Asks F (Value.Native F) := by
  refine (capturedParameter_asks hcall).bind fun c hc => ?_
  split
  · exact hc.1
  · trivial

theorem resolveCaptures_asks {captures : List (Named (Capture Tree))}
    (hcaptures : CapturesNative F captures) :
    (resolveCaptures captures).Asks F (CapturesNative F) := by
  induction captures with
  | nil => exact fun _ h => nomatch h
  | cons c rest ih =>
    obtain ⟨hc, hrest⟩ := List.forall_mem_cons.1 hcaptures
    have hslot : (Tree.pairlist [⟨c.name, c.val.tree⟩]).Native F := ⟨hc.1, trivial⟩
    refine (Asks.resolve hslot (.unmasked hc.2)).bind fun t ht => ?_
    have hslots : ∀ slot ∈ t.slots?.getD [], slot.val.Native F := by
      cases t with
      | call head args => exact Slot.allNative_iff.1 ht.2
      | pairlist args => exact Slot.allNative_iff.1 ht
      | _ => exact fun _ h => nomatch h
    refine (ih hrest).bind fun more hmore => List.forall_mem_append.2 ⟨?_, hmore⟩
    exact List.forall_mem_map.2 fun slot hmem => ⟨hslots slot hmem, hc.2⟩

theorem capturedDots_asks (hcall : call.Native F) :
    (capturedDots call).Asks F (CapturesNative F) := by
  unfold capturedDots
  split
  · trivial
  · exact (Asks.demand (d := .captureDots call.env) hcall.place.env).bind fun _ hcaptures =>
      resolveCaptures_asks hcaptures

theorem enexprs_asks (hcall : call.Native F) : (enexprs call).Asks F (Value.Native F) :=
  (capturedDots_asks hcall).bind fun _ hcaptures =>
    Item.allNative_iff.2 <| List.forall_mem_map.2 fun c hc => (hcaptures c hc).1

theorem enquos_asks (hcall : call.Native F) : (enquos call).Asks F (Value.Native F) :=
  (capturedDots_asks hcall).bind fun _ hcaptures =>
    Item.allNative_iff.2 <| List.forall_mem_map.2 fun c hc => hcaptures c hc

theorem tidyMask_asks (hcall : call.Native F) {data : Option Slot}
    (hdata : ∀ slot, data = some slot → slot ∈ call.args) :
    (tidyMask call data).Asks F (Mask.Native F) := by
  cases data with
  | none => exact Mask.native_none
  | some slot =>
    exact (Asks.evaluate (hcall.args slot (hdata slot rfl)) hcall.place).bind fun v hv =>
      .ofExcept ((hereditary_native F).dataMask hv)

theorem evalTidy_asks (hcall : call.Native F) : (evalTidy call).Asks F (Value.Native F) := by
  refine (Asks.ofExcept (tidyArguments_mem call)).bind fun parts hparts => ?_
  refine (tidyMask_asks hcall hparts.2).bind fun mask hmask => ?_
  refine (Asks.evaluate (hcall.args _ hparts.1) hcall.place).bind fun v hv => ?_
  cases v with
  | tree t => exact .evaluate hv ⟨hcall.place.env, hmask⟩
  | capture c => exact .evaluate hv.1 ⟨hv.2, hmask⟩
  | _ => exact hv

theorem call2_asks (hcall : call.Native F) : (call2 call).Asks F (Value.Native F) := by
  refine (arguments_asks hcall).bind fun items hitems => ?_
  cases items with
  | nil => trivial
  | cons first rest =>
    obtain ⟨hfirst, hrest⟩ := hitems
    refine (Asks.ofExcept ((hereditary_native F).callHead hfirst)).bind fun head hhead => ?_
    have htemplate := (hereditary_native F).template hhead (Item.allNative_iff.1 hrest)
    exact (Asks.resolve htemplate (.unmasked hcall.place.env)).bind fun _ ht => ht

theorem list2_asks (hcall : call.Native F) : (list2 call).Asks F (Value.Native F) :=
  (arguments_asks hcall).bind fun _ hitems => hitems

theorem Op.routine_asks (host : String → SpecialCall → Routine Value) {op : Op}
    (hop : op ∈ Prelude.specials) (hcall : call.Native F) :
    (op.routine host call).Asks F (Value.Native F) := by
  cases op with
  | quote | expr => exact quote_asks hcall
  | quo => exact quo_asks hcall
  | enexpr => exact enexpr_asks hcall
  | enquo => exact enquo_asks hcall
  | ensym => exact ensym_asks hcall
  | enexprs => exact enexprs_asks hcall
  | enquos => exact enquos_asks hcall
  | evalTidy => exact evalTidy_asks hcall
  | call2 => exact call2_asks hcall
  | list2 => exact list2_asks hcall
  | host name => exact absurd rfl (Prelude.mem_specials_iff.1 hop name)

end Special

end Quotation
