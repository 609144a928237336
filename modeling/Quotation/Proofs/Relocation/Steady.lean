import Quotation.Proofs.Relocation.Engine
import Quotation.Proofs.SpecialCall

namespace Quotation.Relocation

variable {eng : Engine} {α β : Type}

class Steady (L : Relocation eng) : Prop where
  up : ∀ f, L.up f = f
  frame : ∀ f, L.frame f
  promise : ∀ p, L.promise p
  value : ∀ v, L.value v
  refl : ∀ t f m, L.place t f m f m
  env : ∀ {t f m f' m'}, L.place t f m f' m' → f' = f
  mask : ∀ {t f m f' m'}, L.place t f m f' m' → t.hasMarkers = true → m' = m
  aside : ∀ {f' f b}, ¬ L.aside f' f b

abbrev Agree (L : Relocation eng) (x y : Eval α) : Prop := L.Related (Same fun _ => True) x y

variable {L : Relocation eng}

namespace Agree

variable {x y : Eval α}

theorem pure (a : α) : L.Agree (Pure.pure a) (Pure.pure a) := .same trivial

theorem ofExcept (r : Except Error α) : L.Agree (Eval.ofExcept r) (Eval.ofExcept r) := by
  cases r with
  | error e => exact .fail e
  | ok a => exact .pure a

theorem bind {f g : α → Eval β} (hxy : L.Agree x y) (hfg : ∀ a, L.Agree (f a) (g a)) :
    L.Agree (x >>= f) (y >>= g) := Related.andThen hxy fun a _ => hfg a

theorem ofSame {P : α → Prop} (hxy : L.Related (Same P) x y) : L.Agree x y :=
  hxy.mono fun _ _ h => ⟨h.1, trivial⟩

theorem attempt (hxy : L.Agree x y) : L.Agree x.attempt y.attempt := by
  intro s s' hs
  have hends := hxy s s' hs
  simp only [Eval.attempt_apply]
  generalize x s = r at hends ⊢
  generalize y s' = r' at hends ⊢
  cases hends with
  | ok h hs =>
    obtain ⟨rfl, -⟩ := h
    exact .ok ⟨rfl, trivial⟩ hs
  | @error halt _ _ hs =>
    cases halt with
    | failed e => exact .ok ⟨rfl, trivial⟩ hs
    | outOfFuel => exact .error hs

end Agree

section

variable [L.Steady] {ev ev' : Evaluator} {f f' : FrameId} {m m' : Option Mask} {h h' : Heap}
  {name : String}

namespace Steady

theorem binding (b : Binding) : L.binding b := by
  cases b with
  | value v => exact value v
  | promise p => exact promise p
  | dots args => exact fun a _ => promise a.val
  | missing => trivial

theorem up_eq : L.up = id := funext up

theorem frame_eq (ha : L.Alike h h') (f : FrameId) : h'.frame f = h.frame f := by
  have hframe := ha.frame f (frame f)
  rw [up_eq, Frame.reframe, List.map_id] at hframe
  exact hframe

theorem size_frames_eq (ha : L.Alike h h') : h'.frames.size = h.frames.size :=
  ha.counts.next.symm.trans (up _)

theorem alike_iff : L.Alike h h' ↔
    (h'.frames.size = h.frames.size ∧ ∀ f, h'.frame f = h.frame f) ∧
      h'.promises.size = h.promises.size ∧
        (∀ p, L.AlikePromises (L.ahead p) (h.promise p) (h'.promise p)) ∧
          ∀ p, L.ahead p → p < h.promises.size := by
  constructor
  · exact fun ha => ⟨⟨size_frames_eq ha, frame_eq ha⟩, ha.promises,
      fun p => ha.promise p (promise p), ha.ahead⟩
  · rintro ⟨⟨hsize, hframe⟩, hpromises, hpromise, hahead⟩
    refine ⟨⟨fun f hf => ?_, fun i => ?_⟩, fun f _ => frame f, fun p _ => promise p, hpromises,
      fun f _ => ?_, fun f _ g _ => frame g, fun _ _ _ b _ => binding b, fun p _ => hpromise p,
      hahead, fun _ _ _ h => absurd h aside⟩
    · rw [up]
      exact hsize ▸ hf
    · rw [up, hsize]
    · rw [up, hframe, up_eq, Frame.reframe, List.map_id]

theorem binding?_eq (ha : L.Alike h h') : h'.binding? f name = h.binding? f name := by
  rw [Heap.binding?, frame_eq ha]
  rfl

theorem callFrame?_eq (ha : L.Alike h h') : h'.callFrame? f = h.callFrame? f := by
  simp only [Heap.callFrame?, Heap.chain, frame_eq ha]

end Steady

theorem RelatedEvaluators.stay (hev : L.RelatedEvaluators ev ev') (t : Tree) :
    L.Agree (ev t f m) (ev' t f m) := .ofSame (hev (Steady.refl t f m))

theorem resolveUnquote_related (hev : L.RelatedEvaluators ev ev') (e : Tree) :
    L.Agree (resolveUnquote eng ev e f m) (resolveUnquote eng ev' e f m) :=
  (hev.stay e).bind fun _ => (Agree.ofExcept _).bind fun t =>
    Agree.bind (.trace _ _) fun _ => .pure t

theorem resolveSplice_related (hev : L.RelatedEvaluators ev ev') (e : Tree) :
    L.Agree (resolveSplice eng ev e f m) (resolveSplice eng ev' e f m) :=
  (hev.stay e).bind fun _ => (Agree.ofExcept _).bind fun slots =>
    Agree.bind (.trace _ _) fun _ => .pure slots

theorem resolveName_related (hev : L.RelatedEvaluators ev ev') (n : Tree) :
    L.Agree (resolveName ev n f m) (resolveName ev' n f m) :=
  (hev.stay n).bind fun _ => .ofExcept _

theorem resolve_parts_related (hev : L.RelatedEvaluators ev ev') :
    (∀ t, L.Agree (resolveTree eng ev f m t) (resolveTree eng ev' f m t)) ∧
      (∀ l, L.Agree (resolveSlots eng ev f m l) (resolveSlots eng ev' f m l)) ∧
      ∀ slot, L.Agree (resolveSlot eng ev f m slot) (resolveSlot eng ev' f m slot) := by
  refine resolveTree.mutual_induct _ _ _ ?literal ?reference ?call ?finishedCall ?pairlist
    ?finishedPairlist ?unquote ?splice ?define ?nil ?cons ?spliceSlot ?defineSplice ?defineSlot
    ?plainSlot
  case literal => exact fun _ => .pure _
  case reference => exact fun _ => .pure _
  case call =>
    intro head args hm hhead hargs
    simp only [resolveTree, hm, if_true]
    exact .nested (hhead.bind fun head => hargs.bind fun args => .pure _)
  case finishedCall =>
    intro head args hm
    simp only [resolveTree, hm]
    exact .pure _
  case pairlist =>
    intro args hm hargs
    simp only [resolveTree, hm, if_true]
    exact .nested (hargs.bind fun args => .pure _)
  case finishedPairlist =>
    intro args hm
    simp only [resolveTree, hm]
    exact .pure _
  case unquote => exact fun e => resolveUnquote_related hev e
  case splice => exact fun _ => .fail _
  case define => exact fun _ _ => .fail _
  case nil => exact .pure _
  case cons =>
    exact fun slot rest hslot hrest => hslot.bind fun here => hrest.bind fun there => .pure _
  case spliceSlot => exact fun _ e => resolveSplice_related hev e
  case defineSplice =>
    exact fun _ n e => (resolveName_related hev n).bind fun name =>
      (resolveSplice_related hev e).bind fun slots => .pure _
  case defineSlot =>
    intro _ n v hv ht
    rw [resolveSlot.eq_3 _ _ _ _ _ _ _ hv, resolveSlot.eq_3 _ _ _ _ _ _ _ hv]
    exact (resolveName_related hev n).bind fun name => ht.bind fun t => .pure _
  case plainSlot =>
    intro name t h₁ h₂ h₃ ht
    rw [resolveSlot.eq_4 _ _ _ _ _ _ h₁ h₂ h₃, resolveSlot.eq_4 _ _ _ _ _ _ h₁ h₂ h₃]
    exact ht.bind fun t => .pure _

theorem resolve_related (hev : L.RelatedEvaluators ev ev') {t : Tree} (ht : L.place t f m f' m') :
    L.Agree (resolve eng ev t f m) (resolve eng ev' t f' m') := by
  obtain rfl := Steady.env ht
  cases hm : t.hasMarkers with
  | true =>
    obtain rfl := Steady.mask ht hm
    exact Agree.bind (.debug _) fun _ => (resolve_parts_related hev).1 t
  | false =>
    intro s s' hs
    rw [resolve_of_noMarkers hm, resolve_of_noMarkers hm]
    exact .ok ⟨rfl, trivial⟩ (hs.record _)

theorem spliceItems_related (hev : L.RelatedEvaluators ev ev') (e : Tree) :
    L.Agree (spliceItems ev e f m) (spliceItems ev' e f m) :=
  (hev.stay e).bind fun _ => .ofExcept _

theorem evalInjected_related (hev : L.RelatedEvaluators ev ev') {t : Tree}
    (ht : L.place t f m f' m') :
    L.Agree (evalInjected eng ev f m t) (evalInjected eng ev' f' m' t) := by
  obtain rfl := Steady.env ht
  unfold evalInjected
  split
  · obtain rfl := Steady.mask ht rfl
    exact hev.stay _
  · split
    · rename_i hm
      obtain rfl := Steady.mask ht hm
      exact (resolve_related hev ht).bind fun t => hev.stay t
    · exact .ofSame (hev ht)

theorem evalDynamicSlot_related (hev : L.RelatedEvaluators ev ev') {slot : Slot}
    (ht : L.place slot.val f m f' m') :
    L.Agree (evalDynamicSlot eng ev f m slot) (evalDynamicSlot eng ev' f' m' slot) := by
  obtain rfl := Steady.env ht
  unfold evalDynamicSlot
  split
  · rename_i hval
    obtain rfl := Steady.mask ht (by rw [hval]; rfl)
    exact spliceItems_related hev _
  · rename_i n v hval
    obtain rfl := Steady.mask ht (by rw [hval]; rfl)
    refine (resolveName_related hev n).bind fun name => ?_
    cases v.spliced? with
    | some e => exact (spliceItems_related hev e).bind fun items => .pure _
    | none =>
      exact (evalInjected_related hev (Steady.refl v f' m')).bind fun v => .pure _
  · split
    · exact .ofSame (evalSlot_related hev ht)
    · exact (evalInjected_related hev ht).bind fun v => .pure _

theorem evalDynamicSlots_related (hev : L.RelatedEvaluators ev ev') {args : List Slot}
    (hargs : ∀ slot ∈ args, L.place slot.val f m f' m') :
    L.Agree (evalDynamicSlots eng ev f m args) (evalDynamicSlots eng ev' f' m' args) := by
  induction args with
  | nil => exact .pure _
  | cons slot rest ih =>
    obtain ⟨hslot, hrest⟩ := List.forall_mem_cons.1 hargs
    exact (evalDynamicSlot_related hev hslot).bind fun here => (ih hrest).bind fun there => .pure _

theorem capturePromise_related (p : PromiseId) : L.Agree (capturePromise p) (capturePromise p) := by
  intro s s' hs
  have hp := hs.heap.promise p (Steady.promise p)
  simp only [capturePromise, Eval.onHeap_apply, hp.expr, Steady.env hp.place]
  exact .ok ⟨rfl, trivial⟩ (hs.mapHeap (hs.heap.markCaptured p))

theorem captureAll_related (args : List (Named PromiseId)) :
    L.Agree (captureAll args) (captureAll args) := by
  induction args with
  | nil => exact .pure _
  | cons a rest ih =>
    exact (capturePromise_related a.val).bind fun c => ih.bind fun cs => .pure _

theorem captureParameter_related (f : FrameId) (name : String) :
    L.Agree (captureParameter f name) (captureParameter f name) := by
  refine Agree.bind (.debug _) fun _ => .heap fun h h' ha => ?_
  rw [Steady.callFrame?_eq ha]
  cases h.callFrame? f with
  | none => exact .fail _
  | some g =>
    dsimp only
    rw [Steady.binding?_eq ha]
    split
    · exact capturePromise_related _
    all_goals exact .fail _

theorem captureDots_related (f : FrameId) : L.Agree (captureDots f) (captureDots f) := by
  refine Agree.bind (.debug _) fun _ => .heap fun h h' ha => ?_
  rw [Steady.callFrame?_eq ha]
  cases h.callFrame? f with
  | none => exact .fail _
  | some g =>
    dsimp only
    rw [Steady.binding?_eq ha]
    split
    · exact captureAll_related _
    · exact .fail _

theorem answer_related (hev : L.RelatedEvaluators ev ev') (d : Demand) :
    L.Agree (answer eng ev d) (answer eng ev' d) := by
  cases d with
  | evaluate t f m => exact hev.stay t
  | force p => exact .ofSame (force_related hev (Steady.promise p))
  | arguments args f m => exact evalDynamicSlots_related hev fun slot _ => Steady.refl _ f m
  | resolve t f m => exact resolve_related hev (Steady.refl t f m)
  | capture f name => exact captureParameter_related f name
  | captureDots f => exact captureDots_related f
  | perform name args => exact .onWorld fun _ _ _ => trivial

theorem newFrame_related (parent : Option FrameId) (isCall : Bool) :
    L.Agree (Eval.onHeap (·.newFrame parent isCall)) (Eval.onHeap (·.newFrame parent isCall)) := by
  refine .onHeap fun h h' ha => ⟨⟨Steady.size_frames_eq ha, trivial⟩, ?_⟩
  refine ha.newFrame isCall ?_ fun g _ => Steady.frame g
  rw [Steady.up_eq, Option.map_id, id]

omit [L.Steady] in
theorem newPromise_related {expr : Tree} (ht : L.place expr f m f' m') :
    L.Agree (Eval.onHeap (·.newPromise { expr, env := f, mask := m }))
      (Eval.onHeap (·.newPromise { expr, env := f', mask := m' })) :=
  .onHeap fun _ _ ha => ⟨⟨ha.promises, trivial⟩, ha.newPromise ht⟩

theorem rebind_related (f : FrameId) (name : String) (b : Option Binding) :
    L.Agree (Eval.modifyHeap (·.rebind f name b)) (Eval.modifyHeap (·.rebind f name b)) := by
  refine .modifyHeap fun h h' ha => ?_
  have hrebind : L.Alike (h.rebind f name b) (h'.rebind (L.up f) name b) :=
    ha.rebind fun a _ => Steady.binding a
  rwa [Steady.up] at hrebind

end

end Quotation.Relocation
