import Quotation.Proofs.Guarded
import Quotation.Proofs.Relaying.Calls
import Quotation.Proofs.Substitution.Reference

namespace Quotation

namespace Outcome.Alike

variable {α β : Type} {k : Nat} {r₁ r₂ r₃ : Outcome α}

theorem trans_same (h : Alike k r₁ r₂) (h' : Alike 0 r₂ r₃) : Alike k r₁ r₃ := by
  cases h with
  | ok h =>
    cases h' with
    | ok h' => exact .ok (h.trans_same h')
  | error h =>
    cases h' with
    | error h' => exact .error (h.trans_same h')

theorem symm_same (h : Alike 0 r₁ r₂) : Alike 0 r₂ r₁ := by
  cases h with
  | ok h => exact .ok h.symm_same
  | error h => exact .error h.symm_same

theorem follow (h : Alike k r₁ r₂) {f g : α → State → Outcome β}
    (hok : ∀ a s₁ s₂, r₂ = .ok a s₂ → s₁.Deeper k s₂ → Alike k (f a s₁) (g a s₂)) :
    Alike k (r₁.follow f id) (r₂.follow g id) := by
  cases h with
  | ok h => exact hok _ _ _ rfl h
  | error h => exact .error h

theorem map {x y : Eval α} {s₁ s₂ : State} (h : Alike k (x s₁) (y s₂)) (g : α → β) :
    Alike k ((x >>= fun a => pure (g a)) s₁) ((y >>= fun a => pure (g a)) s₂) := by
  rw [Eval.bind_apply, Eval.bind_apply]
  exact h.follow fun a _ _ _ ht => .ok (a := g a) ht

end Outcome.Alike

theorem Lockstep.Related.alike {eng : Engine} {α : Type} {x : Eval α} {s₁ s₂ : State}
    (h : (Lockstep.unlogged eng).Related x x) (hs : s₁.Deeper 0 s₂) :
    Outcome.Alike 0 (x s₁) (x s₂) := by
  rcases h.same hs with ⟨a, t₁, t₂, h₁, h₂, ht⟩ | ⟨halt, t₁, t₂, h₁, h₂, ht⟩
  · rw [h₁, h₂]
    exact .ok ht
  · rw [h₁, h₂]
    exact .error ht

namespace Eval

variable {α β : Type} {m : Nat} {s : State}

theorem nested_pure (hs : s.depth < m) (a : α) : nested m (pure a) s = .ok a s := by
  rw [nested_apply, if_pos hs]
  rfl

theorem nested_bind {x : Eval α} {f : α → Eval β} (hs : s.depth < m)
    (hx : (Outcome.state (x (s.mapDepth (· + 1)))).depth = s.depth + 1) :
    nested m (x >>= f) s = (nested m x >>= fun a => nested m (f a)) s := by
  rw [bind_apply, nested_apply, nested_apply, if_pos hs, if_pos hs, bind_apply]
  cases hr : x (s.mapDepth (· + 1)) with
  | error h t => rfl
  | ok a t =>
    rw [hr] at hx
    have hdepth : t.depth = s.depth + 1 := hx
    have hback : (t.mapDepth (· - 1)).depth < m := by simpa [State.mapDepth, hdepth] using hs
    have hagain : (t.mapDepth (· - 1)).mapDepth (· + 1) = t := by
      change { t with depth := t.depth - 1 + 1 } = t
      rw [Nat.sub_add_cancel (by omega)]
    rw [Outcome.follow_ok, Outcome.follow_ok_eval, Outcome.follow_ok_eval, nested_apply,
      if_pos hback, hagain]

theorem nested_map {x : Eval α} {g : α → β} (hs : s.depth < m)
    (hx : (Outcome.state (x (s.mapDepth (· + 1)))).depth = s.depth + 1) :
    nested m (x >>= fun a => pure (g a)) s = (nested m x >>= fun a => pure (g a)) s := by
  rw [nested_bind hs hx, bind_apply, bind_apply, nested_apply, if_pos hs]
  cases hr : x (s.mapDepth (· + 1)) with
  | error h t => rfl
  | ok a t =>
    rw [hr] at hx
    have hdepth : t.depth = s.depth + 1 := hx
    exact nested_pure (by simpa [State.mapDepth, hdepth] using hs) _

end Eval

section

variable {eng : Engine} {ev : Evaluator} {env : FrameId} {mask : Option Mask} {s s₁ s₂ : State}

theorem resolveSlot_of_noMarkers {slot : Slot} (h : slot.val.hasMarkers = false) :
    resolveSlot eng ev env mask slot = pure [slot] := by
  obtain ⟨name, t⟩ := slot
  cases t with
  | unquote e | splice e | define n v => cases h
  | literal v | reference name => rfl
  | call head args | pairlist args =>
    rw [resolveSlot, resolveTree_of_noMarkers h]
    · rfl
    all_goals simp

theorem resolveSlots_of_noMarkers {slots : List Slot} (h : Slot.anyMarkers slots = false) :
    resolveSlots eng ev env mask slots = pure slots := by
  induction slots with
  | nil => rfl
  | cons slot rest ih =>
    obtain ⟨hslot, hrest⟩ := Bool.or_eq_false_iff.1 h
    rw [resolveSlots, resolveSlot_of_noMarkers hslot, ih hrest]
    rfl

theorem resolveSlots_singleton (slot : Slot) :
    resolveSlots eng ev env mask [slot] = resolveSlot eng ev env mask slot := by
  simp only [resolveSlots, pure_bind, List.append_nil, bind_pure]

def resolveNested (eng : Engine) (ev : Evaluator) (env : FrameId) (mask : Option Mask)
    (slots : List Slot) : Eval (List Slot) :=
  Eval.nested eng.maxDepth (resolveSlots eng ev env mask slots)

theorem resolveNested_related (hlog : IgnoresLog eng ev) (slots : List Slot) :
    (Lockstep.unlogged eng).Related (resolveNested eng ev env mask slots)
      (resolveNested eng ev env mask slots) :=
  .nested ((resolve_parts_related hlog env mask).2.1 slots)

variable (hlevel : KeepsLevel eng ev)

include hlevel

theorem resolveNested_depth (slots : List Slot) (s : State) :
    (Outcome.state (resolveNested eng ev env mask slots s)).depth = s.depth :=
  (Lockstep.Related.nested ((resolve_parts_related hlevel env mask).2.1 slots)).depth_eq s

theorem resolveNested_cons (slot : Slot) (rest : List Slot) (hs : s.depth < eng.maxDepth) :
    resolveNested eng ev env mask (slot :: rest) s =
      (do
        let here ← resolveNested eng ev env mask [slot]
        let there ← resolveNested eng ev env mask rest
        return here ++ there : Eval (List Slot)) s := by
  obtain ⟨-, hslots, hslot⟩ := resolve_parts_related hlevel env mask
  have hdepth : (Outcome.state (resolveNested eng ev env mask [slot] s)).depth = s.depth :=
    resolveNested_depth hlevel [slot] s
  rw [resolveNested, resolveSlots, Eval.nested_bind hs ((hslot slot).depth_eq _),
    ← resolveSlots_singleton, Eval.bind_apply, Eval.bind_apply]
  change Outcome.follow (resolveNested eng ev env mask [slot] s) _ _ = _
  cases hr : resolveNested eng ev env mask [slot] s with
  | error h t => rfl
  | ok here t =>
    rw [hr] at hdepth
    have ht : t.depth < eng.maxDepth := Nat.lt_of_le_of_lt (Nat.le_of_eq hdepth) hs
    exact Eval.nested_map ht ((hslots rest).depth_eq _)

variable (hlog : IgnoresLog eng ev)

include hlog

theorem resolve_pairlist_alike (env : FrameId) (mask : Option Mask) (slots : List Slot)
    (hdepth : s₂.depth < eng.maxDepth)
    (hs : s₁.Deeper 0 s₂) :
    Outcome.Alike 0 (resolve eng ev (.pairlist slots) env mask s₁)
      ((resolveNested eng ev env mask slots >>= fun l => pure (Tree.pairlist l)) s₂) := by
  let record : Log.Record := ⟨.debug, "resolve " ++ (Tree.pairlist slots).text⟩
  have hrecorded : (s₁.record record).Deeper 0 s₂ := ⟨hs.heap, hs.world, hs.depth⟩
  cases hm : Slot.anyMarkers slots with
  | false =>
    have hfinished : (Tree.pairlist slots).hasMarkers = false := hm
    rw [resolve_of_noMarkers hfinished, resolveNested, resolveSlots_of_noMarkers hm,
      Eval.bind_apply, Eval.nested_pure hdepth]
    exact .ok hrecorded
  | true =>
    have hresolve : resolve eng ev (.pairlist slots) env mask s₁ =
        Eval.nested eng.maxDepth (do
          let l ← resolveSlots eng ev env mask slots
          return Tree.pairlist l) (s₁.record record) := by
      rw [resolve, Eval.bind_apply, Eval.debug_apply, Outcome.follow_ok_eval, resolveTree, hm]
      rfl
    have hdepth' := Nat.lt_of_le_of_lt (Nat.le_of_eq hrecorded.depth) hdepth
    have hkeeps := (resolve_parts_related hlevel env mask).2.1 slots
    rw [hresolve, Eval.nested_map hdepth' (hkeeps.depth_eq _)]
    exact ((resolveNested_related hlog slots).bind fun l => .pure _).alike hrecorded

theorem resolveCaptures_alike (env : FrameId) (slots : List Slot)
    (hdepth : s₂.depth < eng.maxDepth) (hs : s₁.Deeper 0 s₂) :
    Outcome.Alike 0 (runRoutine eng ev (Special.resolveCaptures (capturesIn env slots)) s₁)
      ((resolveNested eng ev env none slots >>= fun l => pure (capturesIn env l)) s₂) := by
  induction slots generalizing s₁ s₂ with
  | nil =>
    rw [resolveNested, resolveSlots, Eval.bind_apply, Eval.nested_pure hdepth]
    exact .ok hs
  | cons slot rest ih =>
    have hleft : runRoutine eng ev (Special.resolveCaptures (capturesIn env (slot :: rest))) = do
        let t ← resolve eng ev (.pairlist [slot]) env none
        let more ← runRoutine eng ev (Special.resolveCaptures (capturesIn env rest))
        return capturesIn env (t.slots?.getD []) ++ more := by
      refine (runRoutine_bind (Routine.resolve _ env none) _).trans ?_
      refine congr (congrArg bind (runRoutine_demand (.resolve _ env none))) (funext fun t => ?_)
      exact runRoutine_bind _ _
    have hright : (resolveNested eng ev env none (slot :: rest) >>= fun l =>
        pure (capturesIn env l)) s₂ =
        (do
          let t ← resolveNested eng ev env none [slot] >>= fun l => pure (Tree.pairlist l)
          let more ← resolveNested eng ev env none rest >>= fun l => pure (capturesIn env l)
          return capturesIn env (t.slots?.getD []) ++ more : Eval _) s₂ := by
      rw [Eval.bind_apply, resolveNested_cons hlevel slot rest hdepth, ← Eval.bind_apply]
      simp only [bind_assoc, pure_bind, capturesIn, List.map_append]
      rfl
    rw [hleft, hright, Eval.bind_apply, Eval.bind_apply]
    refine (resolve_pairlist_alike hlevel hlog env none [slot] hdepth hs).follow
      fun t u₁ u₂ hu hsame => ?_
    have hdepth' : u₂.depth < eng.maxDepth := by
      obtain ⟨l, w, hl, ⟨⟩⟩ := Eval.bind_eq_ok.1 hu
      have hkept : (Outcome.state (resolveNested eng ev env none [slot] s₂)).depth = s₂.depth :=
        resolveNested_depth hlevel [slot] s₂
      rw [hl] at hkept
      exact Nat.lt_of_le_of_lt (Nat.le_of_eq hkept) hdepth
    rw [Eval.bind_apply, Eval.bind_apply]
    exact (ih hdepth' hsame).follow fun more w₁ w₂ _ hsame => .ok hsame

def Value.ofCaptures (captures : List (Named (Capture Tree))) : Value :=
  .list (captures.map (Named.map fun c => .tree c.tree))

def Tree.elements (t : Tree) : Value := .list ((t.slots?.getD []).map (Named.map .tree))

theorem resolveCaptures_elements (env : FrameId) (slots : List Slot)
    (hdepth : s₂.depth < eng.maxDepth) (hs : s₁.Deeper 0 s₂) :
    Outcome.Alike 0
      ((runRoutine eng ev (Special.resolveCaptures (capturesIn env slots)) >>= fun captures =>
        pure (Value.ofCaptures captures)) s₁)
      ((resolve eng ev (.pairlist slots) env none >>= fun t => pure t.elements) s₂) := by
  let once : Eval Value := resolveNested eng ev env none slots >>= fun l =>
    pure (.list (l.map (Named.map .tree)))
  have hcaptures : once = resolveNested eng ev env none slots >>= (fun l =>
      pure (capturesIn env l)) >>= fun captures => pure (Value.ofCaptures captures) := by
    simp only [once, bind_assoc, pure_bind, Value.ofCaptures, capturesIn, List.map_map]
    rfl
  have hpairlist : once = resolveNested eng ev env none slots >>= (fun l =>
      pure (Tree.pairlist l)) >>= fun t => pure t.elements := by
    simp only [once, bind_assoc, pure_bind]
    rfl
  have hleft := (resolveCaptures_alike hlevel hlog env slots hdepth hs).map Value.ofCaptures
  have hright := (resolve_pairlist_alike hlevel hlog env none slots hdepth (.refl s₂)).map
    Tree.elements
  rw [← hcaptures] at hleft
  rw [← hpairlist] at hright
  exact hleft.trans_same hright.symm_same

end

end Quotation
