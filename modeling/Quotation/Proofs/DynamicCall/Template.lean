import Quotation.Proofs.CallBuilding
import Quotation.Proofs.DynamicCall.Items

namespace Quotation

theorem CallArg.slots_ofItem (i : Item) :
    (CallArg.ofItem i).slots = (Tree.ofValue i.val).map fun t => [⟨i.name, t⟩] := by
  obtain ⟨name, v⟩ := i
  cases name <;> exact bind_pure_comp _ _

theorem Named.list_ext {α : Type} {l l' : List (Named α)}
    (hnames : l.map Named.name = l'.map Named.name) (hvals : l.map Named.val = l'.map Named.val) :
    l = l' := by
  induction l generalizing l' with
  | nil => cases l' <;> simp_all
  | cons a rest ih =>
    obtain _ | ⟨b, rest'⟩ := l'
    · cases hnames
    · simp only [List.map_cons, List.cons.injEq] at hnames hvals
      obtain ⟨_, _⟩ := a
      obtain ⟨_, _⟩ := b
      obtain ⟨⟨rfl⟩, hnames⟩ := hnames
      obtain ⟨⟨rfl⟩, hvals⟩ := hvals
      rw [ih hnames hvals]

theorem Renders.cons_iff {slots : List Slot} {i : Item} {items : List Item} :
    Renders True slots (i :: items) ↔ ∃ t rest, slots = ⟨i.name, t⟩ :: rest ∧
      Tree.ofValue i.val = .ok t ∧ Renders True rest items := by
  constructor
  · rintro ⟨hnames, htrees⟩
    obtain _ | ⟨⟨name, t⟩, rest⟩ := slots
    · cases hnames
    · have hall := htrees.1 trivial
      simp only [List.map_cons, List.cons.injEq] at hnames hall
      obtain ⟨rfl, hnames⟩ := hnames
      exact ⟨t, rest, rfl, hall.1, hnames, by simp [hall.2]⟩
  · rintro ⟨t, rest, rfl, ht, hnames, htrees⟩
    exact ⟨by simp [hnames], by simp [ht, ← htrees]⟩

theorem Renders.faithful_iff {p : Prop} {slots slots' : List Slot} {items : List Item}
    (h : Renders p slots items) (h' : Renders True slots' items) : p ↔ slots' = slots := by
  rw [h.trees, h'.trees.1 trivial]
  constructor
  · intro htrees
    have hvals : slots'.map Named.val = slots.map Named.val := by
      refine (List.map_inj_right fun _ _ => Except.ok.inj (ε := Error)).1 ?_
      rw [List.map_map, List.map_map]
      exact htrees
    exact Named.list_ext (h'.names.symm.trans h.names) hvals
  · rintro rfl
    rfl

theorem Renders.not_of_unrenderable {p : Prop} {slots : List Slot} {items : List Item}
    (h : Renders p slots items) (hnone : Unrenderable items) : ¬ p := by
  intro hp
  obtain ⟨i, hi, e, he⟩ := hnone
  have hmem : (Except.error e : Except Error Tree) ∈ items.map fun i => Tree.ofValue i.val :=
    List.mem_map.2 ⟨i, hi, he⟩
  rw [h.trees.1 hp, List.mem_map] at hmem
  obtain ⟨_, _, ⟨⟩⟩ := hmem

theorem unobserving_of_literals {eng : Engine} {ev : Evaluator} {env : FrameId}
    {mask : Option Mask} (hev : LiteralsStand ev) {requests : List Request}
    (h : ∀ r ∈ requests, ∀ e, r.query.operand? = some e → ∃ v, e = .literal v) (s : State) :
    Unobserving eng ev env mask requests s := by
  induction requests generalizing s with
  | nil => trivial
  | cons r rest ih =>
    obtain ⟨hr, hrest⟩ := List.forall_mem_cons.1 h
    refine ⟨fun e he => ?_, fun _ t _ => ih hrest t⟩
    obtain ⟨v, rfl⟩ := hr e he
    rw [hev.eq_pure]
    exact .pure v

theorem Renders.allSlots {slots : List Slot} {items : List Item} (h : Renders True slots items) :
    CallArg.allSlots (items.map CallArg.ofItem) = .ok slots := by
  induction items generalizing slots with
  | nil =>
    obtain rfl : slots = [] := by simpa using h.names.symm
    rfl
  | cons i rest ih =>
    obtain ⟨t, slots, rfl, ht, hrest⟩ := Renders.cons_iff.1 h
    refine CallArg.allSlots_cons_eq_ok_iff.2 ⟨[⟨i.name, t⟩], slots, ?_, ih hrest, rfl⟩
    rw [CallArg.slots_ofItem, ht]
    rfl

theorem Unrenderable.allSlots {items : List Item} (h : Unrenderable items) (slots : List Slot) :
    CallArg.allSlots (items.map CallArg.ofItem) ≠ .ok slots := by
  induction items generalizing slots with
  | nil =>
    obtain ⟨_, ⟨⟩, _⟩ := h
  | cons i rest ih =>
    intro hslots
    rw [List.map_cons, CallArg.allSlots_cons_eq_ok_iff] at hslots
    obtain ⟨here, there, hhere, hthere, -⟩ := hslots
    obtain ⟨j, _ | ⟨_, hj⟩, e, he⟩ := h
    · rw [CallArg.slots_ofItem, he] at hhere
      cases hhere
    · exact ih ⟨j, hj, e, he⟩ there hthere

section

variable {eng : Engine} {ev : Evaluator} {env : FrameId} {mask : Option Mask} {f : String}
  {slots : List Slot} {s : State}

theorem resolve_finishedCall (h : Slot.anyMarkers slots = false) :
    resolve eng ev (.call (.reference f) slots) env mask s =
      .ok (.call (.reference f) slots) (s.resolving (.call (.reference f) slots)) := by
  rw [resolve, Eval.bind_apply, Eval.debug_apply, Outcome.follow_ok_eval, resolveTree, h]
  rfl

theorem resolve_markedCall (h : Slot.anyMarkers slots = true) :
    resolve eng ev (.call (.reference f) slots) env mask s =
      if s.depth < eng.maxDepth then
        Outcome.follow (resolveSlots eng ev env mask slots
            ((s.resolving (.call (.reference f) slots)).mapDepth (· + 1)))
          (fun slots t => .ok (.call (.reference f) slots) (t.mapDepth (· - 1)))
          fun t => t.mapDepth (· - 1)
      else .error (.failed (.stackOverflow (s.depth + 1) eng.maxDepth))
        (s.resolving (.call (.reference f) slots)) := by
  have hslots : ∀ u, (resolveTree eng ev env mask (.reference f) >>= fun head =>
      resolveSlots eng ev env mask slots >>= fun args => pure (Tree.call head args)) u =
        Outcome.follow (resolveSlots eng ev env mask slots u)
          (fun args t => .ok (.call (.reference f) args) t) id := by
    intro u
    change (resolveSlots eng ev env mask slots >>= fun args =>
      pure (Tree.call (.reference f) args)) u = _
    rw [Eval.bind_apply]
    rfl
  rw [resolve, Eval.bind_apply, Eval.debug_apply, Outcome.follow_ok_eval, resolveTree, h]
  simp only [Bool.or_true, if_true, Eval.nested_apply, hslots]
  change (if s.depth < eng.maxDepth then _ else _) = _
  split
  · change Outcome.follow (Outcome.follow (resolveSlots eng ev env mask slots
      ((s.resolving (.call (.reference f) slots)).mapDepth (· + 1))) _ id) _ _ = _
    cases resolveSlots eng ev env mask slots
      ((s.resolving (.call (.reference f) slots)).mapDepth (· + 1)) <;> rfl
  · rfl

end

section

variable {eng : Engine} {ev : Evaluator} {items : List Item} {env : FrameId} {s : State}

theorem buildCall_items (hev : LiteralsStand ev) (f : String) {slots : List Slot}
    (h : Renders True slots items) (hdepth : items ≠ [] → s.depth < eng.maxDepth) :
    ∃ u, buildCall eng ev (.name f) (items.map CallArg.ofItem) env s =
      .ok (.call (.reference f) slots) u ∧ u.Deeper 0 s := by
  have hhead : (CallHead.name f).toTree.hasMarkers = false := rfl
  obtain ⟨u, hu, hbuilt⟩ := buildCall_eq hev hhead (items.map CallArg.ofItem) env
    fun hargs => hdepth fun hnil => hargs (hnil ▸ rfl)
  rw [h.allSlots] at hbuilt
  exact ⟨u, hbuilt, hu⟩

theorem buildCall_unrenderable (hev : LiteralsStand ev) (f : String) (h : Unrenderable items)
    (t : Tree) (u : State) :
    buildCall eng ev (.name f) (items.map CallArg.ofItem) env s ≠ .ok t u := by
  intro hbuilt
  obtain ⟨slots, hslots, -⟩ := buildCall_eq_ok hev rfl hbuilt
  exact h.allSlots slots hslots

end

end Quotation
