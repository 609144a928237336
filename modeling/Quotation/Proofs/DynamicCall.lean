import Quotation.Proofs.DynamicCall.Template
import Quotation.Proofs.SpecialCall
import Quotation.Session.Host

namespace Quotation

section

variable {eng : Engine} {fuel : Nat} {env : FrameId} {mask : Option Mask} {f : String}
  {slots : List Slot} {s : State} {i : Identity}

theorem quoted_call (hquote : s.heap.function? env mask "quote" = some (.special ⟨.quote, i⟩))
    (hmarkers : slots = [] ∨ Slot.anyMarkers slots = true)
    (hblind : (resolveSlots eng (evaluate eng fuel) env mask slots).LevelBlind (s.mapDepth (· + 1)))
    (hlimit : ¬ Outcome.HitsLimit (evaluate eng (fuel + 1)
      (.callNamed "quote" [.call (.reference f) slots]) env mask s)) :
    (∃ slots' t u,
      resolveSlots eng (evaluate eng fuel) env mask slots (s.mapDepth (· + 1)) = .ok slots' t ∧
        evaluate eng (fuel + 1) (.callNamed "quote" [.call (.reference f) slots]) env mask s =
          .ok (.tree (.call (.reference f) slots')) u ∧
        u.Deeper 0 (t.mapDepth (· - 1)) ∧ (slots ≠ [] → s.depth + 1 < eng.maxDepth)) ∨
      ∃ h t u, resolveSlots eng (evaluate eng fuel) env mask slots (s.mapDepth (· + 1)) =
          .error h t ∧
        evaluate eng (fuel + 1) (.callNamed "quote" [.call (.reference f) slots]) env mask s =
          .error h u := by
  have hdepth : s.depth < eng.maxDepth := depth_lt_of_not_hitsLimit hlimit
  rw [evaluate_quote hdepth hquote, Eval.bind_apply] at hlimit ⊢
  generalize hs₁ : s.entering eng.trace (.callNamed "quote" [.call (.reference f) slots]) = s₁
    at hlimit ⊢
  have hentered : s₁.Deeper 0 (s.mapDepth (· + 1)) := hs₁ ▸ (s.deeper_entering _ _).symm_same
  rcases hmarkers with rfl | hmarkers
  · rw [resolve_finishedCall rfl]
    refine .inl ⟨[], _, _, rfl, rfl, ?_, (absurd rfl ·)⟩
    exact ⟨hentered.heap, hentered.world, congrArg (· - 1) hentered.depth⟩
  · rw [resolve_markedCall hmarkers] at hlimit ⊢
    by_cases hroom : s₁.depth < eng.maxDepth
    · rw [if_pos hroom] at hlimit ⊢
      generalize hs₂ : (s₁.resolving (.call (.reference f) slots)).mapDepth (· + 1) = s₂
        at hlimit ⊢
      have hin : s₂.Deeper 1 (s.mapDepth (· + 1)) :=
        hs₂ ▸ ⟨hentered.heap, hentered.world, congrArg (· + 1) hentered.depth⟩
      have hinner : ¬ Outcome.HitsLimit
          (resolveSlots eng (evaluate eng fuel) env mask slots s₂) := by
        rintro ⟨e, u, hr, he⟩
        exact hlimit ⟨e, _, by rw [hr]; rfl, he⟩
      rcases (hblind s₂ hin).of_not_hitsLimit hinner with
        ⟨slots', t₁, t, hr₁, hr, ht⟩ | ⟨halt, t₁, t, hr₁, hr, -⟩
      · rw [hr₁, hr]
        refine .inl ⟨slots', t, _, rfl, rfl, ⟨ht.heap, ht.world, ?_⟩, fun _ => ?_⟩
        · exact congrArg (· - 1 - 1) ht.depth
        · have hdepth₁ : s₁.depth = s.depth + 1 := hentered.depth
          exact hdepth₁ ▸ hroom
      · rw [hr₁, hr]
        exact .inr ⟨halt, t, _, rfl, rfl⟩
    · rw [if_neg hroom] at hlimit
      exact absurd ⟨_, _, rfl, trivial⟩ hlimit

theorem evaluate_call2 (hdepth : s.depth < eng.maxDepth)
    (hcall2 : s.heap.function? env mask "call2" = some (.special ⟨.call2, i⟩)) :
    evaluate eng (fuel + 2) (.call (.reference "call2") (.positional (.literal (.str f)) :: slots))
        env mask s = Outcome.leave
      ((evalDynamicSlots eng (evaluate eng (fuel + 1)) env mask slots >>= fun items =>
        buildCall eng (evaluate eng (fuel + 1)) (.name f) (items.map CallArg.ofItem) env >>=
          fun t => pure (Value.tree t))
        (s.entering eng.trace
          (.call (.reference "call2") (.positional (.literal (.str f)) :: slots)))) := by
  have hargs : evalDynamicSlots eng (evaluate eng (fuel + 1)) env mask
      (.positional (.literal (.str f)) :: slots) =
        evalDynamicSlots eng (evaluate eng (fuel + 1)) env mask slots >>= fun items =>
          pure (.positional (.str f) :: items) := rfl
  refine (evaluate_namedCall hdepth hcall2 nofun).trans ?_
  refine congrArg Outcome.leave (congrFun ((runSpecial_call2 i).trans ?_) _)
  rw [hargs, bind_assoc]
  rfl

def State.calling2 (s : State) (eng : Engine) (f : String) (slots : List Slot) : State :=
  s.entering eng.trace (.call (.reference "call2") (.positional (.literal (.str f)) :: slots))

section

variable (hdepth : s.depth < eng.maxDepth)
  (hcall2 : s.heap.function? env mask "call2" = some (.special ⟨.call2, i⟩))

include hdepth hcall2

theorem call2_succeeds {items : List Item} {made : List Slot} {t : State}
    (hitems : evalDynamicSlots eng (evaluate eng (fuel + 1)) env mask slots
      (s.calling2 eng f slots) = .ok items t)
    (hmade : Renders True made items) (hlevel : items ≠ [] → t.depth < eng.maxDepth) :
    ∃ u, evaluate eng (fuel + 2)
        (.call (.reference "call2") (.positional (.literal (.str f)) :: slots)) env mask s =
          .ok (.tree (.call (.reference f) made)) u ∧ (t.mapDepth (· - 1)).Deeper 0 u := by
  have hbuild : ∃ u, buildCall eng (evaluate eng (fuel + 1)) (.name f) (items.map CallArg.ofItem)
      env t = .ok (.call (.reference f) made) u ∧ u.Deeper 0 t :=
    buildCall_items (evaluate_literalsStand eng fuel) f hmade hlevel
  obtain ⟨u, hu, hsame⟩ := hbuild
  refine ⟨u.mapDepth (· - 1), ?_, ?_⟩
  · rw [evaluate_call2 hdepth hcall2]
    refine congrArg Outcome.leave (Eval.bind_eq_ok.2 ⟨items, t, hitems, ?_⟩)
    exact Eval.bind_eq_ok.2 ⟨_, u, hu, rfl⟩
  · exact ⟨hsame.heap.symm, hsame.world.symm, congrArg (· - 1) hsame.depth.symm⟩

theorem call2_fails
    (hnone : ∀ items t, evalDynamicSlots eng (evaluate eng (fuel + 1)) env mask slots
      (s.calling2 eng f slots) = .ok items t → Unrenderable items) :
    Outcome.value? (evaluate eng (fuel + 2)
      (.call (.reference "call2") (.positional (.literal (.str f)) :: slots)) env mask s) =
        none := by
  rw [evaluate_call2 hdepth hcall2]
  generalize hr : (evalDynamicSlots eng (evaluate eng (fuel + 1)) env mask slots >>= _) _ = r
  cases r with
  | error => rfl
  | ok w t =>
    obtain ⟨items, t', hitems, hbuild⟩ := Eval.bind_eq_ok.1 hr
    obtain ⟨call, t'', hcall, -⟩ := Eval.bind_eq_ok.1 hbuild
    exact absurd hcall (buildCall_unrenderable (evaluate_literalsStand eng fuel) f
      (hnone items t' hitems) _ _)

end

theorem Slot.Computed.hasMarkers {slot : Slot} (h : slot.Computed) :
    slot.val.hasMarkers = true := by
  cases h <;> rfl

/-- Let the arguments of a call be computed, by operands that do not observe their level. Then
`call2` builds the tree that the quotation of the call gives, or both fail, just if every literal in
a pairlist that is spliced is the tree of its value; and if both succeed, they have done the
same. -/
theorem call2_agrees_with_quote_iff {i j : Identity}
    (hquote : s.heap.function? env mask "quote" = some (.special ⟨.quote, i⟩))
    (hcall2 : s.heap.function? env mask "call2" = some (.special ⟨.call2, j⟩))
    (hslots : ∀ slot ∈ slots, slot.Computed)
    (hoperands : Unobserving eng (evaluate eng (fuel + 1)) env mask (Slot.allRequests 0 slots)
      (s.mapDepth (· + 1)))
    (hlimit : ¬ Outcome.HitsLimit (evaluate eng (fuel + 2)
      (.callNamed "quote" [.call (.reference f) slots]) env mask s)) :
    let quoted : Outcome Value :=
      evaluate eng (fuel + 2) (.callNamed "quote" [.call (.reference f) slots]) env mask s
    let built : Outcome Value := evaluate eng (fuel + 2)
      (.call (.reference "call2") (.positional (.literal (.str f)) :: slots)) env mask s
    (quoted.value? = built.value? ↔
        ∀ vs u, askAll eng (evaluate eng (fuel + 1)) env mask (Slot.allRequests 0 slots)
          (s.mapDepth (· + 1)) = .ok vs u → SplicesReadBack (Slot.allRequests 0 slots) vs) ∧
      ∀ v w u u', quoted = .ok v u → built = .ok w u' → u.Deeper 0 u' := by
  intro quoted built
  have hlog : IgnoresLog eng (evaluate eng (fuel + 1)) := evaluate_ignoresLog eng (fuel + 1)
  have hkeeps : KeepsLevel eng (evaluate eng (fuel + 1)) := evaluate_related (fuel + 1)
  have hasks := (resolve_parts_ask hkeeps).2.1 slots 0 (s.mapDepth (· + 1)) (Nat.zero_le _)
    hoperands
  have hmarkers : slots = [] ∨ Slot.anyMarkers slots = true := by
    cases slots with
    | nil => exact .inl rfl
    | cons slot rest =>
      have hslot := (hslots slot List.mem_cons_self).hasMarkers
      exact .inr (by simp [Slot.anyMarkers, hslot])
  have hdepth : s.depth < eng.maxDepth := depth_lt_of_not_hitsLimit hlimit
  have hgives : GivesItems eng _ env mask _ _ _ := .slots hlog hslots
  have hgives := hgives (s.mapDepth (· + 1)) (s.calling2 eng f slots) (s.deeper_entering _ _)
  rcases quoted_call hquote hmarkers hasks.blind hlimit with
    ⟨resolved, t, u, hresolved, hquoted, hu, hroom⟩ | ⟨halt, t, u, hresolved, hquoted⟩
  · change quoted = _ at hquoted
    rw [hresolved] at hgives
    obtain ⟨vs, _, items, _, t₂, hask, -, ⟨⟩, hitems, ht, hrenders⟩ | ⟨_, _, _, ⟨⟩, _⟩ := hgives
    have hasked : (∀ vs u, askAll eng (evaluate eng (fuel + 1)) env mask (Slot.allRequests 0 slots)
        (s.mapDepth (· + 1)) = .ok vs u → SplicesReadBack (Slot.allRequests 0 slots) vs) ↔
          SplicesReadBack (Slot.allRequests 0 slots) vs := by
      refine ⟨fun h => h vs t hask, fun h vs' u hvs' => ?_⟩
      rw [hask] at hvs'
      cases hvs'
      exact h
    rw [hasked, hquoted]
    rcases renders_or_unrenderable items with ⟨made, hmade⟩ | hnone
    · have hlevel : items ≠ [] → t₂.depth < eng.maxDepth := by
        intro hsome
        have hslots' : slots ≠ [] := by
          rintro rfl
          cases hitems
          exact hsome rfl
        have hsame : t.depth = t₂.depth := ht.depth
        have hback : t.depth = s.depth + 1 := (hasks.asked _ _ hresolved).1
        have := hroom hslots'
        omega
      obtain ⟨w, hbuilt, hw⟩ := call2_succeeds hdepth hcall2 hitems hmade hlevel
      change built = _ at hbuilt
      rw [hrenders.faithful_iff hmade, hbuilt]
      refine ⟨by simp [Outcome.value?, eq_comm], ?_⟩
      rintro _ _ _ _ ⟨⟩ ⟨⟩
      have hleft : (t.mapDepth (· - 1)).Deeper 0 (t₂.mapDepth (· - 1)) :=
        ⟨ht.heap, ht.world, congrArg (· - 1) ht.depth⟩
      exact (hu.trans_same hleft).trans_same hw
    · have hfails : built.value? = none := by
        refine call2_fails hdepth hcall2 fun items' t' hitems' => ?_
        rw [hitems] at hitems'
        cases hitems'
        exact hnone
      refine ⟨iff_of_false ?_ (hrenders.not_of_unrenderable hnone), ?_⟩
      · rw [hfails]
        exact nofun
      · intro v w _ _ _ hbuilt
        rw [hbuilt] at hfails
        cases hfails
  · change quoted = _ at hquoted
    rw [hresolved] at hgives
    obtain ⟨_, _, _, _, _, _, _, ⟨⟩, _⟩ | ⟨_, _, hask, ⟨⟩, hnone⟩ := hgives
    have hfails : built.value? = none := call2_fails hdepth hcall2 hnone
    rw [hquoted, hfails]
    refine ⟨iff_of_true rfl fun vs u hvs => ?_, nofun⟩
    rw [hask] at hvs
    cases hvs

end

def State.withQuoting : State where
  heap :=
    let h := (({} : Heap).newFrame none false).2
    let h := h.define 0 "quote" (.special ⟨.quote, 0⟩)
    h.define 0 "call2" (.special ⟨.call2, 1⟩)

theorem call2_agrees_on_values :
    let eng : Engine := { host := Session.host }
    let slots : List Slot := [⟨some "a", .unquote (.literal (.int 1))⟩,
      ⟨none, .define (.literal (.str "b")) (.splice (.literal (.list [⟨none, .null⟩])))⟩]
    let quoted : Outcome Value :=
      evaluate eng 4 (.callNamed "quote" [.call (.reference "f") slots]) 0 none .withQuoting
    let built : Outcome Value := evaluate eng 4
      (.call (.reference "call2") (.positional (.literal (.str "f")) :: slots)) 0 none .withQuoting
    (∀ slot ∈ slots, slot.Computed) ∧ ¬ quoted.HitsLimit ∧
      (quoted.value? = built.value? ↔
        ∀ vs u, askAll eng (evaluate eng 3) 0 none (Slot.allRequests 0 slots)
          (State.withQuoting.mapDepth (· + 1)) = .ok vs u →
            SplicesReadBack (Slot.allRequests 0 slots) vs) ∧
      quoted.value? = some (.tree (.call (.reference "f")
        [⟨some "a", .literal (.int 1)⟩, ⟨some "b", .literal .null⟩])) := by
  intro eng slots quoted built
  have hslots : ∀ slot ∈ slots, slot.Computed := List.forall_mem_cons.2
    ⟨.value (some "a") _, List.forall_mem_cons.2 ⟨.namedSequence none _ _, nofun⟩⟩
  have hquoted : quoted.value? = some (.tree (.call (.reference "f")
      [⟨some "a", .literal (.int 1)⟩, ⟨some "b", .literal .null⟩])) := rfl
  have hlimit := Outcome.not_hitsLimit_of_value? hquoted
  have hoperands : Unobserving eng (evaluate eng 3) 0 none (Slot.allRequests 0 slots)
      (State.withQuoting.mapDepth (· + 1)) := by
    refine unobserving_of_literals (evaluate_literalsStand eng 2) ?_ _
    simp [slots, Slot.allRequests, Slot.requests, Query.operand?, Tree.requests]
  exact ⟨hslots, hlimit, (call2_agrees_with_quote_iff rfl rfl hslots hoperands hlimit).1, hquoted⟩

/-- A pairlist that holds the quotation of a reference as a literal, spliced. -/
theorem call2_evaluates_spliced_literal :
    let eng : Engine := { host := Session.host }
    let x : Tree := .reference "x"
    let slots : List Slot :=
      [⟨none, .splice (.literal (.tree (.pairlist [⟨none, .literal (.tree x)⟩])))⟩]
    Outcome.value?
        (evaluate eng 4 (.callNamed "quote" [.call (.reference "f") slots]) 0 none .withQuoting) =
      some (.tree (.call (.reference "f") [⟨none, .literal (.tree x)⟩])) ∧
    Outcome.value? (evaluate eng 4
        (.call (.reference "call2") (.positional (.literal (.str "f")) :: slots)) 0 none
        .withQuoting) =
      some (.tree (.call (.reference "f") [⟨none, x⟩])) :=
  ⟨rfl, rfl⟩

end Quotation
