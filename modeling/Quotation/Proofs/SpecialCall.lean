import Quotation.Proofs.Exposure.Builtin
import Quotation.Proofs.Level

namespace Quotation

namespace Heap

def functionIn? (h : Heap) (name : String) : List FrameId → Option Value
  | [] => none
  | f :: rest =>
    match h.binding? f name with
    | some (.value v) => if v.isCallable then some v else functionIn? h name rest
    | some (.promise p) =>
      match (h.promise p).value? with
      | some v => if v.isCallable then some v else functionIn? h name rest
      | none => none
    | _ => functionIn? h name rest

/-- What a name stands for in function position, if nothing has to be evaluated to tell. -/
def function? (h : Heap) (env : FrameId) (mask : Option Mask) (name : String) : Option Value :=
  match (Mask.find? mask name).filter Value.isCallable with
  | some v => some v
  | none => h.functionIn? name (h.chain env)

end Heap

variable {eng : Engine} {ev : Evaluator} {fuel : Nat} {env : FrameId} {mask : Option Mask}
  {name : String} {args : List Slot} {s : State} {α β : Type}

theorem findFunction_apply {chain : List FrameId} {v : Value}
    (h : s.heap.functionIn? name chain = some v) : findFunction ev name chain s = .ok v s := by
  induction chain with
  | nil => cases h
  | cons f rest ih =>
    simp only [Heap.functionIn?] at h
    simp only [findFunction, Eval.heap_bind_apply]
    cases hb : s.heap.binding? f name with
    | none =>
      rw [hb] at h
      exact ih h
    | some b =>
      rw [hb] at h
      cases b with
      | dots _ | missing => exact ih h
      | value w =>
        simp only at h ⊢
        split at h
        · cases h
          simp_all
        · simp_all
      | promise p =>
        simp only at h ⊢
        cases hp : (s.heap.promise p).value? with
        | none => simp [hp] at h
        | some w =>
          simp only [hp] at h
          rw [Eval.bind_apply, force_apply_of_value _ hp, Outcome.follow_ok_eval]
          split at h
          · cases h
            simp_all
          · simp_all

theorem resolveHead_named {v : Value} (h : s.heap.function? env mask name = some v) :
    resolveHead ev (.reference name) env mask s = .ok v s := by
  simp only [resolveHead, lookupFunction]
  unfold Heap.function? at h
  cases hm : (Mask.find? mask name).filter Value.isCallable with
  | some w =>
    rw [hm] at h
    cases h
    rfl
  | none =>
    rw [hm] at h
    exact findFunction_apply h

@[simp] theorem State.heap_entering (s : State) (on : Bool) (t : Tree) :
    (s.entering on t).heap = s.heap := State.heap_traced _ _ _

theorem State.deeper_entering (s : State) (on : Bool) (t : Tree) :
    (s.mapDepth (· + 1)).Deeper 0 (s.entering on t) :=
  ((State.Deeper.refl _).traced false on "" _)

theorem evaluateStep_resolvedCall (ev : Evaluator) {head : Tree} {v : Value}
    (hdepth : s.depth < eng.maxDepth)
    (hhead : resolveHead ev head env mask (s.entering eng.trace (.call head args)) =
      .ok v (s.entering eng.trace (.call head args))) (hbuiltin : ∀ b, v ≠ .builtin b) :
    evaluateStep eng ev (.call head args) env mask s = Outcome.leave
      (apply eng ev v args env mask (s.entering eng.trace (.call head args))) := by
  rw [evaluateStep_call ev hdepth, callHead_apply, hhead, Outcome.follow_ok_eval]
  cases v with
  | builtin b => exact absurd rfl (hbuiltin b)
  | _ => rfl

theorem evaluate_resolvedCall {head : Tree} {v : Value} (hdepth : s.depth < eng.maxDepth)
    (hhead : resolveHead (evaluate eng fuel) head env mask
      (s.entering eng.trace (.call head args)) = .ok v (s.entering eng.trace (.call head args)))
    (hbuiltin : ∀ b, v ≠ .builtin b) :
    evaluate eng (fuel + 1) (.call head args) env mask s = Outcome.leave
      (apply eng (evaluate eng fuel) v args env mask
        (s.entering eng.trace (.call head args))) :=
  evaluateStep_resolvedCall (evaluate eng fuel) hdepth hhead hbuiltin

theorem evaluateStep_namedCall (ev : Evaluator) {v : Value} (hdepth : s.depth < eng.maxDepth)
    (hv : s.heap.function? env mask name = some v) (hbuiltin : ∀ b, v ≠ .builtin b) :
    evaluateStep eng ev (.call (.reference name) args) env mask s = Outcome.leave
      (apply eng ev v args env mask
        (s.entering eng.trace (.call (.reference name) args))) :=
  evaluateStep_resolvedCall ev hdepth (resolveHead_named (by simpa using hv)) hbuiltin

theorem evaluate_namedCall {v : Value} (hdepth : s.depth < eng.maxDepth)
    (hv : s.heap.function? env mask name = some v) (hbuiltin : ∀ b, v ≠ .builtin b) :
    evaluate eng (fuel + 1) (.call (.reference name) args) env mask s = Outcome.leave
      (apply eng (evaluate eng fuel) v args env mask
        (s.entering eng.trace (.call (.reference name) args))) :=
  evaluateStep_namedCall (evaluate eng fuel) hdepth hv hbuiltin

theorem depth_lt_of_not_hitsLimit {head : Tree}
    (h : ¬ Outcome.HitsLimit (evaluate eng (fuel + 1) (.call head args) env mask s)) :
    s.depth < eng.maxDepth := by
  refine Nat.lt_of_not_le fun hdepth =>
    h ⟨.stackOverflow (s.depth + 1) eng.maxDepth, s, ?_, trivial⟩
  rw [evaluate, evaluateStep, Eval.nested_apply, if_neg (Nat.not_lt.2 hdepth)]

theorem runRoutine_bind (r : Routine α) (f : α → Routine β) :
    runRoutine eng ev (r.bind f) = runRoutine eng ev r >>= fun a => runRoutine eng ev (f a) := by
  induction r with
  | done | fail => rfl
  | rebind _ _ _ _ ih => simp only [Routine.bind, runRoutine, ih, bind_assoc]
  | ask _ _ ih | inspect _ ih | newFrame _ _ _ ih | newPromise _ _ _ _ ih | identity _ ih
  | depth _ ih => simp only [Routine.bind, runRoutine, ih, bind_assoc]

theorem runRoutine_ofExcept (x : Except Error α) :
    runRoutine eng ev (Routine.ofExcept x) = Eval.ofExcept x := by
  cases x <;> rfl

theorem runRoutine_demand (d : Demand) :
    runRoutine eng ev (Routine.demand d) = answer eng ev d := by
  funext s
  simp only [Routine.demand, runRoutine, Eval.bind_apply, Eval.attempt_apply]
  cases answer eng ev d s with
  | ok a t => rfl
  | error h t => cases h <;> rfl

theorem resolveTree_of_noMarkers {t : Tree} (ht : t.hasMarkers = false) :
    resolveTree eng ev env mask t = pure t := by
  cases t with
  | literal v => rfl
  | reference name => rfl
  | call head args =>
    rw [Tree.hasMarkers] at ht
    rw [resolveTree, ht]
    rfl
  | pairlist args =>
    rw [Tree.hasMarkers] at ht
    rw [resolveTree, ht]
    rfl
  | unquote e => cases ht
  | splice e => cases ht
  | define n v => cases ht

theorem resolve_of_noMarkers {t : Tree} (ht : t.hasMarkers = false) (s : State) :
    resolve eng ev t env mask s = .ok t (s.record ⟨.debug, "resolve " ++ t.text⟩) := by
  rw [resolve, resolveTree_of_noMarkers ht]
  rfl

theorem runSpecial_quote (id : Identity) (slot : Slot) :
    runSpecial eng ev ⟨.quote, id⟩ ⟨[slot], env, mask⟩ =
      resolve eng ev slot.val env mask >>= fun t => pure (Value.tree t) := by
  change runRoutine eng ev ((Routine.demand (.resolve slot.val env mask)).bind
    fun t => .done (Value.tree t)) = _
  rw [runRoutine_bind, runRoutine_demand]
  rfl

theorem evaluate_quote {t : Tree} {id : Identity} (hdepth : s.depth < eng.maxDepth)
    (hquote : s.heap.function? env mask "quote" = some (.special ⟨.quote, id⟩)) :
    evaluate eng (fuel + 1) (.callNamed "quote" [t]) env mask s = Outcome.leave
      ((resolve eng (evaluate eng fuel) t env mask >>= fun t => pure (Value.tree t))
        (s.entering eng.trace (.callNamed "quote" [t]))) := by
  refine (evaluate_namedCall hdepth hquote nofun).trans ?_
  exact congrArg Outcome.leave (congrFun (runSpecial_quote id (Named.positional t)) _)

theorem runSpecial_call2 (id : Identity) :
    runSpecial eng ev ⟨.call2, id⟩ ⟨args, env, mask⟩ = do
      let items ← evalDynamicSlots eng ev env mask args
      match items with
      | [] => Eval.fail (.missingArgument "head")
      | first :: rest =>
        let head ← Eval.ofExcept (CallHead.ofValue first.val)
        let t ← resolve eng ev (head.template (rest.map CallArg.ofItem)) env none
        return Value.tree t := by
  change runRoutine eng ev (Special.call2 ⟨args, env, mask⟩) = _
  refine (runRoutine_bind (Routine.arguments args env mask) _).trans ?_
  refine congr (congrArg bind (runRoutine_demand (.arguments args env mask)))
    (funext fun items => ?_)
  cases items with
  | nil => rfl
  | cons first rest =>
    refine (runRoutine_bind (Routine.ofExcept (CallHead.ofValue first.val)) _).trans ?_
    refine congr (congrArg bind (runRoutine_ofExcept _)) (funext fun head => ?_)
    refine (runRoutine_bind (Routine.resolve _ _ _) _).trans ?_
    exact congrArg (· >>= _) (runRoutine_demand (.resolve _ _ _))

end Quotation
