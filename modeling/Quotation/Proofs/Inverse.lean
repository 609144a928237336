import Quotation.Proofs.Guarded
import Quotation.Session.Host

namespace Quotation

section

variable {eng : Engine} {ev : Evaluator} {env : FrameId} {mask : Option Mask}

theorem runSpecial_quo (id : Identity) (slot : Slot) :
    runSpecial eng ev ⟨.quo, id⟩ ⟨[slot], env, mask⟩ =
      resolve eng ev slot.val env mask >>= fun t => pure (Value.capture ⟨t, env⟩) := by
  change runRoutine eng ev ((Routine.demand (.resolve slot.val env mask)).bind
    fun t => .done (Value.capture ⟨t, env⟩)) = _
  rw [runRoutine_bind, runRoutine_demand]
  rfl

theorem runSpecial_evalTidy (id : Identity) (slot : Slot) :
    runSpecial eng ev ⟨.evalTidy, id⟩ ⟨[slot], env, mask⟩ = do
      let v ← ev slot.val env mask
      match v with
      | .tree t => ev t env none
      | .capture c => ev c.tree c.env none
      | v => return v := by
  refine (runRoutine_bind (Routine.evaluate slot.val env mask) _).trans ?_
  refine congr (congrArg bind (runRoutine_demand (.evaluate slot.val env mask)))
    (funext fun v => ?_)
  cases v with
  | tree t => exact runRoutine_demand (.evaluate t env none)
  | capture c => exact runRoutine_demand (.evaluate c.tree c.env none)
  | _ => rfl

end

structure Quotes (op : Special.Op) (quoted : Tree → FrameId → Value) : Prop where
  run : ∀ eng ev id slot env mask, runSpecial eng ev ⟨op, id⟩ ⟨[slot], env, mask⟩ =
    resolve eng ev slot.val env mask >>= fun t => pure (quoted t env)
  tree : ∀ t env, quoted t env = .tree t ∨ quoted t env = .capture ⟨t, env⟩
  prelude : ∀ name, op ≠ .host name

theorem quote_quotes : Quotes .quote fun t _ => .tree t :=
  ⟨fun _ _ id slot _ _ => runSpecial_quote id slot, fun _ _ => .inl rfl, nofun⟩

theorem quo_quotes : Quotes .quo fun t env => .capture ⟨t, env⟩ :=
  ⟨fun _ _ id slot _ _ => runSpecial_quo id slot, fun _ _ => .inr rfl, nofun⟩

section

variable {eng : Engine} {fuel : Nat} {env : FrameId} {e : Tree} {s : State}
  {name : String} {op : Special.Op} {quoted : Tree → FrameId → Value}

theorem Quotes.evaluateStep_eq (hop : Quotes op quoted) {id : Identity}
    (he : e.hasMarkers = false) (hdepth : s.depth < eng.maxDepth)
    (hquote : s.heap.function? env none name = some (.special ⟨op, id⟩)) :
    ∃ t : State, t.Deeper 0 s ∧
      ∀ ev, evaluateStep eng ev (.callNamed name [e]) env none s = .ok (quoted e env) t := by
  generalize hu : s.entering eng.trace (.callNamed name [e]) = u
  have hentered : u.Deeper 0 (s.mapDepth (· + 1)) := hu ▸ (s.deeper_entering _ _).symm_same
  refine ⟨(u.record ⟨.debug, "resolve " ++ e.text⟩).mapDepth (· - 1), ?_, fun ev => ?_⟩
  · exact ⟨hentered.heap, hentered.world, congrArg (· - 1) hentered.depth⟩
  · refine (evaluateStep_namedCall ev hdepth hquote nofun).trans ?_
    change Outcome.leave (runSpecial eng ev ⟨op, id⟩ ⟨[.positional e], env, none⟩
      (s.entering eng.trace (.callNamed name [e]))) = _
    rw [hu, hop.run, Eval.bind_apply]
    exact congrArg Outcome.leave (congrArg (Outcome.follow · _ _) (resolve_of_noMarkers he u))

def evalGiven (env : FrameId) (ev : Evaluator) (v : Value) : Eval Value :=
  match v with
  | .tree t => ev t env none
  | .capture c => ev c.tree c.env none
  | v => pure v

theorem evaluateStep_evalTidy (ev : Evaluator) {q : Tree} {id : Identity}
    (hdepth : s.depth < eng.maxDepth)
    (hevalTidy : s.heap.function? env none "eval_tidy" = some (.special ⟨.evalTidy, id⟩)) :
    evaluateStep eng ev (.callNamed "eval_tidy" [q]) env none s = Outcome.leave
      ((ev q env none >>= evalGiven env ev)
        (s.entering eng.trace (.callNamed "eval_tidy" [q]))) := by
  refine (evaluateStep_namedCall ev hdepth hevalTidy nofun).trans (congrArg Outcome.leave ?_)
  exact congrFun (runSpecial_evalTidy id (Named.positional q)) _

theorem Quotes.evalTidy_alike (hop : Quotes op quoted) {i j : Identity}
    (he : e.hasMarkers = false)
    (hevalTidy : s.heap.function? env none "eval_tidy" = some (.special ⟨.evalTidy, i⟩))
    (hquote : s.heap.function? env none name = some (.special ⟨op, j⟩))
    (hunaware : Unaware eng (fuel + 2)
      (fun ev => ev (.callNamed "eval_tidy" [.callNamed name [e]]) env none) s) :
    Outcome.Alike 0
      (evaluate eng (fuel + 2) (.callNamed "eval_tidy" [.callNamed name [e]]) env none s)
      (evaluate eng (fuel + 1) e env none s) := by
  have hdepth : s.depth < eng.maxDepth := hunaware.depth_lt
  generalize hu : s.entering eng.trace (.callNamed "eval_tidy" [.callNamed name [e]]) = u
  have hentered : u.Deeper 0 (s.mapDepth (· + 1)) := hu ▸ (s.deeper_entering _ _).symm_same
  have hquote' : u.heap.function? env none name = some (.special ⟨op, j⟩) :=
    hentered.heap ▸ hquote
  -- The guarded run and the other one are alike up to where the tree itself is evaluated.
  have hguarded : evaluateGuarded eng (fuel + 2)
      (.callNamed "eval_tidy" [.callNamed name [e]]) env none s = _ :=
    (evaluateStepGuarded_namedCall hevalTidy nofun).trans
      (evaluateStep_evalTidy (evaluateGuarded eng (fuel + 1)) hdepth hevalTidy)
  have hreal : evaluate eng (fuel + 2)
      (.callNamed "eval_tidy" [.callNamed name [e]]) env none s = _ :=
    evaluateStep_evalTidy (evaluate eng (fuel + 1)) hdepth hevalTidy
  rw [hu, Eval.bind_apply] at hguarded hreal
  have hdepth' : u.depth < eng.maxDepth := by
    refine Nat.lt_of_le_of_ne (hentered.depth ▸ hdepth) fun hmax => hunaware.clear ?_
    have hlimit : evaluateGuarded eng (fuel + 1) (.callNamed name [e]) env none u = _ :=
      evaluateGuarded_overflow fuel hmax
    rw [hguarded]
    exact congrArg (fun r => Outcome.halt? (Outcome.leave (Outcome.follow r _ _))) hlimit
  obtain ⟨t, ht, hgives⟩ := hop.evaluateStep_eq he hdepth' hquote'
  have hgiven (ev : Evaluator) : evalGiven env ev (quoted e env) = ev e env none := by
    rcases hop.tree e env with h | h <;> rw [h] <;> rfl
  have hunguarded : Value.Unguarded (.special ⟨op, j⟩) := by
    rintro host id ⟨⟩
    exact hop.prelude host rfl
  have hquoted : evaluateGuarded eng (fuel + 1) (.callNamed name [e]) env none u = _ :=
    (evaluateStepGuarded_namedCall hquote' hunguarded).trans (hgives (evaluateGuarded eng fuel))
  have hquoted' : evaluate eng (fuel + 1) (.callNamed name [e]) env none u = _ :=
    hgives (evaluate eng fuel)
  rw [hquoted, Outcome.follow_ok_eval, hgiven] at hguarded
  rw [hquoted', Outcome.follow_ok_eval, hgiven] at hreal
  have hinner : Unaware eng (fuel + 1) (fun ev => ev e env none) t := by
    refine ⟨ht.depth ▸ hentered.depth ▸ hdepth, fun h => hunaware.ends ?_,
      fun h => hunaware.clear ?_⟩ <;> rw [hguarded, Outcome.halt?_leave, h]
  have hkept := hinner.alike ((evaluateGuarded_related eng 0 (fuel + 1)).eval e env none) (.refl t)
  have hlower : t.Deeper 1 s := ⟨ht.heap.trans hentered.heap, ht.world.trans hentered.world,
    ht.depth.trans hentered.depth⟩
  have hraised := hinner.alike ((evaluateGuarded_related eng 1 (fuel + 1)).eval e env none) hlower
  rw [hreal]
  exact (hkept.of_same hraised).leave

/-- To quote a tree without markers, with its frame or without, and to evaluate the quotation with
no mask active, is to evaluate the tree: the same value or the same error, and the same state at the
end. The tree lies one level deeper in the quotation, which neither run may notice: no call meets
the limit, and no special asks for the depth. -/
theorem evalTidy_inverts_quoting {i j k : Identity} (he : e.hasMarkers = false)
    (hevalTidy : s.heap.function? env none "eval_tidy" = some (.special ⟨.evalTidy, i⟩))
    (hquote : s.heap.function? env none "quote" = some (.special ⟨.quote, j⟩))
    (hquo : s.heap.function? env none "quo" = some (.special ⟨.quo, k⟩)) :
    (Unaware eng (fuel + 2)
        (fun ev => ev (.callNamed "eval_tidy" [.callNamed "quote" [e]]) env none) s →
      Outcome.Alike 0
        (evaluate eng (fuel + 2) (.callNamed "eval_tidy" [.callNamed "quote" [e]]) env none s)
        (evaluate eng (fuel + 1) e env none s)) ∧
    (Unaware eng (fuel + 2)
        (fun ev => ev (.callNamed "eval_tidy" [.callNamed "quo" [e]]) env none) s →
      Outcome.Alike 0
        (evaluate eng (fuel + 2) (.callNamed "eval_tidy" [.callNamed "quo" [e]]) env none s)
        (evaluate eng (fuel + 1) e env none s)) :=
  ⟨quote_quotes.evalTidy_alike he hevalTidy hquote, quo_quotes.evalTidy_alike he hevalTidy hquo⟩

end

def State.withTidy : State where
  heap :=
    let h := (({} : Heap).newFrame none false).2
    let h := h.define 0 "eval_tidy" (.special ⟨.evalTidy, 0⟩)
    let h := h.define 0 "quote" (.special ⟨.quote, 1⟩)
    let h := h.define 0 "quo" (.special ⟨.quo, 2⟩)
    h.define 0 "same" (.closure ⟨some "same", [⟨"a", none⟩], .reference "a", 0, 3⟩)

theorem evalTidy_inverts_quoting_call :
    let eng : Engine := { host := Session.host, maxDepth := 2 }
    let e : Tree := .callNamed "same" [.literal (.int 7)]
    let quoted : Outcome Value := evaluate eng 5
      (.callNamed "eval_tidy" [.callNamed "quote" [e]]) 0 none .withTidy
    let captured : Outcome Value := evaluate eng 5
      (.callNamed "eval_tidy" [.callNamed "quo" [e]]) 0 none .withTidy
    let plain : Outcome Value := evaluate eng 4 e 0 none .withTidy
    e.hasMarkers = false ∧ plain.value? = some (.int 7) ∧ quoted.Alike 0 plain ∧
      captured.Alike 0 plain := by
  intro eng e quoted captured plain
  have hquote : Unaware eng 5
      (fun ev => ev (.callNamed "eval_tidy" [.callNamed "quote" [e]]) 0 none) .withTidy := by
    constructor <;> decide +kernel
  have hquo : Unaware eng 5
      (fun ev => ev (.callNamed "eval_tidy" [.callNamed "quo" [e]]) 0 none) .withTidy := by
    constructor <;> decide +kernel
  have hinverts := @evalTidy_inverts_quoting eng 3 0 e .withTidy 0 1 2 rfl rfl rfl rfl
  exact ⟨rfl, rfl, hinverts.1 hquote, hinverts.2 hquo⟩

end Quotation
