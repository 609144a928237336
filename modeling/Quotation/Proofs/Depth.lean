import Quotation.Engine.Build
import Quotation.Proofs.Lockstep.Engine
import Quotation.Session.Host

/-! The depth counter. Each operation leaves the depth as it found it, however it ends, and nothing
is run below the limit. To say so of a whole run, the run is watched: whatever would start below the
limit is replaced by an alarm, and no alarm makes a difference. -/

namespace Quotation

/-- An error of a host's own making. -/
def Host.Raises (host : Host) (e : Error) : Prop :=
  (∃ name args w, (host.builtin name args w).1 = .error e) ∨
    ∃ name call, (host.special name call).Raises e

def Eval.watched {α : Type} (maxDepth : Nat) (act alarm : Eval α) : Eval α := fun s =>
  if s.depth ≤ maxDepth then act s else alarm s

/-- Evaluation that gives an alarm wherever a tree would be evaluated below the limit. -/
def evaluateWatched (eng : Engine) (alarm : Evaluator) : Nat → Evaluator
  | 0, _, _, _ => throw .outOfFuel
  | fuel + 1, t, env, mask =>
    (evaluateStep eng (evaluateWatched eng alarm fuel) t env mask).watched eng.maxDepth
      (alarm t env mask)

theorem Eval.watched_apply {α : Type} {maxDepth : Nat} {s : State} (h : s.depth ≤ maxDepth)
    (act alarm : Eval α) : act.watched maxDepth alarm s = act s := if_pos h

theorem Eval.nested_watched {α : Type} (maxDepth : Nat) (act alarm : Eval α) :
    nested maxDepth (act.watched maxDepth alarm) = nested maxDepth act := by
  funext s
  rw [nested_apply, nested_apply]
  by_cases h : s.depth < maxDepth
  · have hin : (s.mapDepth (· + 1)).depth ≤ maxDepth := h
    rw [if_pos h, if_pos h, watched_apply hin]
  · rw [if_neg h, if_neg h]

def Error.OverflowsAt (maxDepth : Nat) (e : Error) : Prop :=
  ∀ d m, e = .stackOverflow d m → d = maxDepth + 1 ∧ m = maxDepth

theorem Error.OverflowsAt.ofPlain {maxDepth : Nat} {e : Error} (h : e.isOverflow = false) :
    e.OverflowsAt maxDepth := by
  rintro d m rfl
  cases h

def Lockstep.depthKept (eng : Engine) (within : Prop) : Lockstep eng eng where
  Origin := Nat
  rel d s₁ s₂ := s₁ = s₂ ∧ s₁.depth = d ∧ (within → d ≤ eng.maxDepth)
  excused _ := False
  err e := within → e.OverflowsAt eng.maxDepth ∨ eng.host.Raises e
  write _ _ _ := True
  reads := True
  host := .refl eng
  heap h := congrArg State.heap h.1
  world h := congrArg State.world h.1
  depth _ h := congrArg State.depth h.1
  plain h _ := .inl (.ofPlain h)
  builtin h _ := .inr (.inl ⟨_, _, _, h⟩)
  setWorld := by rintro d s _ ⟨rfl, h⟩ w; exact ⟨rfl, h⟩
  debug := by rintro d s _ ⟨rfl, h⟩ m; exact ⟨rfl, h⟩
  trace := by
    rintro d s _ ⟨rfl, h⟩ m
    refine ⟨rfl, ?_⟩
    unfold State.traced
    split <;> exact h
  enter := by
    rintro d s _ ⟨rfl, rfl, hd⟩ hlt
    refine ⟨hlt, s.depth + 1, ⟨rfl, rfl, fun _ => hlt⟩, ?_⟩
    rintro t _ ⟨rfl, ht, -⟩
    exact ⟨rfl, by simp [State.mapDepth, ht], hd⟩
  overflow := by
    rintro d s _ ⟨rfl, rfl, hd⟩ hlt
    refine .inr ⟨rfl, rfl, fun hw => .inl fun d m he => ?_⟩
    have hd := hd hw
    cases he
    exact ⟨by omega, rfl⟩
  capture := by rintro d s _ ⟨rfl, h⟩ p; exact ⟨rfl, h⟩
  promise := by rintro d s _ ⟨rfl, h⟩ expr env mask; exact ⟨rfl, h⟩
  frame := by rintro d s _ ⟨rfl, h⟩ parent isCall; exact ⟨rfl, h⟩
  formals := by rintro d s _ ⟨rfl, h⟩ parent formals m; exact ⟨rfl, h⟩
  rebind := by rintro d s _ f name b ⟨rfl, h⟩ -; exact ⟨rfl, h⟩

instance (eng : Engine) (within : Prop) : (Lockstep.depthKept eng within).Passes where
  special name call := Routine.confined_of_raises fun _ he _ => .inr (.inr ⟨name, call, he⟩)
  marker h := h.elim

instance (eng : Engine) (within : Prop) : (Lockstep.depthKept eng within).Forces where
  force := by
    rintro d s _ p ⟨rfl, h⟩ -
    refine ⟨d, ⟨rfl, h⟩, ?_⟩
    rintro t _ ⟨rfl, ht⟩
    exact ⟨fun v => ⟨rfl, ht⟩, rfl, ht⟩

theorem evaluateWatched_related (eng : Engine) (alarm : Evaluator) (fuel : Nat) :
    (Lockstep.depthKept eng True).RelatedEvaluators (evaluateWatched eng alarm fuel)
      (evaluate eng fuel) := by
  induction fuel with
  | zero => exact .ofEval fun _ _ _ _ _ _ h => .outOfFuel h
  | succ fuel ih =>
    refine .ofEval fun t env mask d s₁ s₂ h => ?_
    have hd : s₁.depth ≤ eng.maxDepth := h.2.1 ▸ h.2.2 trivial
    simp only [evaluateWatched, Eval.watched_apply hd]
    exact evaluateStep_related ih t env mask d s₁ s₂ h

section

variable {α : Type} (eng : Engine) (fuel : Nat)

/-- An operation that is given the evaluator keeps the depth, stays within the limit and reports an
overflow as it is, when it is run from a state. -/
structure KeepsDepth (op : Evaluator → Eval α) (s : State) : Prop where
  restored : (Outcome.state (op (evaluate eng fuel) s)).depth = s.depth
  bounded : ∀ alarm, op (evaluateWatched eng alarm fuel) s = op (evaluate eng fuel) s
  overflow : ∀ d m t, op (evaluate eng fuel) s = .error (.failed (.stackOverflow d m)) t →
    d = eng.maxDepth + 1 ∧ m = eng.maxDepth ∨ eng.host.Raises (.stackOverflow d m)

variable {eng fuel}

theorem Lockstep.Ends.keepsDepth {within : Prop} {d : Nat} {r₁ r₂ : Outcome α}
    (h : (Lockstep.depthKept eng within).Ends d r₁ r₂) :
    r₁ = r₂ ∧ (Outcome.state r₂).depth = d ∧ ∀ e t, r₂ = .error (.failed e) t → within →
      e.OverflowsAt eng.maxDepth ∨ eng.host.Raises e := by
  cases h with
  | ok h => exact ⟨by rw [h.1], h.1 ▸ h.2.1, fun e t ht => nomatch ht⟩
  | failed h he =>
    refine ⟨by rw [h.1], h.1 ▸ h.2.1, fun e t ht => ?_⟩
    cases ht
    exact he
  | outOfFuel h => exact ⟨by rw [h.1], h.1 ▸ h.2.1, fun e t ht => nomatch ht⟩
  | excused h | carried _ h => exact h.elim

theorem KeepsDepth.of_related {op : Evaluator → Eval α} {s : State} (hs : s.depth ≤ eng.maxDepth)
    (hop : ∀ {ev₁ ev₂}, (Lockstep.depthKept eng True).RelatedEvaluators ev₁ ev₂ →
      (Lockstep.depthKept eng True).Related (op ev₁) (op ev₂)) :
    KeepsDepth eng fuel op s := by
  have horigin : (Lockstep.depthKept eng True).rel s.depth s s := ⟨rfl, rfl, fun _ => hs⟩
  have hplain := (hop (evaluate_related fuel) s.depth s s horigin).keepsDepth
  refine ⟨hplain.2.1, fun alarm => ?_, fun d m t ht => ?_⟩
  · exact (hop (evaluateWatched_related eng alarm fuel) s.depth s s horigin).keepsDepth.1
  · exact (hplain.2.2 _ t ht trivial).imp (fun h => h d m rfl) id

theorem Lockstep.Related.depth_eq {x : Eval α}
    (h : (Lockstep.depthKept eng False).Related x x) (s : State) :
    (Outcome.state (x s)).depth = s.depth :=
  (h s.depth s s ⟨rfl, rfl, False.elim⟩).keepsDepth.2.1

end

/-- Each operation of an evaluator within its limit leaves the depth as it was, on success and on
every kind of failure; nothing that it runs starts below the limit; and an overflow that is not a
host's own tells the limit and the depth after it. -/
theorem operations_keep_depth (eng : Engine) (fuel : Nat) (s : State)
    (hs : s.depth ≤ eng.maxDepth) :
    (∀ t env mask, KeepsDepth eng fuel (fun ev => ev t env mask) s) ∧
    (∀ t env mask, KeepsDepth eng fuel (fun ev => resolve eng ev t env mask) s) ∧
    (∀ p, KeepsDepth eng fuel (fun ev => force ev p) s) ∧
    (∀ func args env mask, KeepsDepth eng fuel (fun ev => apply eng ev func args env mask) s) ∧
    (∀ args env mask, KeepsDepth eng fuel (fun ev => evalSlots ev env mask args) s) ∧
    (∀ args env mask, KeepsDepth eng fuel (fun ev => evalDynamicSlots eng ev env mask args) s) ∧
    (∀ head args env, KeepsDepth eng fuel (fun ev => buildCall eng ev head args env) s) ∧
    ∀ {α : Type} (act alarm : Eval α),
      Eval.nested eng.maxDepth (act.watched eng.maxDepth alarm) = Eval.nested eng.maxDepth act := by
  refine ⟨?evaluate, ?resolve, ?force, ?apply, ?arguments, ?dynamicArguments, ?buildCall, ?nested⟩
  case evaluate => exact fun t env mask => .of_related hs fun hev => hev t env mask
  case resolve => exact fun t env mask => .of_related hs fun hev => resolve_related hev t env mask
  case force => exact fun p => .of_related hs fun hev => force_related hev p
  case apply =>
    exact fun func args env mask =>
      .of_related hs fun hev => apply_related hev func args env mask
  case arguments =>
    exact fun args env mask => .of_related hs fun hev => evalSlots_related hev env mask args
  case dynamicArguments =>
    exact fun args env mask => .of_related hs fun hev => evalDynamicSlots_related hev env mask args
  case buildCall =>
    exact fun head args env => .of_related hs fun hev => buildCall_related hev head args env
  case nested => exact fun act alarm => Eval.nested_watched eng.maxDepth act alarm

theorem overflow_keeps_depth :
    let eng : Engine := { maxDepth := 1, host := Session.host }
    let t : Tree := .call (.call (.reference "f") []) []
    evaluate eng 3 t 0 none {} = .error (.failed (.stackOverflow 2 1)) {} ∧
      KeepsDepth eng 3 (fun ev => ev t 0 none) {} :=
  ⟨rfl, (operations_keep_depth _ 3 {} (by decide)).1 _ 0 none⟩

end Quotation
