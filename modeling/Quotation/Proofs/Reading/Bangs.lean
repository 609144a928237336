import Mathlib.Logic.Function.Iterate
import Quotation.Source.Tree

namespace Quotation

def Tree.banged (k : Nat) (t : Tree) : Tree :=
  Tree.splice^[k / 3] (match k % 3 with
    | 0 => t
    | 1 => .callNamed "!" [t]
    | _ => .unquote t)

theorem Tree.banged_add_three (k : Nat) (t : Tree) :
    Tree.banged (k + 3) t = .splice (Tree.banged k t) := by
  have hdiv : (k + 3) / 3 = k / 3 + 1 := by omega
  have hmod : (k + 3) % 3 = k % 3 := by omega
  rw [Tree.banged, hdiv, hmod, Function.iterate_succ_apply', Tree.banged]

namespace Source.Expr

/-- A run of `k` bangs before an expression. -/
def bangs : Nat → Expr → Expr
  | 0, e => e
  | k + 1, e => .not (bangs k e)

def isNot : Expr → Bool
  | .not _ => true
  | _ => false

/-- Runs of bangs, each before parentheses around what follows it. -/
def runs : List Nat → Expr → Expr
  | [], e => e
  | k :: ks, e => bangs k (.paren (runs ks e))

variable {e : Expr}

theorem toTree_one_bang (h : e.isNot = false) :
    (Expr.not e).toTree = e.toTree.map fun t => .callNamed "!" [t] := by
  cases e with
  | not inner => simp [isNot] at h
  | _ => rfl

theorem toTree_two_bangs (h : e.isNot = false) :
    (Expr.not (.not e)).toTree = e.toTree.map .unquote := by
  cases e with
  | not inner => simp [isNot] at h
  | _ => rfl

theorem toTree_bangs (h : e.isNot = false) :
    ∀ k, (bangs k e).toTree = e.toTree.map (Tree.banged k)
  | 0 => by
    rw [bangs]
    cases e.toTree <;> rfl
  | 1 => toTree_one_bang h
  | 2 => toTree_two_bangs h
  | k + 3 => by
    have houter : (bangs (k + 3) e).toTree = (bangs k e).toTree.map .splice := rfl
    rw [houter, toTree_bangs h k]
    cases e.toTree with
    | error x => rfl
    | ok t => simp only [Except.map, Tree.banged_add_three]

theorem toTree_runs (h : e.isNot = false) (k : Nat) (ks : List Nat) :
    (runs ks (bangs k e)).toTree =
      e.toTree.map fun t => ks.foldr Tree.banged (Tree.banged k t) := by
  induction ks with
  | nil => exact toTree_bangs h k
  | cons j ks ih =>
    have hparen : (Expr.paren (runs ks (bangs k e))).toTree = (runs ks (bangs k e)).toTree := rfl
    rw [runs, toTree_bangs rfl j, hparen, ih]
    cases e.toTree <;> rfl

/-- The slot of one argument. -/
def toSlot : Expr → Except Error Slot
  | .assign (.not (.not name)) value _ _ => do
    let v ← value.toTree
    let n ← name.toTree
    return .positional (.define n v)
  | .assign target value targetText _ => do
    let v ← value.toTree
    let name ← target.toSlotName targetText
    return .labelled name v
  | e => e.toTree.map .positional

theorem toSlots_eq_mapM (args : List Expr) : toSlots args = args.mapM toSlot := by
  induction args with
  | nil => rfl
  | cons a args ih =>
    rw [List.mapM_cons, ← ih]
    fun_cases toSlot a with
    | case1 name value target text =>
      simp only [toSlots, bind_assoc, pure_bind]
      rfl
    | case2 target value targetText text hplain =>
      rw [toSlots.eq_3 _ _ _ _ _ hplain]
      simp only [bind_assoc, pure_bind]
      rfl
    | case3 e hplain hdefine =>
      rw [toSlots.eq_4 _ _ hplain hdefine]
      cases a.toTree <;> rfl

theorem toSlot_bangs (h : e.isNot = false) (k : Nat) (value : Expr) (target text : String) :
    (Expr.assign (bangs (k + 2) e) value target text).toSlot = (do
      let v ← value.toTree
      let name ← e.toTree.map (Tree.banged k)
      return .positional (.define name v)) := by
  rw [← toTree_bangs h]
  rfl

/-- Runs of bangs before an operand, with parentheses between them, and before the `=` of an
argument. -/
theorem bangs_read_in_threes (h : e.isNot = false) (k : Nat) :
    (∀ ks, (runs ks (bangs k e)).toTree =
      e.toTree.map fun t => ks.foldr Tree.banged (Tree.banged k t)) ∧
    ∀ before after value target text,
      toSlots (before ++ .assign (bangs (k + 2) e) value target text :: after) = (do
        let slots ← toSlots before
        let v ← value.toTree
        let name ← e.toTree.map (Tree.banged k)
        let rest ← toSlots after
        return slots ++ .positional (.define name v) :: rest) := by
  refine ⟨toTree_runs h k, fun before after value target text => ?_⟩
  simp only [toSlots_eq_mapM, List.mapM_append, List.mapM_cons, toSlot_bangs h, bind_assoc,
    pure_bind]

theorem bangs_before_x :
    isNot (.path false ["x"]) = false ∧
    (runs [5] (bangs 4 (.path false ["x"]))).toTree =
      .ok (.splice (.unquote (.splice (.callNamed "!" [.reference "x"])))) ∧
    toSlots [.bool true, .assign (bangs 6 (.path false ["x"])) .unit "!!!!!!x" "!!!!!!x = ()"] =
      .ok [.positional (.literal (.bool true)),
        .positional (.define (.splice (.callNamed "!" [.reference "x"])) (.literal .null))] :=
  ⟨rfl, (bangs_read_in_threes rfl 4).1 [5],
    (bangs_read_in_threes rfl 4).2 [.bool true] [] .unit "!!!!!!x" "!!!!!!x = ()"⟩

end Source.Expr

end Quotation
