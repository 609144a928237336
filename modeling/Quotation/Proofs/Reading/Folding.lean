import Mathlib.Algebra.Group.Int.Defs
import Mathlib.Algebra.Group.Nat.Defs
import Quotation.Proofs.Reading.Composition
import Quotation.Proofs.Reading.Placement

namespace Quotation

/-- An integer whose negative fits in 64 bits. -/
def Symmetric (n : Int64) : Prop := -(2 ^ 63 - 1) ≤ n.toInt ∧ n.toInt ≤ 2 ^ 63 - 1

namespace Symmetric

variable {n : Int64}

theorem toInt_neg (h : Symmetric n) : (-n).toInt = -n.toInt := by
  rw [Int64.toInt_neg]
  apply Int.bmod_eq_of_le
  · have := h.2
    omega
  · have := h.1
    omega

theorem neg (h : Symmetric n) : Symmetric (-n) := by
  unfold Symmetric
  rw [h.toInt_neg]
  have := h.1
  have := h.2
  omega

end Symmetric

/-- All integers of a tree have a negative. -/
def Tree.Negatable (t : Tree) : Prop :=
  t.Everywhere fun u => ∀ n, u = .literal (.int n) → Symmetric n

namespace Tree.Negatable

theorem literal {v : Value} (h : ∀ n, v = .int n → Symmetric n) : Negatable (.literal v) := by
  refine everywhere_iff.2 ⟨?_, nofun⟩
  rintro n ⟨⟩
  exact h n rfl

theorem node {t : Tree} (ht : ∀ v, t ≠ .literal v) (h : ∀ c ∈ t.children, Negatable c) :
    Negatable t :=
  everywhere_iff.2 ⟨fun _ hn => absurd hn (ht _), h⟩

theorem symmetric {n : Int64} (h : Negatable (.literal (.int n))) : Symmetric n :=
  (everywhere_iff.1 h).1 n rfl

theorem float (x : Float) : Negatable (.literal (.float x)) := literal nofun

theorem minus {t : Tree} (h : Negatable t) : Negatable (.callNamed "-" [t]) :=
  node nofun (List.forall_mem_cons.2 ⟨node nofun nofun, List.forall_mem_singleton.2 h⟩)

theorem negated {t : Tree} (h : Negatable t) : Negatable (Source.negated t) := by
  fun_cases Source.negated t with
  | case1 n =>
    refine literal ?_
    rintro _ ⟨⟩
    exact h.symmetric.neg
  | case2 x => exact float _
  | case3 => exact h.minus

end Tree.Negatable

namespace Source

theorem Literal.toValue_symmetric (l : Literal) :
    Gives (fun v => ∀ n, v = .int n → Symmetric n) l.toValue := by
  cases l with
  | int spelling m =>
    rw [Literal.toValue]
    split
    · rename_i hm
      refine .ok ?_
      rintro _ ⟨⟩
      unfold Symmetric
      rw [Int64.toInt_ofNat_of_lt hm]
      have : m < 2 ^ 63 := hm
      omega
    · exact .error _
  | float | str | char =>
    refine .ok ?_
    rintro _ ⟨⟩
  | other => exact .error _

theorem negatable_composition : Composition Tree.Negatable Tree.Negatable where
  constant l := l.toValue_symmetric.mono fun _ hv => .literal hv
  bool _ := .literal nofun
  null := .literal nofun
  reference _ := .node nofun nofun
  call hhead hargs := .node nofun (List.forall_mem_cons.2 ⟨hhead, hargs⟩)
  unquote ht := .node nofun (List.forall_mem_singleton.2 ht)
  splice ht := .node nofun (List.forall_mem_singleton.2 ht)
  negated ht := ht.negated
  argument ht := ht
  definition hn hv := .node nofun (List.forall_mem_cons.2 ⟨hn, List.forall_mem_singleton.2 hv⟩)

namespace Expr

/-- An integer behind minus signs, parentheses and groups, with the number that it stands for. -/
inductive Signed : Expr → Int → Prop
  | unsigned (spelling : String) {m : Nat} : m < 2 ^ 63 → Signed (.literal (.int spelling m)) m
  | paren {e : Expr} {z : Int} : Signed e z → Signed (.paren e) z
  | group {e : Expr} {z : Int} : Signed e z → Signed (.group e) z
  | neg {e : Expr} {z : Int} : Signed e z → Signed (.neg e) (-z)

variable {e : Expr} {z : Int} {n : Int64}

theorem symmetric_of_toTree (h : e.toTree = .ok (.literal (.int n))) : Symmetric n :=
  (negatable_composition.toTree_gives.1 e _ h).symmetric

theorem toTree_neg (h : e.toTree = .ok (.literal (.int n))) :
    (Expr.neg e).toTree = .ok (.literal (.int (-n))) := by
  rw [toTree, h]
  rfl

theorem Signed.toTree (h : Signed e z) :
    ∃ n : Int64, e.toTree = .ok (.literal (.int n)) ∧ n.toInt = z := by
  induction h with
  | unsigned spelling hm =>
    have hvalue : (Literal.int spelling _).toValue = .ok (.int (Int64.ofNat _)) := if_pos hm
    refine ⟨Int64.ofNat _, ?_, Int64.toInt_ofNat_of_lt hm⟩
    rw [Expr.toTree, hvalue]
    rfl
  | paren _ ih | group _ ih => exact ih
  | neg _ ih =>
    obtain ⟨n, hn, rfl⟩ := ih
    exact ⟨-n, toTree_neg hn, (symmetric_of_toTree hn).toInt_neg⟩

theorem call_gives (head : Tree) (args : List Slot) :
    Gives (fun t : Tree => ∀ v, t ≠ .literal v) (.ok (.call head args)) := .ok nofun

theorem toTree_not_gives (e : Expr) : Gives (fun t => ∀ v, t ≠ .literal v) (Expr.not e).toTree := by
  cases e with
  | not e => cases e <;> exact (Gives.trivial _).map fun _ _ => nofun
  | _ => exact (Gives.trivial _).map fun _ _ => nofun

theorem toTree_binary_gives (op : String) (a b : Expr) :
    Gives (fun t => ∀ v, t ≠ .literal v) (Expr.binary op a b).toTree := by
  rw [toTree]
  split
  · exact (Gives.trivial _).bind fun _ _ => (Gives.trivial _).bind fun _ _ => call_gives _ _
  · exact .error _

theorem signed_of_toTree : ∀ (e : Expr) {n : Int64}, e.toTree = .ok (.literal (.int n)) →
    Signed e n.toInt
  | .literal (.int spelling m), n, h => by
    rw [toTree, Literal.toValue] at h
    split at h
    · rename_i hm
      cases h
      rw [Int64.toInt_ofNat_of_lt hm]
      exact .unsigned spelling hm
    · cases h
  | .paren e, n, h => .paren (signed_of_toTree e h)
  | .group e, n, h => .group (signed_of_toTree e h)
  | .neg e, n, h => by
    rw [toTree] at h
    cases ht : e.toTree with
    | error x =>
      rw [ht] at h
      cases h
    | ok t =>
      rw [ht] at h
      have hneg : negated t = .literal (.int n) := Except.ok.inj h
      -- Only an integer has an integer for its negative.
      revert hneg
      fun_cases negated t with
      | case1 k =>
        rintro ⟨⟩
        rw [(symmetric_of_toTree ht).toInt_neg]
        exact .neg (signed_of_toTree e ht)
      | case2 => rintro ⟨⟩
      | case3 => rintro ⟨⟩
  | .not e, n, h => absurd rfl (toTree_not_gives e _ h _)
  | .binary op a b, n, h => absurd rfl (toTree_binary_gives op a b _ h _)
  | .call head args, n, h => by
    have hcall : Gives (fun t => ∀ v, t ≠ .literal v) (Expr.call head args).toTree :=
      (Gives.trivial _).bind fun _ _ => (Gives.trivial _).bind fun _ _ => call_gives _ _
    exact absurd rfl (hcall _ h _)
  | .method receiver name none args, n, h => by
    have hcall :
        Gives (fun t => ∀ v, t ≠ .literal v) (Expr.method receiver name none args).toTree :=
      (Gives.trivial _).bind fun _ _ => (Gives.trivial _).bind fun _ _ => call_gives _ _
    exact absurd rfl (hcall _ h _)
  | .array elements, n, h => by
    have hcall : Gives (fun t => ∀ v, t ≠ .literal v) (Expr.array elements).toTree :=
      (Gives.trivial _).bind fun _ _ => call_gives _ _
    exact absurd rfl (hcall _ h _)
  | .literal (.float _ _), n, h | .literal (.str _ _), n, h | .literal (.char _ _), n, h
  | .literal (.other _), n, h | .bool _, n, h | .path _ _, n, h | .genericPath _, n, h | .unit, n, h
  | .dots, n, h | .deref _, n, h | .method _ _ (some _) _, n, h | .assign _ _ _ _, n, h
  | .other _ _, n, h => by cases h

/-- An expression is read as an integer exactly if it is one behind signs, parentheses and groups,
and as the one that they make of it. The negative that a further minus sign takes is exact; so is that of
every integer in the tree of an expression, since all of them lie between `-(2 ^ 63 - 1)` and
`2 ^ 63 - 1`. -/
theorem integers_have_negatives (e : Expr) :
    (∀ n : Int64, e.toTree = .ok (.literal (.int n)) ↔ Signed e n.toInt) ∧
      (∀ n : Int64, e.toTree = .ok (.literal (.int n)) →
        (Expr.neg e).toTree = .ok (.literal (.int (-n))) ∧ (-n).toInt = -n.toInt) ∧
      ∀ (t : Tree) (n : Int64), e.toTree = .ok t → (Tree.literal (.int n)).Within t →
        -(2 ^ 63 - 1) ≤ n.toInt ∧ n.toInt ≤ 2 ^ 63 - 1 ∧ (-n).toInt = -n.toInt := by
  refine ⟨fun n => ⟨signed_of_toTree e, fun h => ?_⟩, fun n h => ?_, fun t n ht hn => ?_⟩
  · obtain ⟨k, hk, hkn⟩ := h.toTree
    rwa [Int64.toInt_inj.1 hkn] at hk
  · exact ⟨toTree_neg h, (symmetric_of_toTree h).toInt_neg⟩
  · have hsymmetric : Symmetric n := negatable_composition.toTree_gives.1 e t ht _ hn n rfl
    exact ⟨hsymmetric.1, hsymmetric.2, hsymmetric.toInt_neg⟩

theorem greatest_integer_has_negative :
    let literal : Expr := .literal (.int "9223372036854775807" 9223372036854775807)
    let e : Expr := .neg (.paren (.neg (.group literal)))
    let n : Int64 := 9223372036854775807
    (Expr.not (.not e)).toTree = .ok (.unquote (.literal (.int n))) ∧
      (Tree.literal (.int n)).Within (.unquote (.literal (.int n))) ∧ n.toInt ≤ 2 ^ 63 - 1 ∧
      e.toTree = .ok (.literal (.int n)) ∧
      (Expr.neg e).toTree = .ok (.literal (.int (-n))) ∧ (-n).toInt = -n.toInt := by
  intro literal e n
  have hwithin : (Tree.literal (.int n)).Within (.unquote (.literal (.int n))) :=
    .inside (List.mem_singleton_self _) (.here _)
  have he : e.toTree = .ok (.literal (.int n)) := rfl
  have hoperand : (Expr.not (.not e)).toTree = .ok (.unquote (.literal (.int n))) := rfl
  exact ⟨hoperand, hwithin,
    ((integers_have_negatives (.not (.not e))).2.2 _ n hoperand hwithin).2.1, he,
    (integers_have_negatives e).2.1 n he⟩

end Expr

end Source

end Quotation
