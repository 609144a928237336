import Quotation.Engine.Closure
import Quotation.Prelude.Builtins
import Quotation.Prelude.Specials

namespace Quotation

def Error.isOverflow : Error → Bool
  | .stackOverflow _ _ => true
  | _ => false

def PlainFailure {α : Type} (x : Except Error α) : Prop := ∀ e, x = .error e → e.isOverflow = false

namespace PlainFailure

variable {α β : Type}

theorem ok (a : α) : PlainFailure (.ok a) := fun _ h => nomatch h

theorem error {e : Error} (h : e.isOverflow = false) :
    PlainFailure (.error e : Except Error α) := by
  intro e' h'
  cases h'
  exact h

theorem bind {x : Except Error α} {f : α → Except Error β} (hx : PlainFailure x)
    (hf : ∀ a, PlainFailure (f a)) : PlainFailure (x >>= f) := by
  cases x with
  | error e => exact error (hx e rfl)
  | ok a => exact hf a

theorem map {x : Except Error α} (f : α → β) (hx : PlainFailure x) : PlainFailure (x.map f) := by
  cases x with
  | error e => exact error (hx e rfl)
  | ok a => exact ok (f a)

end PlainFailure

theorem Tree.ofValue_plainFailure (v : Value) : PlainFailure (Tree.ofValue v) := by
  unfold Tree.ofValue
  split
  · exact .ok _
  · exact .ok _
  · exact .error rfl
  · split
    · exact .error rfl
    · exact .ok _
  · exact .ok _

theorem Slot.ofItems_plainFailure (index : Nat) (items : List Item) :
    PlainFailure (Slot.ofItems index items) := by
  induction items generalizing index with
  | nil => exact .ok _
  | cons i rest ih =>
    simp only [Slot.ofItems]
    split
    · exact .error rfl
    · exact (ih _).map _

theorem Slot.ofSequence_plainFailure (v : Value) : PlainFailure (Slot.ofSequence v) := by
  unfold Slot.ofSequence
  split
  · exact .ok _
  · exact Slot.ofItems_plainFailure 0 _
  · exact .ok _
  · exact .error rfl

theorem Item.ofSequence_plainFailure (v : Value) : PlainFailure (Item.ofSequence v) := by
  unfold Item.ofSequence
  split
  · exact .ok _
  · exact .ok _
  · exact .ok _
  · exact .error rfl

theorem Value.toName_plainFailure (v : Value) : PlainFailure v.toName := by
  unfold Value.toName
  split
  · exact .ok _
  · exact .error rfl

theorem fillNamed_plainFailure (formals : List (Formal Tree)) (supplied : List (Named PromiseId))
    (slots : List (Option PromiseId)) : PlainFailure (fillNamed formals supplied slots) := by
  induction supplied generalizing slots with
  | nil => exact .ok _
  | cons a rest ih =>
    simp only [fillNamed]
    split
    · exact (ih slots).map _
    · split
      · exact .error rfl
      · exact ih _

theorem matchArguments_plainFailure (formals : List (Formal Tree))
    (supplied : List (Named PromiseId)) : PlainFailure (matchArguments formals supplied) := by
  refine (fillNamed_plainFailure _ _ _).bind fun r => ?_
  cases formals.findIdx? Formal.isDots with
  | some limit => exact .ok _
  | none =>
    dsimp only
    split
    · exact .ok _
    · exact .error rfl

namespace Number

theorem ofOperand_plainFailure (op : String) (v : Value) : PlainFailure (ofOperand op v) := by
  unfold ofOperand
  split
  · exact .ok _
  · exact .error rfl

theorem checked_plainFailure (n : Int) : PlainFailure (checked n) := by
  unfold checked
  split
  · exact .ok _
  · exact .error rfl

theorem onInts_plainFailure (op : Builtin.Arithmetic) (x y : Int64) :
    PlainFailure (onInts op x y) := by
  cases op with
  | add | sub | mul => exact checked_plainFailure _
  | div =>
    simp only [onInts]
    split
    · exact .error rfl
    · exact checked_plainFailure _
  | rem =>
    simp only [onInts]
    split
    · exact .error rfl
    · exact (checked_plainFailure _).bind fun _ => checked_plainFailure _

theorem binary_plainFailure (op : Builtin.Arithmetic) (x y : Number) :
    PlainFailure (binary op x y) := by
  unfold binary
  split
  · exact (onInts_plainFailure _ _ _).map _
  · exact .ok _

theorem negate_plainFailure (n : Number) : PlainFailure n.negate := by
  cases n with
  | int n => exact (checked_plainFailure _).map _
  | float x => exact .ok _

end Number

namespace Builtin

theorem oneArgument_plainFailure (op : String) (args : List Item) :
    PlainFailure (oneArgument op args) := by
  unfold oneArgument
  split
  · exact .ok _
  · exact .error rfl

theorem twoArguments_plainFailure (op : String) (args : List Item) :
    PlainFailure (twoArguments op args) := by
  unfold twoArguments
  split
  · exact .ok _
  · exact .error rfl

theorem arithmetic_plainFailure (op : Arithmetic) (args : List Item) :
    PlainFailure (arithmetic op args) := by
  unfold arithmetic
  split
  · refine (Number.ofOperand_plainFailure _ _).bind fun n => ?_
    cases op with
    | add => exact .ok _
    | sub => exact (Number.negate_plainFailure n).map _
    | mul | div | rem => exact .error rfl
  · refine (twoArguments_plainFailure _ _).bind fun ab => ?_
    refine (Number.ofOperand_plainFailure _ _).bind fun x => ?_
    refine (Number.ofOperand_plainFailure _ _).bind fun y => ?_
    exact (Number.binary_plainFailure op x y).map _

theorem ordering_plainFailure (op : String) (a b : Value) : PlainFailure (ordering op a b) := by
  unfold ordering
  split
  · exact .ok _
  · refine (Number.ofOperand_plainFailure _ _).bind fun x => ?_
    refine (Number.ofOperand_plainFailure _ _).bind fun y => ?_
    split
    · exact .ok _
    · exact .error rfl

theorem order_plainFailure (op : Order) (args : List Item) : PlainFailure (order op args) :=
  (twoArguments_plainFailure _ _).bind fun _ => (ordering_plainFailure _ _ _).bind fun _ => .ok _

theorem equal_plainFailure (op : String) (args : List Item) : PlainFailure (equal op args) :=
  (twoArguments_plainFailure _ _).bind fun _ => .ok _

theorem truth_plainFailure (op : String) (v : Value) : PlainFailure (truth op v) := by
  unfold truth
  split
  · exact .ok _
  · exact .error rfl

theorem logic_plainFailure (op : String) (combine : Bool → Bool → Bool) (args : List Item) :
    PlainFailure (logic op combine args) := by
  refine (twoArguments_plainFailure _ _).bind fun _ => ?_
  refine (truth_plainFailure _ _).bind fun _ => ?_
  exact (truth_plainFailure _ _).bind fun _ => .ok _

theorem negation_plainFailure (args : List Item) : PlainFailure (negation args) :=
  (oneArgument_plainFailure _ _).bind fun _ => (truth_plainFailure _ _).bind fun _ => .ok _

theorem Op.run_failure {host : String → List Item → World → Except Error Value × World} {op : Op}
    {args : List Item} {w : World} {e : Error} (h : (op.run host args w).1 = .error e) :
    e.isOverflow = false ∨ ∃ name, (host name args w).1 = .error e := by
  cases op with
  | arithmetic op => exact .inl (arithmetic_plainFailure op args e h)
  | order op => exact .inl (order_plainFailure op args e h)
  | equal => exact .inl ((equal_plainFailure _ args).map _ e h)
  | notEqual => exact .inl ((equal_plainFailure _ args).map _ e h)
  | not => exact .inl (negation_plainFailure args e h)
  | and => exact .inl (logic_plainFailure _ _ args e h)
  | or => exact .inl (logic_plainFailure _ _ args e h)
  | list => exact .inl (PlainFailure.ok _ e h)
  | length => exact .inl ((oneArgument_plainFailure _ args).map _ e h)
  | identity => exact .inl (oneArgument_plainFailure _ args e h)
  | host name => exact .inr ⟨name, h⟩

end Builtin

theorem Mask.addItems_plainFailure (m : Mask) (items : List Item) :
    PlainFailure (addItems m items) := by
  induction items generalizing m with
  | nil => exact .ok _
  | cons i rest ih =>
    obtain ⟨name, v⟩ := i
    cases name with
    | none => exact .error rfl
    | some name => exact ih _

theorem Mask.ofValue_plainFailure (v : Value) : PlainFailure (Mask.ofValue v) := by
  unfold Mask.ofValue
  split
  · exact Mask.addItems_plainFailure _ _
  · exact .error rfl

theorem CallHead.ofValue_plainFailure (v : Value) : PlainFailure (CallHead.ofValue v) := by
  unfold CallHead.ofValue
  split
  · exact .ok _
  · exact .ok _
  · exact .ok _
  · split
    · exact .ok _
    · exact .error rfl

theorem SpecialCall.single_plainFailure (call : SpecialCall) (name : String) :
    PlainFailure (call.single name) := by
  unfold SpecialCall.single
  split
  · exact .ok _
  · exact .error rfl
  · exact .error rfl

namespace Special

theorem dataMask_plainFailure (v : Value) : PlainFailure (dataMask v) := by
  unfold dataMask
  split
  · exact .ok _
  · exact (Mask.ofValue_plainFailure _).map _

theorem tidyArguments_plainFailure (call : SpecialCall) : PlainFailure (tidyArguments call) := by
  unfold tidyArguments
  split
  · exact .error rfl
  · exact .ok _
  · exact .ok _
  · exact .error rfl

end Special

end Quotation
