import Quotation.Proofs.Substitution.Reference

/-! What substitution asks for, told from the tree alone: the marker operands that lie outside of
one another, from left to right, each at its level. Substitution evaluates each of them once, in
this order, until one fails, and puts what their values stand for in their places. -/

namespace Quotation

/-- What is asked of the evaluator at a marker. -/
inductive Query
  | tree (e : Tree)
  | slots (e : Tree)
  | name (n : Tree)
  | misplaced (e : Error)

structure Request where
  level : Nat
  query : Query

mutual

def Tree.requests : Nat → Tree → List Request
  | _, .literal _ => []
  | _, .reference _ => []
  | level, .call head args => head.requests (level + 1) ++ Slot.allRequests (level + 1) args
  | level, .pairlist args => Slot.allRequests (level + 1) args
  | level, .unquote e => [⟨level, .tree e⟩]
  | level, .splice _ => [⟨level, .misplaced .invalidSpliceContext⟩]
  | level, .define _ _ => [⟨level, .misplaced .invalidDefineContext⟩]
termination_by structural _ t => t

def Slot.requests : Nat → Slot → List Request
  | level, ⟨_, .splice e⟩ => [⟨level, .slots e⟩]
  | level, ⟨_, .define n (.splice e)⟩ => [⟨level, .name n⟩, ⟨level, .slots e⟩]
  | level, ⟨_, .define n v⟩ => ⟨level, .name n⟩ :: v.requests level
  | level, ⟨_, t⟩ => t.requests level
termination_by structural _ slot => slot

def Slot.allRequests : Nat → List Slot → List Request
  | _, [] => []
  | level, slot :: rest => Slot.requests level slot ++ Slot.allRequests level rest
termination_by structural _ l => l

end

section

variable (eng : Engine) (ev : Evaluator) (env : FrameId) (mask : Option Mask)

def Query.ask : Query → Eval Value
  | .tree e => do
    let v ← ev e env mask
    let t ← Eval.ofExcept (Tree.ofValue v)
    Eval.trace eng.trace ("!!" ++ e.text ++ " => " ++ t.text)
    return v
  | .slots e => do
    let v ← ev e env mask
    let slots ← Eval.ofExcept (Slot.ofSequence v)
    Eval.trace eng.trace ("!!!" ++ e.text ++ " => " ++ toString slots.length ++ " argument(s)")
    return v
  | .name n => do
    let v ← ev n env mask
    let _ ← Eval.ofExcept v.toName
    return v
  | .misplaced e => Eval.fail e

def Request.ask (r : Request) : Eval Value := Eval.deeper r.level (r.query.ask eng ev env mask)

def askAll : List Request → Eval (List Value)
  | [] => return []
  | r :: rest => do
    let v ← r.ask eng ev env mask
    let vs ← askAll rest
    return v :: vs

end

def takeValue : StateM (List Value) Value := fun vs => (vs.headD .null, vs.tail)

def Value.asTree (v : Value) : Tree := (Tree.ofValue v).toOption.getD default

def Value.asSlots (v : Value) : List Slot := (Slot.ofSequence v).toOption.getD []

mutual

def Tree.fill : Tree → StateM (List Value) Tree
  | .literal v => return .literal v
  | .reference name => return .reference name
  | .call head args => do
    let head ← head.fill
    let args ← Slot.fillAll args
    return .call head args
  | .pairlist args => do
    let args ← Slot.fillAll args
    return .pairlist args
  | .unquote _ => return (← takeValue).asTree
  | .splice e => return .splice e
  | .define n v => return .define n v
termination_by structural t => t

def Slot.fill : Slot → StateM (List Value) (List Slot)
  | ⟨_, .splice _⟩ => return (← takeValue).asSlots
  | ⟨_, .define _ (.splice _)⟩ => do
    let name ← takeValue
    let slots ← takeValue
    return slots.asSlots.map (·.nameOr (name.asName?.getD ""))
  | ⟨_, .define _ v⟩ => do
    let name ← takeValue
    let t ← v.fill
    return [⟨some (name.asName?.getD ""), t⟩]
  | ⟨name, t⟩ => do
    let t ← t.fill
    return [⟨name, t⟩]
termination_by structural slot => slot

def Slot.fillAll : List Slot → StateM (List Value) (List Slot)
  | [] => return []
  | slot :: rest => do
    let here ← Slot.fill slot
    let there ← Slot.fillAll rest
    return here ++ there
termination_by structural l => l

end

/-- Whether the tree that a value stands for has markers. -/
def Value.holdsMarkers : Value → Bool
  | .tree t => t.hasMarkers
  | .capture c => c.tree.hasMarkers
  | _ => false

/-- Whether the answer to a query brings markers into the tree. -/
def Query.admitsMarkers : Query → Value → Bool
  | .tree _, v => v.holdsMarkers
  | .slots _, .list items => items.any fun i => i.val.holdsMarkers
  | .slots _, v => v.holdsMarkers
  | .name _, _ => false
  | .misplaced _, _ => false

def admitMarkers : List Request → List Value → Bool
  | r :: rest, v :: vs => r.query.admitsMarkers v || admitMarkers rest vs
  | _, _ => false

theorem Tree.hasMarkers_of_ofValue {v : Value} {t : Tree} (h : Tree.ofValue v = .ok t) :
    t.hasMarkers = v.holdsMarkers := by
  unfold Tree.ofValue at h
  split at h
  · cases h; rfl
  · cases h; rfl
  · cases h
  · split at h
    · cases h
    · cases h; rfl
  · rename_i htree hcapture _ _
    cases h
    unfold Value.holdsMarkers
    split
    · exact (htree _ rfl).elim
    · exact (hcapture _ rfl).elim
    · rfl

theorem Slot.anyMarkers_of_ofItems {index : Nat} {items : List Item} {l : List Slot}
    (h : Slot.ofItems index items = .ok l) :
    Slot.anyMarkers l = items.any fun i => i.val.holdsMarkers := by
  induction items generalizing index l with
  | nil =>
    cases h
    rfl
  | cons i rest ih =>
    simp only [Slot.ofItems] at h
    split at h
    · cases h
    · rename_i t ht
      cases hrest : Slot.ofItems (index + 1) rest with
      | error e => rw [hrest] at h; cases h
      | ok slots =>
        rw [hrest] at h
        cases h
        simp only [Slot.anyMarkers, Tree.hasMarkers_of_ofValue ht, ih hrest, List.any_cons]

theorem Slot.anyMarkers_of_ofSequence {v : Value} {l : List Slot} (h : Slot.ofSequence v = .ok l)
    (e : Tree) : Slot.anyMarkers l = (Query.slots e).admitsMarkers v := by
  unfold Slot.ofSequence at h
  split at h
  · cases h; rfl
  · exact Slot.anyMarkers_of_ofItems h
  · cases h; rfl
  · cases h

theorem Slot.anyMarkers_append (l r : List Slot) :
    Slot.anyMarkers (l ++ r) = (Slot.anyMarkers l || Slot.anyMarkers r) := by
  simp [Slot.anyMarkers_eq_any]

theorem Slot.anyMarkers_nameOr (l : List Slot) (name : String) :
    Slot.anyMarkers (l.map (·.nameOr name)) = Slot.anyMarkers l := by
  induction l with
  | nil => rfl
  | cons s rest ih => simp only [List.map_cons, Slot.anyMarkers, ih]; rfl

end Quotation
