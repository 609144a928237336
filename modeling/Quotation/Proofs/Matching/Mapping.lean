import Mathlib.Data.List.Basic
import Quotation.Engine.Closure

namespace Quotation

def Matching.map (g : PromiseId → PromiseId) (m : Matching) : Matching :=
  ⟨m.slots.map (Option.map g), m.dots.map (List.map (Named.map g))⟩

variable (g : PromiseId → PromiseId)

theorem fillNamed_map (formals : List (Formal Tree)) (supplied : List (Named PromiseId))
    (slots : List (Option PromiseId)) :
    fillNamed formals (supplied.map (Named.map g)) (slots.map (Option.map g)) =
      (fillNamed formals supplied slots).map
        (Prod.map (List.map (Option.map g)) (List.map (Named.map g))) := by
  induction supplied generalizing slots with
  | nil => rfl
  | cons a rest ih =>
    obtain ⟨name, p⟩ := a
    simp only [List.map_cons, Named.map, fillNamed]
    cases name.bind (formalIndex? formals) with
    | none =>
      simp only [ih]
      cases fillNamed formals rest slots <;> rfl
    | some i =>
      have hfilled : (((slots.map (Option.map g))[i]?).join).isSome =
          ((slots[i]?).join).isSome := by
        rw [List.getElem?_map]
        rcases slots[i]? with _ | _ | p <;> rfl
      have hset : (slots.map (Option.map g)).set i (some (g p)) =
          (slots.set i (some p)).map (Option.map g) := by
        rw [List.map_set, Option.map_some]
      simp only [hfilled, hset, ih]
      split <;> rfl

theorem fillPositional_map (limit : Nat) (supplied : List (Named PromiseId))
    (slots : List (Option PromiseId)) :
    fillPositional limit (supplied.map (Named.map g)) (slots.map (Option.map g)) =
      Prod.map (List.map (Option.map g)) (List.map (Named.map g))
        (fillPositional limit supplied slots) := by
  induction supplied generalizing slots with
  | nil => rfl
  | cons a rest ih =>
    obtain ⟨name, p⟩ := a
    have hfree : ((slots.map (Option.map g)).take limit).findIdx? Option.isNone =
        (slots.take limit).findIdx? Option.isNone := by
      rw [← List.map_take, List.findIdx?_map]
      simp [Function.comp_def]
    have hset : ∀ i, (slots.map (Option.map g)).set i (some (g p)) =
        (slots.set i (some p)).map (Option.map g) := fun i => by
      rw [List.map_set, Option.map_some]
    simp only [List.map_cons, Named.map, fillPositional, hfree, hset, ih]
    cases name with
    | some name => rfl
    | none => cases (slots.take limit).findIdx? Option.isNone <;> rfl

theorem matchArguments_map (formals : List (Formal Tree)) (supplied : List (Named PromiseId)) :
    matchArguments formals (supplied.map (Named.map g)) =
      (matchArguments formals supplied).map (Matching.map g) := by
  have hempty : (formals.map fun _ => (none : Option PromiseId)) =
      (formals.map fun _ => none).map (Option.map g) := by
    rw [List.map_map]
    rfl
  rw [matchArguments, hempty, fillNamed_map, matchArguments]
  cases fillNamed formals supplied (formals.map fun _ => none) with
  | error e => rfl
  | ok r =>
    obtain ⟨slots, left⟩ := r
    simp only [Except.map, Prod.map, Bind.bind, Except.bind, fillPositional_map]
    cases formals.findIdx? Formal.isDots with
    | some limit => rfl
    | none =>
      simp only
      generalize fillPositional formals.length left slots = r
      obtain ⟨slots, _ | ⟨a, rest⟩⟩ := r <;> rfl

end Quotation
