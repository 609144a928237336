import Quotation.Proofs.Outcome
import Quotation.Proofs.Promises

namespace Quotation

/-- A marker outside the arguments of calls of specials. -/
inductive Tree.Exposed (special : Tree → Bool) : Tree → Prop
  | unquote (e : Tree) : Exposed special (.unquote e)
  | splice (e : Tree) : Exposed special (.splice e)
  | define (n v : Tree) : Exposed special (.define n v)
  | head {head : Tree} {args : List Slot} : special head = false → Exposed special head →
      Exposed special (.call head args)
  | argument {head : Tree} {args : List Slot} {slot : Slot} : special head = false →
      slot ∈ args → Exposed special slot.val → Exposed special (.call head args)
  | element {args : List Slot} {slot : Slot} : slot ∈ args → Exposed special slot.val →
      Exposed special (.pairlist args)

theorem Slot.anyMarkers_of_mem {args : List Slot} {slot : Slot} (hslot : slot ∈ args)
    (h : slot.val.hasMarkers = true) : Slot.anyMarkers args = true := by
  rw [Slot.anyMarkers_eq_any, List.any_eq_true]
  exact ⟨slot, hslot, h⟩

namespace Tree.Exposed

variable {special : Tree → Bool} {t : Tree}

theorem not_literal (v : Value) : ¬ Exposed special (.literal v) := nofun

theorem not_reference (name : String) : ¬ Exposed special (.reference name) := nofun

theorem call_iff {head : Tree} {args : List Slot} :
    Exposed special (.call head args) ↔ special head = false ∧
      (Exposed special head ∨ ∃ slot ∈ args, Exposed special slot.val) := by
  constructor
  · intro h
    cases h with
    | head hs h => exact ⟨hs, .inl h⟩
    | argument hs hslot h => exact ⟨hs, .inr ⟨_, hslot, h⟩⟩
  · rintro ⟨hs, h | ⟨slot, hslot, h⟩⟩
    · exact .head hs h
    · exact .argument hs hslot h

theorem pairlist_iff {args : List Slot} :
    Exposed special (.pairlist args) ↔ ∃ slot ∈ args, Exposed special slot.val := by
  constructor
  · intro h
    cases h with
    | element hslot h => exact ⟨_, hslot, h⟩
  · rintro ⟨slot, hslot, h⟩
    exact .element hslot h

theorem hasMarkers (h : t.Exposed special) : t.hasMarkers = true := by
  induction h with
  | unquote | splice | define => rfl
  | head _ _ ih => simp [Tree.hasMarkers, ih]
  | argument _ hslot _ ih => simp [Tree.hasMarkers, Slot.anyMarkers_of_mem hslot ih]
  | element hslot _ ih => simp [Tree.hasMarkers, Slot.anyMarkers_of_mem hslot ih]

end Tree.Exposed

theorem exposed?_parts_isSome_iff (h : Heap) (env : FrameId) (mask : Option Mask) :
    (∀ t, (h.exposed? env mask t).isSome ↔ t.Exposed (h.isSpecialHead env mask)) ∧
      ∀ l, (h.exposedSlots? env mask l).isSome ↔
        ∃ slot ∈ l, slot.val.Exposed (h.isSpecialHead env mask) := by
  refine Heap.exposed?.mutual_induct h env mask _ _ ?literal ?reference ?special ?call ?pairlist
    ?unquote ?splice ?define ?nil ?cons
  case literal => exact fun v => by simp [Heap.exposed?, Tree.Exposed.not_literal]
  case reference => exact fun name => by simp [Heap.exposed?, Tree.Exposed.not_reference]
  case special =>
    intro head args hs
    simp [Heap.exposed?, hs, Tree.Exposed.call_iff]
  case call =>
    intro head args hs hhead hargs
    have hs := Bool.eq_false_iff.2 hs
    simp [Heap.exposed?, hs, Tree.Exposed.call_iff, Option.isSome_or, hhead, hargs]
  case pairlist =>
    intro args hargs
    simpa [Heap.exposed?, Tree.Exposed.pairlist_iff] using hargs
  case unquote => exact fun e => by simpa [Heap.exposed?] using .unquote e
  case splice => exact fun e => by simpa [Heap.exposed?] using .splice e
  case define => exact fun n v => by simpa [Heap.exposed?] using .define n v
  case nil => simp [Heap.exposedSlots?]
  case cons =>
    intro name t rest ht hrest
    simp [Heap.exposedSlots?, Option.isSome_or, ht, hrest]

theorem exposed?_isSome_iff {h : Heap} {env : FrameId} {mask : Option Mask} {t : Tree} :
    (h.exposed? env mask t).isSome ↔ t.Exposed (h.isSpecialHead env mask) :=
  (exposed?_parts_isSome_iff h env mask).1 t

theorem exposed?_eq_none_iff {h : Heap} {env : FrameId} {mask : Option Mask} {t : Tree} :
    h.exposed? env mask t = none ↔ ¬ t.Exposed (h.isSpecialHead env mask) := by
  rw [← exposed?_isSome_iff]
  cases h.exposed? env mask t <;> simp

end Quotation
