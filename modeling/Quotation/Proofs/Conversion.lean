import Quotation.Tree.OfValue

namespace Quotation

/-- A value in another one, with nothing but lists around it. -/
inductive Value.Within : Value → Value → Prop
  | here (v : Value) : Within v v
  | element {w : Value} {items : List Item} {i : Item} : i ∈ items → Within w i.val →
      Within w (.list items)

/-- What no literal list may hold: a host resource, or a quotation with markers. -/
inductive Value.Unfit : Value → Prop
  | external (x : External) : Unfit (.external x)
  | marked {t : Tree} : t.hasMarkers = true → Unfit (.tree t)

/-- Something in the value keeps it out of literal lists. -/
def Value.HoldsUnfit (v : Value) : Prop := ∃ w : Value, w.Within v ∧ w.Unfit

namespace Value

theorem within_list_iff {w : Value} {items : List Item} :
    w.Within (.list items) ↔ w = .list items ∨ ∃ i ∈ items, w.Within i.val := by
  constructor
  · intro h
    cases h with
    | here => exact .inl rfl
    | element hi hw => exact .inr ⟨_, hi, hw⟩
  · rintro (rfl | ⟨i, hi, hw⟩)
    · exact .here _
    · exact .element hi hw

theorem Within.eq_of_asList? {w v : Value} (h : w.Within v) (hv : v.asList? = none) : w = v := by
  cases h with
  | here => rfl
  | element => simp [asList?] at hv

theorem holdsUnfit_list_iff {items : List Item} :
    (Value.list items).HoldsUnfit ↔ ∃ i ∈ items, i.val.HoldsUnfit := by
  constructor
  · rintro ⟨w, hw, hunfit⟩
    rcases within_list_iff.1 hw with rfl | ⟨i, hi, hw⟩
    · cases hunfit
    · exact ⟨i, hi, w, hw, hunfit⟩
  · rintro ⟨i, hi, w, hw, hunfit⟩
    exact ⟨w, .element hi hw, hunfit⟩

theorem holdsUnfit_iff_of_asList? {v : Value} (hv : v.asList? = none) :
    v.HoldsUnfit ↔ v.Unfit := by
  constructor
  · rintro ⟨w, hw, hunfit⟩
    exact hw.eq_of_asList? hv ▸ hunfit
  · exact fun h => ⟨v, .here v, h⟩

theorem isRepresentable_eq_false_iff (v : Value) : v.isRepresentable = false ↔ v.HoldsUnfit := by
  refine Value.isRepresentable.induct (fun v => v.isRepresentable = false ↔ v.HoldsUnfit)
    (fun items => Item.allRepresentable items = false ↔ ∃ i ∈ items, i.val.HoldsUnfit)
    ?external ?tree ?list ?other ?nil ?cons v
  case external =>
    intro x
    rw [holdsUnfit_iff_of_asList? rfl]
    exact ⟨fun _ => .external x, fun _ => rfl⟩
  case tree =>
    intro t
    rw [holdsUnfit_iff_of_asList? rfl]
    simp only [isRepresentable, Bool.not_eq_false']
    exact ⟨.marked, fun h => by cases h; assumption⟩
  case list =>
    intro items ih
    rw [holdsUnfit_list_iff, isRepresentable]
    exact ih
  case other =>
    intro v hexternal htree hlist
    have hv : v.asList? = none := by
      cases v with
      | list items => exact absurd rfl (hlist items)
      | _ => rfl
    rw [holdsUnfit_iff_of_asList? hv, isRepresentable.eq_4 v hexternal htree hlist]
    refine ⟨fun h => (nomatch h), fun h => ?_⟩
    cases h with
    | external x => exact absurd rfl (hexternal x)
    | marked => exact absurd rfl (htree _)
  case nil => simp [Item.allRepresentable]
  case cons =>
    intro name v rest hv hrest
    simp only [Item.allRepresentable, Bool.and_eq_false_iff, hv, hrest, List.mem_cons,
      exists_eq_or_imp]

end Value

structure Item.First (P : Value → Prop) (items : List Item) (n : Nat) (v : Value) : Prop where
  element : (items[n]?).map Named.val = some v
  holds : P v
  least : ∀ m < n, ∀ i, items[m]? = some i → ¬ P i.val

namespace Item.First

variable {P : Value → Prop} {i : Item} {rest : List Item} {n : Nat} {v : Value}

theorem head (h : P i.val) : First P (i :: rest) 0 i.val :=
  ⟨rfl, h, fun _ hm => absurd hm (Nat.not_lt_zero _)⟩

theorem tail (hi : ¬ P i.val) (h : First P rest n v) : First P (i :: rest) (n + 1) v where
  element := h.element
  holds := h.holds
  least m hm j hj := by
    cases m with
    | zero =>
      cases hj
      exact hi
    | succ m => exact h.least m (Nat.lt_of_succ_lt_succ hm) j hj

theorem cases_cons (h : First P (i :: rest) n v) :
    (n = 0 ∧ v = i.val ∧ P i.val) ∨ ¬ P i.val ∧ ∃ m, n = m + 1 ∧ First P rest m v := by
  cases n with
  | zero =>
    obtain rfl : i.val = v := by simpa using h.element
    exact .inl ⟨rfl, rfl, h.holds⟩
  | succ m =>
    refine .inr ⟨h.least 0 (Nat.succ_pos m) i rfl, m, rfl, h.element, h.holds, ?_⟩
    exact fun k hk => h.least (k + 1) (Nat.succ_lt_succ hk)

theorem not_nil : ¬ First P [] n v := fun h => by simpa using h.element

theorem exists_iff {items : List Item} : (∃ n v, First P items n v) ↔ ∃ i ∈ items, P i.val := by
  induction items with
  | nil => simp [not_nil]
  | cons i rest ih =>
    simp only [List.mem_cons, exists_eq_or_imp, ← ih]
    constructor
    · rintro ⟨n, v, h⟩
      rcases h.cases_cons with ⟨-, -, hi⟩ | ⟨-, m, -, hrest⟩
      · exact .inl hi
      · exact .inr ⟨m, v, hrest⟩
    · rintro h
      by_cases hi : P i.val
      · exact ⟨0, i.val, head hi⟩
      · obtain ⟨n, v, hrest⟩ := h.resolve_left hi
        exact ⟨n + 1, v, hrest.tail hi⟩

end Item.First

theorem Item.firstUnrepresentable?_eq_some_iff (start : Nat) (items : List Item) (k : Nat)
    (v : Value) :
    Item.firstUnrepresentable? start items = some (k, v) ↔
      ∃ n, k = start + n ∧ Item.First Value.HoldsUnfit items n v := by
  induction items generalizing start with
  | nil => simp [Item.firstUnrepresentable?, Item.First.not_nil]
  | cons i rest ih =>
    simp only [Item.firstUnrepresentable?]
    cases hi : i.val.isRepresentable with
    | false =>
      have hunfit := (Value.isRepresentable_eq_false_iff _).1 hi
      simp only [Bool.false_eq_true, if_false, Option.some.injEq, Prod.mk.injEq]
      constructor
      · rintro ⟨rfl, rfl⟩
        exact ⟨0, rfl, .head hunfit⟩
      · rintro ⟨n, rfl, h⟩
        rcases h.cases_cons with ⟨rfl, rfl, -⟩ | ⟨hfit, -⟩
        · exact ⟨rfl, rfl⟩
        · exact absurd hunfit hfit
    | true =>
      have hfit : ¬ i.val.HoldsUnfit := by
        rw [← Value.isRepresentable_eq_false_iff, hi]
        simp
      rw [if_pos rfl, ih]
      constructor
      · rintro ⟨n, rfl, h⟩
        exact ⟨n + 1, by omega, h.tail hfit⟩
      · rintro ⟨n, rfl, h⟩
        rcases h.cases_cons with ⟨-, -, hunfit⟩ | ⟨-, m, rfl, hrest⟩
        · exact absurd hunfit hfit
        · exact ⟨m, by omega, hrest⟩

/-- How a value fails to have a tree: itself, or by its first element with an unfit part. -/
inductive Tree.OfValueFails : Value → Error → Prop
  | external (x : External) : OfValueFails (.external x) (.unrepresentableValue (.external x) none)
  | element {items : List Item} {n : Nat} {v : Value} :
      Item.First Value.HoldsUnfit items n v →
      OfValueFails (.list items) (.unrepresentableValue v (some n))

theorem Tree.ofValue_eq_error_iff (v : Value) (e : Error) :
    Tree.ofValue v = .error e ↔ Tree.OfValueFails v e := by
  constructor
  · intro h
    cases v with
    | external x =>
      cases h
      exact .external x
    | list items =>
      simp only [Tree.ofValue] at h
      split at h
      · rename_i k w hk
        cases h
        obtain ⟨n, rfl, hfirst⟩ := (Item.firstUnrepresentable?_eq_some_iff 0 items k w).1 hk
        rw [Nat.zero_add]
        exact .element hfirst
      · cases h
    | _ => cases h
  · intro h
    cases h with
    | external x => rfl
    | @element items n w hfirst =>
      have hn := (Item.firstUnrepresentable?_eq_some_iff 0 items n w).2 ⟨n, by omega, hfirst⟩
      simp only [Tree.ofValue, hn]

inductive Value.IsSequence : Value → Prop
  | null : IsSequence .null
  | list (items : List Item) : IsSequence (.list items)
  | pairlist (args : List Slot) : IsSequence (.tree (.pairlist args))

inductive Slot.OfSequence : Value → List Slot → Prop
  | null : OfSequence .null []
  | list {items : List Item} {slots : List Slot} :
      items.map (Named.map Tree.ofValue) = slots.map (Named.map .ok) → OfSequence (.list items) slots
  | pairlist (args : List Slot) : OfSequence (.tree (.pairlist args)) args

def Value.NoTree (v : Value) : Prop := ∃ e, Tree.ofValue v = .error e

inductive Slot.OfSequenceFails : Value → Error → Prop
  | element {items : List Item} {n : Nat} {v : Value} : Item.First Value.NoTree items n v →
      OfSequenceFails (.list items) (.unrepresentableValue v (some n))
  | noSequence {v : Value} : ¬ v.IsSequence → OfSequenceFails v (.notASequence v.typeName)

theorem Slot.ofItems_eq_ok_iff (start : Nat) (items : List Item) (slots : List Slot) :
    Slot.ofItems start items = .ok slots ↔
      items.map (Named.map Tree.ofValue) = slots.map (Named.map .ok) := by
  induction items generalizing start slots with
  | nil => cases slots <;> simp [Slot.ofItems]
  | cons i rest ih =>
    simp only [Slot.ofItems]
    cases hi : Tree.ofValue i.val with
    | error e => cases slots <;> simp [Named.map, hi]
    | ok t =>
      cases slots with
      | nil => cases Slot.ofItems (start + 1) rest <;> simp [Except.map]
      | cons slot slots =>
        have hrest := ih (start + 1) slots
        obtain ⟨name, u⟩ := slot
        simp only [List.map_cons, List.cons.injEq, ← hrest]
        cases Slot.ofItems (start + 1) rest <;> simp [Except.map, Named.map, hi]

theorem Slot.ofItems_eq_error_iff (start : Nat) (items : List Item) (e : Error) :
    Slot.ofItems start items = .error e ↔
      ∃ n v, Item.First Value.NoTree items n v ∧ e = .unrepresentableValue v (some (start + n)) := by
  induction items generalizing start with
  | nil => simp [Slot.ofItems, Item.First.not_nil]
  | cons i rest ih =>
    simp only [Slot.ofItems]
    cases hi : Tree.ofValue i.val with
    | error e' =>
      have hnone : i.val.NoTree := ⟨e', hi⟩
      constructor
      · rintro ⟨⟩
        exact ⟨0, i.val, .head hnone, rfl⟩
      · rintro ⟨n, v, h, rfl⟩
        rcases h.cases_cons with ⟨rfl, rfl, -⟩ | ⟨htree, -⟩
        · rfl
        · exact absurd hnone htree
    | ok t =>
      have htree : ¬ i.val.NoTree := by
        rintro ⟨e', he⟩
        exact nomatch hi.symm.trans he
      have hmap : (Slot.ofItems (start + 1) rest).map (⟨i.name, t⟩ :: ·) = .error e ↔
          Slot.ofItems (start + 1) rest = .error e := by
        cases Slot.ofItems (start + 1) rest <;> simp [Except.map]
      dsimp only
      rw [hmap, ih]
      constructor
      · rintro ⟨n, v, h, rfl⟩
        exact ⟨n + 1, v, h.tail htree, by rw [Nat.add_right_comm]; rfl⟩
      · rintro ⟨n, v, h, rfl⟩
        rcases h.cases_cons with ⟨-, -, hnone⟩ | ⟨-, m, rfl, hrest⟩
        · exact absurd hnone htree
        · exact ⟨m, v, hrest, by rw [Nat.add_right_comm]; rfl⟩

theorem Slot.ofSequence_eq_ok_iff (v : Value) (slots : List Slot) :
    Slot.ofSequence v = .ok slots ↔ Slot.OfSequence v slots := by
  constructor
  · intro h
    unfold Slot.ofSequence at h
    split at h
    · cases h
      exact .null
    · exact .list ((Slot.ofItems_eq_ok_iff 0 _ slots).1 h)
    · cases h
      exact .pairlist _
    · cases h
  · intro h
    cases h with
    | null => rfl
    | list hall => exact (Slot.ofItems_eq_ok_iff 0 _ slots).2 hall
    | pairlist => rfl

theorem Slot.ofSequence_eq_error_iff (v : Value) (e : Error) :
    Slot.ofSequence v = .error e ↔ Slot.OfSequenceFails v e := by
  constructor
  · intro h
    unfold Slot.ofSequence at h
    split at h
    · cases h
    · obtain ⟨n, w, hfirst, rfl⟩ := (Slot.ofItems_eq_error_iff 0 _ e).1 h
      rw [Nat.zero_add]
      exact .element hfirst
    · cases h
    · rename_i hnull hlist hpairlist
      cases h
      refine .noSequence fun hv => ?_
      cases hv with
      | null => exact hnull rfl
      | list items => exact hlist items rfl
      | pairlist args => exact hpairlist args rfl
  · intro h
    cases h with
    | @element items n w hfirst =>
      exact (Slot.ofItems_eq_error_iff 0 items _).2 ⟨n, w, hfirst, by rw [Nat.zero_add]⟩
    | noSequence hv =>
      unfold Slot.ofSequence
      split
      · exact absurd .null hv
      · exact absurd (.list _) hv
      · exact absurd (.pairlist _) hv
      · rfl

theorem Value.noTree_iff (v : Value) :
    v.NoTree ↔ (∃ x, v = .external x) ∨ ∃ items, v = .list items ∧ ∃ i ∈ items, i.val.HoldsUnfit := by
  simp only [NoTree, Tree.ofValue_eq_error_iff]
  constructor
  · rintro ⟨e, h⟩
    cases h with
    | external x => exact .inl ⟨x, rfl⟩
    | element hfirst => exact .inr ⟨_, rfl, Item.First.exists_iff.1 ⟨_, _, hfirst⟩⟩
  · rintro (⟨x, rfl⟩ | ⟨items, rfl, h⟩)
    · exact ⟨_, .external x⟩
    · obtain ⟨n, w, hfirst⟩ := Item.First.exists_iff.2 h
      exact ⟨_, .element hfirst⟩

theorem Value.not_noTree_iff (v : Value) : ¬ v.NoTree ↔ ∃ t, Tree.ofValue v = .ok t := by
  unfold NoTree
  cases Tree.ofValue v <;> simp

theorem Slot.ofSequence_list_succeeds_iff (items : List Item) :
    (∃ slots, Slot.ofSequence (.list items) = .ok slots) ↔
      ∀ i ∈ items, ∃ t, Tree.ofValue i.val = .ok t := by
  have hfails : (∃ e, Slot.ofSequence (.list items) = .error e) ↔ ∃ i ∈ items, i.val.NoTree := by
    rw [← Item.First.exists_iff]
    simp only [Slot.ofSequence, Slot.ofItems_eq_error_iff]
    exact ⟨fun ⟨_, n, v, h, _⟩ => ⟨n, v, h⟩, fun ⟨n, v, h⟩ => ⟨_, n, v, h, rfl⟩⟩
  have hall : (∀ i ∈ items, ∃ t, Tree.ofValue i.val = .ok t) ↔
      ¬ ∃ e, Slot.ofSequence (.list items) = .error e := by
    simp only [hfails, not_exists, not_and, Value.not_noTree_iff]
  rw [hall]
  cases Slot.ofSequence (.list items) <;> simp

/-- A value has no tree just if it is a host resource, which is reported without an index, or a list
in which lists alone surround a host resource or a quotation with markers; then the first element
with such a part is reported. Null, pairlists, and lists whose elements all have trees can be
spliced, and give a slot for each element. Of any other list the first element without a tree is
reported, and of any other value that it is no sequence. -/
theorem conversions_report_first_unfit (v : Value) :
    (v.NoTree ↔ (∃ x, v = .external x) ∨
      ∃ items, v = .list items ∧ ∃ w : Value, w.Within v ∧ w.Unfit) ∧
    (∀ e, Tree.ofValue v = .error e ↔ Tree.OfValueFails v e) ∧
    ((∃ slots, Slot.ofSequence v = .ok slots) ↔
      v = .null ∨ (∃ args, v = .tree (.pairlist args)) ∨
        ∃ items, v = .list items ∧ ∀ i ∈ items, ∃ t, Tree.ofValue i.val = .ok t) ∧
    (∀ slots, Slot.ofSequence v = .ok slots ↔ Slot.OfSequence v slots) ∧
    ∀ e, Slot.ofSequence v = .error e ↔ Slot.OfSequenceFails v e := by
  refine ⟨?noTree, Tree.ofValue_eq_error_iff v, ?spliced, Slot.ofSequence_eq_ok_iff v,
    Slot.ofSequence_eq_error_iff v⟩
  case noTree =>
    rw [Value.noTree_iff]
    refine or_congr_right (exists_congr fun items => and_congr_right ?_)
    rintro rfl
    exact Value.holdsUnfit_list_iff.symm
  case spliced =>
    constructor
    · rintro ⟨slots, h⟩
      cases (Slot.ofSequence_eq_ok_iff v slots).1 h with
      | null => exact .inl rfl
      | @list items _ hall =>
        exact .inr (.inr ⟨items, rfl, (Slot.ofSequence_list_succeeds_iff items).1 ⟨slots, h⟩⟩)
      | pairlist => exact .inr (.inl ⟨slots, rfl⟩)
    · rintro (rfl | ⟨args, rfl⟩ | ⟨items, rfl, hall⟩)
      · exact ⟨[], rfl⟩
      · exact ⟨args, rfl⟩
      · exact (Slot.ofSequence_list_succeeds_iff items).2 hall

/-- A tree that a value quotes or captures, with nothing but lists around. -/
inductive Value.HoldsTree (v : Value) : Tree → Prop
  | quoted {t : Tree} : (Value.tree t).Within v → HoldsTree v t
  | captured {c : Capture Tree} : (Value.capture c).Within v → HoldsTree v c.tree

theorem Tree.literal_of_list {items : List Item} {w : Value}
    (h : Tree.ofValue (.list items) = .ok (.literal w)) :
    w = .list items ∧ ¬ w.HoldsUnfit := by
  have hfit : ¬ (Value.list items).HoldsUnfit := by
    intro hunfit
    have hnone := (Value.noTree_iff (.list items)).2
      (.inr ⟨items, rfl, Value.holdsUnfit_list_iff.1 hunfit⟩)
    exact (Value.not_noTree_iff _).2 ⟨_, h⟩ hnone
  simp only [Tree.ofValue] at h
  split at h
  · cases h
  · cases h
    exact ⟨rfl, hfit⟩

/-- The literal of a list quotes no tree with markers, so it holds one just if it captures one. -/
theorem literal_holds_marker_iff {items : List Item} {w : Value}
    (h : Tree.ofValue (.list items) = .ok (.literal w)) :
    (∀ t, (Value.tree t).Within w → t.hasMarkers = false) ∧
      ((∃ t, w.HoldsTree t ∧ t.hasMarkers = true) ↔
        ∃ c : Capture Tree, (Value.capture c).Within w ∧ c.tree.hasMarkers = true) := by
  obtain ⟨-, hfit⟩ := Tree.literal_of_list h
  have hquoted : ∀ t, (Value.tree t).Within w → t.hasMarkers = false := by
    intro t ht
    rw [← Bool.not_eq_true]
    exact fun hm => hfit ⟨_, ht, .marked hm⟩
  refine ⟨hquoted, ?_⟩
  constructor
  · rintro ⟨t, ht, hm⟩
    cases ht with
    | quoted ht => exact nomatch hm.symm.trans (hquoted t ht)
    | @captured c hc => exact ⟨c, hc, hm⟩
  · rintro ⟨c, hc, hm⟩
    exact ⟨c.tree, .captured hc, hm⟩

def markedCaptureList : List Item := [.positional (.capture ⟨.unquote (.reference "x"), 0⟩)]

theorem literal_of_markedCapture :
    Tree.ofValue (.list markedCaptureList) = .ok (.literal (.list markedCaptureList)) ∧
      (Value.list markedCaptureList).HoldsTree (.unquote (.reference "x")) ∧
      (Tree.unquote (.reference "x")).hasMarkers = true := by
  refine ⟨rfl, ?_, rfl⟩
  exact .captured (c := ⟨.unquote (.reference "x"), 0⟩)
    (.element (i := .positional (.capture _)) List.mem_cons_self (.here _))

theorem markedCapture_holds_marker :
    Tree.ofValue (.list markedCaptureList) = .ok (.literal (.list markedCaptureList)) ∧
      ∃ t, (Value.list markedCaptureList).HoldsTree t ∧ t.hasMarkers = true := by
  refine ⟨rfl, (@literal_holds_marker_iff markedCaptureList _ rfl).2.2 ?_⟩
  exact ⟨⟨.unquote (.reference "x"), 0⟩,
    .element (i := .positional (.capture _)) List.mem_cons_self (.here _), rfl⟩

end Quotation
