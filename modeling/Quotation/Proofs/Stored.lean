import Quotation.Tree.Stored

namespace Quotation.Stored

mutual

/-- All subtrees: a tree before its children, and those in their order. -/
def Tree.preorder : Tree → List Tree
  | .literal v => [.literal v]
  | .reference name => [.reference name]
  | .call head args marked => .call head args marked :: (head.preorder ++ Slot.preorderAll args)
  | .pairlist args => .pairlist args :: Slot.preorderAll args
  | .unquote e => .unquote e :: e.preorder
  | .splice e => .splice e :: e.preorder
  | .define n v => .define n v :: (n.preorder ++ v.preorder)
termination_by structural t => t

def Slot.preorderAll : List Slot → List Tree
  | [] => []
  | ⟨_, t⟩ :: rest => t.preorder ++ Slot.preorderAll rest
termination_by structural l => l

end

theorem Slot.preorderAll_eq_flatMap (l : List Slot) :
    Slot.preorderAll l = (l.map Named.val).flatMap Tree.preorder := by
  induction l with
  | nil => rfl
  | cons s rest ih => exact congrArg (s.val.preorder ++ ·) ih

theorem Tree.preorder_eq (t : Tree) : t.preorder = t :: t.children.flatMap Tree.preorder := by
  cases t <;> simp [preorder, children, Slot.preorderAll_eq_flatMap]

mutual

theorem Tree.childInduction {P : Tree → Prop} (step : ∀ t, (∀ c ∈ t.children, P c) → P t) :
    ∀ t, P t
  | .literal _ | .reference _ => step _ nofun
  | .call head args _ =>
    step _ (List.forall_mem_cons.mpr ⟨head.childInduction step, Slot.childInduction step args⟩)
  | .pairlist args => step _ (Slot.childInduction step args)
  | .unquote e | .splice e => step _ (List.forall_mem_singleton.mpr (e.childInduction step))
  | .define n v =>
    step _ (List.forall_mem_cons.mpr
      ⟨n.childInduction step, List.forall_mem_singleton.mpr (v.childInduction step)⟩)
termination_by structural t => t

theorem Slot.childInduction {P : Tree → Prop} (step : ∀ t, (∀ c ∈ t.children, P c) → P t) :
    ∀ l : List Slot, ∀ c ∈ l.map Named.val, P c
  | [] => nofun
  | ⟨_, t⟩ :: rest =>
    List.forall_mem_cons.mpr ⟨t.childInduction step, Slot.childInduction step rest⟩
termination_by structural l => l

end

theorem Slot.anyMarkers_eq_any (l : List Slot) :
    Slot.anyMarkers l = (l.map Named.val).any Tree.hasMarkers := by
  induction l with
  | nil => rfl
  | cons s rest ih => exact congrArg (s.val.hasMarkers || ·) ih

theorem Slot.firstMarker?_eq_findSome? (l : List Slot) :
    Slot.firstMarker? l = (l.map Named.val).findSome? Tree.firstMarker? := by
  induction l with
  | nil => rfl
  | cons s rest ih =>
    simp only [Slot.firstMarker?, ih, List.map_cons, List.findSome?_cons]
    cases s.val.firstMarker? <;> rfl

theorem Tree.firstMarker?_eq (t : Tree) :
    t.firstMarker? =
      if t.isMarker then some t
      else if t.hasMarkers then t.children.findSome? Tree.firstMarker?
      else none := by
  cases t with
  | call head args marked =>
    simp only [firstMarker?, isMarker, marker?, hasMarkers, children, List.findSome?_cons,
      Slot.firstMarker?_eq_findSome?]
    cases head.firstMarker? <;> rfl
  | pairlist args =>
    simp only [firstMarker?, isMarker, marker?, hasMarkers, children,
      Slot.firstMarker?_eq_findSome?]
    rfl
  | _ => rfl

mutual

/-- Values that are made of trees that are made. -/
inductive Value.Built : Value → Prop
  | null : Value.Built .null
  | bool (b : Bool) : Value.Built (.bool b)
  | int (n : Int64) : Value.Built (.int n)
  | float (x : Float) : Value.Built (.float x)
  | str (s : String) : Value.Built (.str s)
  | list {items : List Item} (h : ∀ i ∈ items, i.val.Built) : Value.Built (.list items)
  | tree {t : Tree} (h : t.Built) : Value.Built (.tree t)
  | capture {t : Tree} (env : FrameId) (h : t.Built) : Value.Built (.capture ⟨t, env⟩)
  | closure {formals : List (Formal Tree)} {body : Tree} (name : Option String) (env : FrameId)
      (id : Identity) (hformals : ∀ f ∈ formals, ∀ t, f.default? = some t → t.Built)
      (hbody : body.Built) : Value.Built (.closure ⟨name, formals, body, env, id⟩)
  | builtin (b : Builtin) : Value.Built (.builtin b)
  | special (s : Special) : Value.Built (.special s)
  | external (x : External) : Value.Built (.external x)

/-- Trees that are made by the constructors, a call by the one that sets its bit. -/
inductive Tree.Built : Tree → Prop
  | literal {v : Value} (h : v.Built) : Tree.Built (.literal v)
  | reference (name : String) : Tree.Built (.reference name)
  | call {head : Tree} {args : List Slot} (hhead : head.Built) (hargs : ∀ s ∈ args, s.val.Built) :
      Tree.Built (.ofCall head args)
  | pairlist {args : List Slot} (h : ∀ s ∈ args, s.val.Built) : Tree.Built (.pairlist args)
  | unquote {e : Tree} (h : e.Built) : Tree.Built (.unquote e)
  | splice {e : Tree} (h : e.Built) : Tree.Built (.splice e)
  | define {n v : Tree} (hname : n.Built) (hvalue : v.Built) : Tree.Built (.define n v)

end

namespace Tree

theorem Built.child {t c : Tree} (h : t.Built) (hc : c ∈ t.children) : c.Built := by
  have of_slots {args : List Slot} (hargs : ∀ s ∈ args, s.val.Built)
      (hc : c ∈ args.map Named.val) : c.Built := by
    obtain ⟨s, hs, rfl⟩ := List.mem_map.mp hc
    exact hargs s hs
  cases h with
  | literal | reference => cases hc
  | call hhead hargs =>
    rcases List.mem_cons.mp hc with rfl | hc
    · exact hhead
    · exact of_slots hargs hc
  | pairlist hargs => exact of_slots hargs hc
  | unquote h | splice h => cases List.mem_singleton.mp hc; exact h
  | define hname hvalue =>
    rcases List.mem_cons.mp hc with rfl | hc
    · exact hname
    · cases List.mem_singleton.mp hc; exact hvalue

theorem Built.of_mem_preorder (t : Tree) :
    t.Built → ∀ u ∈ t.preorder, u.Built := by
  induction t using childInduction with
  | step t ih =>
    intro h u hu
    rw [preorder_eq] at hu
    rcases List.mem_cons.mp hu with rfl | hu
    · exact h
    · obtain ⟨c, hc, hu⟩ := List.mem_flatMap.mp hu
      exact ih c hc (h.child hc) u hu

theorem Built.hasMarkers_eq {t : Tree} (h : t.Built) :
    t.hasMarkers = (t.isMarker || t.children.any hasMarkers) := by
  cases h with
  | call | pairlist =>
    simp [ofCall, hasMarkers, isMarker, marker?, children, Slot.anyMarkers_eq_any]
  | _ => rfl

theorem Built.hasMarkers_eq_any (t : Tree) :
    t.Built → t.hasMarkers = t.preorder.any isMarker := by
  induction t using childInduction with
  | step t ih =>
    intro h
    have hbelow : t.children.map hasMarkers = t.children.map fun c => c.preorder.any isMarker :=
      List.map_congr_left fun c hc => ih c hc (h.child hc)
    rw [h.hasMarkers_eq, preorder_eq, List.any_cons, List.any_flatMap]
    simpa only [List.any_map, Function.id_comp] using congrArg (t.isMarker || List.any · id) hbelow

theorem Built.firstMarker?_eq_find? (t : Tree) :
    t.Built → t.firstMarker? = t.preorder.find? isMarker := by
  induction t using childInduction with
  | step t ih =>
    intro h
    rw [firstMarker?_eq]
    split
    case isTrue hmarker => rw [preorder_eq, List.find?_cons_of_pos hmarker]
    case isFalse hmarker =>
      split
      case isTrue =>
        have hbelow : t.children.map firstMarker? =
            t.children.map fun c => c.preorder.find? isMarker :=
          List.map_congr_left fun c hc => ih c hc (h.child hc)
        rw [preorder_eq, List.find?_cons_of_neg hmarker, List.find?_flatMap]
        simpa only [List.findSome?_map, Function.id_comp] using congrArg (List.findSome? id) hbelow
      case isFalse hnone =>
        rw [Built.hasMarkers_eq_any t h, List.any_eq_true] at hnone
        exact (List.find?_eq_none.mpr fun u hu hmarker => hnone ⟨u, hu, hmarker⟩).symm

end Tree

mutual

theorem ofValue_built : ∀ v : Quotation.Value, (ofValue v).Built
  | .null => .null
  | .bool b => .bool b
  | .int n => .int n
  | .float x => .float x
  | .str s => .str s
  | .list items => .list (ofItems_built items)
  | .tree t => .tree (ofTree_built t)
  | .capture ⟨t, env⟩ => .capture env (ofTree_built t)
  | .closure ⟨name, formals, body, env, id⟩ =>
    .closure name env id (ofFormals_built formals) (ofTree_built body)
  | .builtin b => .builtin b
  | .special s => .special s
  | .external x => .external x
termination_by structural v => v

theorem ofItems_built : ∀ l : List Quotation.Item, ∀ i ∈ ofItems l, i.val.Built
  | [] => nofun
  | ⟨_, v⟩ :: rest => List.forall_mem_cons.mpr ⟨ofValue_built v, ofItems_built rest⟩
termination_by structural l => l

theorem ofTree_built : ∀ t : Quotation.Tree, (ofTree t).Built
  | .literal v => .literal (ofValue_built v)
  | .reference name => .reference name
  | .call head args => .call (ofTree_built head) (ofSlots_built args)
  | .pairlist args => .pairlist (ofSlots_built args)
  | .unquote e => .unquote (ofTree_built e)
  | .splice e => .splice (ofTree_built e)
  | .define n v => .define (ofTree_built n) (ofTree_built v)
termination_by structural t => t

theorem ofSlots_built : ∀ l : List Quotation.Slot, ∀ s ∈ ofSlots l, s.val.Built
  | [] => nofun
  | ⟨_, t⟩ :: rest => List.forall_mem_cons.mpr ⟨ofTree_built t, ofSlots_built rest⟩
termination_by structural l => l

theorem ofFormals_built : ∀ l : List (Formal Quotation.Tree),
    ∀ f ∈ ofFormals l, ∀ t, f.default? = some t → t.Built
  | [] => nofun
  | ⟨_, none⟩ :: rest => List.forall_mem_cons.mpr ⟨nofun, ofFormals_built rest⟩
  | ⟨_, some t⟩ :: rest =>
    List.forall_mem_cons.mpr
      ⟨fun _ h => Option.some.inj h ▸ ofTree_built t, ofFormals_built rest⟩
termination_by structural l => l

end

mutual

theorem plain_ofValue : ∀ v : Quotation.Value, (ofValue v).plain = v
  | .null | .bool _ | .int _ | .float _ | .str _ | .builtin _ | .special _ | .external _ => rfl
  | .list items => congrArg _ (plain_ofItems items)
  | .tree t => congrArg _ (plain_ofTree t)
  | .capture ⟨t, env⟩ => congrArg (fun t => Quotation.Value.capture ⟨t, env⟩) (plain_ofTree t)
  | .closure ⟨name, formals, body, env, id⟩ => by
    simp only [ofValue, Value.plain, plain_ofFormals formals, plain_ofTree body]
termination_by structural v => v

theorem plain_ofItems : ∀ l : List Quotation.Item, Item.plainAll (ofItems l) = l
  | [] => rfl
  | ⟨_, v⟩ :: rest => by simp only [ofItems, Item.plainAll, plain_ofValue v, plain_ofItems rest]
termination_by structural l => l

theorem plain_ofTree : ∀ t : Quotation.Tree, (ofTree t).plain = t
  | .literal v => congrArg _ (plain_ofValue v)
  | .reference _ => rfl
  | .call head args => by
    simp only [ofTree, Tree.ofCall, Tree.plain, plain_ofTree head, plain_ofSlots args]
  | .pairlist args => congrArg _ (plain_ofSlots args)
  | .unquote e => congrArg _ (plain_ofTree e)
  | .splice e => congrArg _ (plain_ofTree e)
  | .define n v => by simp only [ofTree, Tree.plain, plain_ofTree n, plain_ofTree v]
termination_by structural t => t

theorem plain_ofSlots : ∀ l : List Quotation.Slot, Slot.plainAll (ofSlots l) = l
  | [] => rfl
  | ⟨_, t⟩ :: rest => by simp only [ofSlots, Slot.plainAll, plain_ofTree t, plain_ofSlots rest]
termination_by structural l => l

theorem plain_ofFormals : ∀ l : List (Formal Quotation.Tree), Formal.plainAll (ofFormals l) = l
  | [] => rfl
  | ⟨_, none⟩ :: rest => congrArg _ (plain_ofFormals rest)
  | ⟨_, some t⟩ :: rest => by
    simp only [ofFormals, Formal.plainAll, plain_ofTree t, plain_ofFormals rest]
termination_by structural l => l

end

theorem ofItems_plainAll {l : List Item} (h : ∀ i ∈ l, ofValue i.val.plain = i.val) :
    ofItems (Item.plainAll l) = l := by
  induction l with
  | nil => rfl
  | cons i rest ih =>
    obtain ⟨hi, hrest⟩ := List.forall_mem_cons.mp h
    simp only [Item.plainAll, ofItems, hi, ih hrest]

theorem ofSlots_plainAll {l : List Slot} (h : ∀ s ∈ l, ofTree s.val.plain = s.val) :
    ofSlots (Slot.plainAll l) = l := by
  induction l with
  | nil => rfl
  | cons s rest ih =>
    obtain ⟨hs, hrest⟩ := List.forall_mem_cons.mp h
    simp only [Slot.plainAll, ofSlots, hs, ih hrest]

theorem ofFormals_plainAll {l : List (Formal Tree)}
    (h : ∀ f ∈ l, ∀ t, f.default? = some t → ofTree t.plain = t) :
    ofFormals (Formal.plainAll l) = l := by
  induction l with
  | nil => rfl
  | cons f rest ih =>
    obtain ⟨hf, hrest⟩ := List.forall_mem_cons.mp h
    obtain ⟨name, _ | t⟩ := f
    · simp only [Formal.plainAll, ofFormals, ih hrest]
    · simp only [Formal.plainAll, ofFormals, hf t rfl, ih hrest]

mutual

theorem Value.Built.ofValue_plain : ∀ {v : Value}, v.Built → ofValue v.plain = v
  | _, .null | _, .bool _ | _, .int _ | _, .float _ | _, .str _ | _, .builtin _ | _, .special _
  | _, .external _ => rfl
  | _, .list h => congrArg _ (ofItems_plainAll fun i hi => (h i hi).ofValue_plain)
  | _, .tree h => congrArg _ h.ofTree_plain
  | _, .capture env h => congrArg (fun t => Value.capture ⟨t, env⟩) h.ofTree_plain
  | _, .closure name env id hformals hbody => by
    have hformals := ofFormals_plainAll fun f hf t ht => (hformals f hf t ht).ofTree_plain
    simp only [Value.plain, ofValue, hformals, hbody.ofTree_plain]

theorem Tree.Built.ofTree_plain : ∀ {t : Tree}, t.Built → ofTree t.plain = t
  | _, .literal h => congrArg _ h.ofValue_plain
  | _, .reference _ => rfl
  | _, .call hhead hargs => by
    have hargs := ofSlots_plainAll fun s hs => (hargs s hs).ofTree_plain
    simp only [Tree.ofCall, Tree.plain, ofTree, hhead.ofTree_plain, hargs]
  | _, .pairlist h => congrArg _ (ofSlots_plainAll fun s hs => (h s hs).ofTree_plain)
  | _, .unquote h => congrArg _ h.ofTree_plain
  | _, .splice h => congrArg _ h.ofTree_plain
  | _, .define hname hvalue => by
    simp only [Tree.plain, ofTree, hname.ofTree_plain, hvalue.ofTree_plain]

end

mutual

theorem hasMarkers_ofTree : ∀ t : Quotation.Tree, (ofTree t).hasMarkers = t.hasMarkers
  | .literal _ | .reference _ | .unquote _ | .splice _ | .define _ _ => rfl
  | .call head args => by
    simp only [ofTree, Tree.ofCall, Tree.hasMarkers, Quotation.Tree.hasMarkers,
      hasMarkers_ofTree head, anyMarkers_ofSlots args]
  | .pairlist args => anyMarkers_ofSlots args
termination_by structural t => t

theorem anyMarkers_ofSlots :
    ∀ l : List Quotation.Slot, Slot.anyMarkers (ofSlots l) = Quotation.Slot.anyMarkers l
  | [] => rfl
  | ⟨_, t⟩ :: rest => by
    simp only [ofSlots, Slot.anyMarkers, Quotation.Slot.anyMarkers, hasMarkers_ofTree t,
      anyMarkers_ofSlots rest]
termination_by structural l => l

end

mutual

theorem hasMarkers_eq_of_beq :
    ∀ t u : Quotation.Tree, t.beq u = true → t.hasMarkers = u.hasMarkers
  | .literal _, u, h | .reference _, u, h | .unquote _, u, h | .splice _, u, h
  | .define _ _, u, h => by
    cases u <;> simp_all [Quotation.Tree.beq, Quotation.Tree.hasMarkers]
  | .call head args, u, h => by
    cases u with
    | call head' args' =>
      obtain ⟨hhead, hargs⟩ := Bool.and_eq_true_iff.mp h
      simp only [Quotation.Tree.hasMarkers, hasMarkers_eq_of_beq head head' hhead,
        anyMarkers_eq_of_beqList args args' hargs]
    | _ => cases h
  | .pairlist args, u, h => by
    cases u with
    | pairlist args' => exact anyMarkers_eq_of_beqList args args' h
    | _ => cases h
termination_by structural t => t

theorem anyMarkers_eq_of_beqList : ∀ a b : List Quotation.Slot,
    Quotation.Slot.beqList a b = true → Quotation.Slot.anyMarkers a = Quotation.Slot.anyMarkers b
  | [], b, h => by
    cases b with
    | nil => rfl
    | cons => cases h
  | ⟨_, t⟩ :: a, b, h => by
    cases b with
    | nil => cases h
    | cons s b =>
      obtain ⟨hs, hrest⟩ := Bool.and_eq_true_iff.mp h
      obtain ⟨-, ht⟩ := Bool.and_eq_true_iff.mp hs
      simp only [Quotation.Slot.anyMarkers, hasMarkers_eq_of_beq t s.val ht,
        anyMarkers_eq_of_beqList a b hrest]
termination_by structural a => a

end

mutual

theorem beq_ofValue : ∀ v w : Quotation.Value, (ofValue v).beq (ofValue w) = v.beq w
  | .list a, w => by
    cases w with
    | list b => exact beqList_ofItems a b
    | _ => rfl
  | .tree a, w => by
    cases w with
    | tree b => exact beq_ofTree a b
    | _ => rfl
  | .capture ⟨a, e⟩, w => by
    cases w with
    | capture c => exact congrArg (· && e == c.env) (beq_ofTree a c.tree)
    | _ => rfl
  | .null, w | .bool _, w | .int _, w | .float _, w | .str _, w | .closure _, w | .builtin _, w
  | .special _, w | .external _, w => by cases w <;> rfl
termination_by structural v => v

theorem beqList_ofItems : ∀ a b : List Quotation.Item,
    Item.beqList (ofItems a) (ofItems b) = Quotation.Item.beqList a b
  | [], b => by cases b <;> rfl
  | ⟨n, v⟩ :: a, b => by
    cases b with
    | nil => rfl
    | cons i b =>
      simp only [ofItems, Item.beqList, Quotation.Item.beqList, beq_ofValue v i.val,
        beqList_ofItems a b]
termination_by structural a => a

theorem beq_ofTree : ∀ t u : Quotation.Tree, (ofTree t).beq (ofTree u) = t.beq u
  | .literal v, u => by
    cases u with
    | literal w => exact beq_ofValue v w
    | _ => rfl
  | .reference _, u => by cases u <;> rfl
  | .call head args, u => by
    cases u with
    | call head' args' =>
      have hbits : (head.beq head' && Quotation.Slot.beqList args args') = true →
          (head.hasMarkers || Quotation.Slot.anyMarkers args) =
            (head'.hasMarkers || Quotation.Slot.anyMarkers args') :=
        hasMarkers_eq_of_beq (.call head args) (.call head' args')
      simp only [ofTree, Tree.ofCall, Tree.beq, Quotation.Tree.beq, beq_ofTree head head',
        beqList_ofSlots args args', hasMarkers_ofTree, anyMarkers_ofSlots]
      -- The bits decide only where the rest is equal, and there they are equal too.
      cases hrest : head.beq head' && Quotation.Slot.beqList args args' with
      | false => rfl
      | true => rw [hbits hrest, beq_self_eq_true, Bool.and_self]
    | _ => rfl
  | .pairlist a, u => by
    cases u with
    | pairlist b => exact beqList_ofSlots a b
    | _ => rfl
  | .unquote a, u => by
    cases u with
    | unquote b => exact beq_ofTree a b
    | _ => rfl
  | .splice a, u => by
    cases u with
    | splice b => exact beq_ofTree a b
    | _ => rfl
  | .define n v, u => by
    cases u with
    | define n' v' =>
      simp only [ofTree, Tree.beq, Quotation.Tree.beq, beq_ofTree n n', beq_ofTree v v']
    | _ => rfl
termination_by structural t => t

theorem beqList_ofSlots : ∀ a b : List Quotation.Slot,
    Slot.beqList (ofSlots a) (ofSlots b) = Quotation.Slot.beqList a b
  | [], b => by cases b <;> rfl
  | ⟨n, t⟩ :: a, b => by
    cases b with
    | nil => rfl
    | cons s b =>
      simp only [ofSlots, Slot.beqList, Quotation.Slot.beqList, beq_ofTree t s.val,
        beqList_ofSlots a b]
termination_by structural a => a

end

namespace Tree

theorem built_iff (t : Tree) : t.Built ↔ ∃ u, ofTree u = t :=
  ⟨fun h => ⟨t.plain, h.ofTree_plain⟩, fun ⟨u, hu⟩ => hu ▸ ofTree_built u⟩

theorem Built.bit_eq_any {t head : Tree} {args : List Slot} {marked : Bool} (h : t.Built)
    (hcall : .call head args marked ∈ t.preorder) :
    marked = (head :: args.map Named.val).any fun c => c.preorder.any isMarker := by
  have hbit := Built.hasMarkers_eq_any _ (Built.of_mem_preorder t h _ hcall)
  rwa [preorder_eq, List.any_cons, List.any_flatMap] at hbit

theorem Built.isSome_firstMarker? {t : Tree} (h : t.Built) :
    t.firstMarker?.isSome = t.preorder.any isMarker := by
  rw [Built.firstMarker?_eq_find? t h, List.isSome_find?]

theorem Built.beq_eq {t u : Tree} (ht : t.Built) (hu : u.Built) :
    t.beq u = t.plain.beq u.plain := by
  rw [← beq_ofTree, ht.ofTree_plain, hu.ofTree_plain]

theorem Built.hasMarkers_plain {t : Tree} (h : t.Built) : t.plain.hasMarkers = t.hasMarkers := by
  rw [← hasMarkers_ofTree, h.ofTree_plain]

/-- Whatever makes a tree makes a plain one, of which there is one stored form, and nothing else is
made. In it every bit is exact, at any depth; both questions about markers get the answer of a walk
through all of the tree, and the plain tree gives it too; the marker that is found is the first of
the walk; and equality is that of plain trees, although it compares bits. -/
theorem stored_bits_exact :
    (∀ t : Tree, t.Built ↔ ∃ u, ofTree u = t) ∧
    (∀ u : Quotation.Tree, (ofTree u).plain = u) ∧
    ∀ t : Tree, t.Built →
      (∀ head args marked, .call head args marked ∈ t.preorder →
        marked = (head :: args.map Named.val).any fun c => c.preorder.any isMarker) ∧
      t.hasMarkers = t.preorder.any isMarker ∧
      t.firstMarker?.isSome = t.preorder.any isMarker ∧
      t.plain.hasMarkers = t.preorder.any isMarker ∧
      t.firstMarker? = t.preorder.find? isMarker ∧
      ∀ u : Tree, u.Built → t.beq u = t.plain.beq u.plain := by
  refine ⟨built_iff, plain_ofTree, fun t h => ?_⟩
  have hsearch := Built.hasMarkers_eq_any t h
  exact ⟨fun _ _ _ => h.bit_eq_any, hsearch, h.isSome_firstMarker?,
    h.hasMarkers_plain.trans hsearch, Built.firstMarker?_eq_find? t h, fun _ => h.beq_eq⟩

def twoMarkers : Tree :=
  ofCall (.reference "f")
    [⟨some "a", ofCall (.reference "g") [⟨none, .splice (.reference "xs")⟩]⟩,
      ⟨none, .unquote (.reference "x")⟩]

theorem twoMarkers_built : twoMarkers.Built :=
  .call (.reference _) (List.forall_mem_cons.mpr
    ⟨.call (.reference _) (List.forall_mem_singleton.mpr (.splice (.reference _))),
      List.forall_mem_singleton.mpr (.unquote (.reference _))⟩)

theorem splice_found_first :
    twoMarkers.Built ∧
      .call (.reference "g") [⟨none, .splice (.reference "xs")⟩] true ∈ twoMarkers.preorder ∧
      twoMarkers.hasMarkers = true ∧
      twoMarkers.firstMarker? = some (.splice (.reference "xs")) ∧
      twoMarkers.beq twoMarkers = true := by
  obtain ⟨-, hmarked, -, -, hfirst, hbeq⟩ := stored_bits_exact.2.2 twoMarkers twoMarkers_built
  exact ⟨twoMarkers_built, .tail _ (.tail _ (.head _)), hmarked.trans rfl, hfirst.trans rfl,
    (hbeq twoMarkers twoMarkers_built).trans (by decide)⟩

end Tree

end Quotation.Stored
