import Quotation.Proofs.Depth

namespace Quotation

namespace Eval

variable {α β : Type}

def deeper (k : Nat) (act : Eval α) : Eval α := fun s =>
  Outcome.follow (act (s.mapDepth (· + k))) (fun a t => .ok a (t.mapDepth (· - k)))
    fun t => t.mapDepth (· - k)

@[simp] theorem deeper_zero (act : Eval α) : deeper 0 act = act := by
  funext s
  change Outcome.follow (act s) (fun a t => .ok a t) id = act s
  cases act s <;> rfl

@[simp] theorem deeper_pure (k : Nat) (a : α) : deeper k (pure a : Eval α) = pure a := by
  funext s
  simp [deeper, State.mapDepth]

@[simp] theorem deeper_fail (k : Nat) (e : Error) : deeper k (fail e : Eval α) = fail e := by
  funext s
  simp [deeper, State.mapDepth]

theorem deeper_deeper (j k : Nat) (act : Eval α) :
    deeper j (deeper k act) = deeper (j + k) act := by
  funext s
  have hin : (s.mapDepth (· + j)).mapDepth (· + k) = s.mapDepth (· + (j + k)) := by
    simp [State.mapDepth, Nat.add_assoc]
  have hout : ∀ t : State, (t.mapDepth (· - k)).mapDepth (· - j) = t.mapDepth (· - (j + k)) := by
    simp [State.mapDepth, Nat.sub_sub, Nat.add_comm]
  simp only [deeper, hin]
  cases act (s.mapDepth (· + (j + k))) <;> simp [hout]

theorem deeper_bind {x : Eval α} (hx : ∀ s, (Outcome.state (x s)).depth = s.depth) (k : Nat)
    (f : α → Eval β) : deeper k (x >>= f) = deeper k x >>= fun a => deeper k (f a) := by
  funext s
  have hdepth := hx (s.mapDepth (· + k))
  simp only [deeper, bind_apply]
  cases hr : x (s.mapDepth (· + k)) with
  | error h t => rfl
  | ok a t =>
    rw [hr] at hdepth
    have hback : (t.mapDepth (· - k)).mapDepth (· + k) = t := by
      change t.depth = s.depth + k at hdepth
      have hlevel : t.depth - k + k = t.depth := by omega
      simp only [State.mapDepth, hlevel]
    change Outcome.follow (f a t) _ _ = deeper k (f a) (t.mapDepth (· - k))
    simp only [deeper, hback]

theorem depth_deeper {x : Eval α} (hx : ∀ s, (Outcome.state (x s)).depth = s.depth) (k : Nat)
    (s : State) : (Outcome.state (deeper k x s)).depth = s.depth := by
  have hdepth := hx (s.mapDepth (· + k))
  have hback : ∀ t : State, t.depth = s.depth + k → (t.mapDepth (· - k)).depth = s.depth := by
    intro t ht
    simp [State.mapDepth, ht]
  simp only [deeper]
  cases hr : x (s.mapDepth (· + k)) with
  | error h t =>
    rw [hr] at hdepth
    exact hback t hdepth
  | ok a t =>
    rw [hr] at hdepth
    exact hback t hdepth

end Eval

section

variable (eng : Engine) (ev : Evaluator)

mutual

def substituteTree (env : FrameId) (mask : Option Mask) : Nat → Tree → Eval Tree
  | _, .literal v => return .literal v
  | _, .reference name => return .reference name
  | level, .call head args => do
    let head ← substituteTree env mask (level + 1) head
    let args ← substituteSlots env mask (level + 1) args
    return .call head args
  | level, .pairlist args => do
    let args ← substituteSlots env mask (level + 1) args
    return .pairlist args
  | level, .unquote e => Eval.deeper level (resolveUnquote eng ev e env mask)
  | _, .splice _ => Eval.fail .invalidSpliceContext
  | _, .define _ _ => Eval.fail .invalidDefineContext
termination_by structural _ t => t

def substituteSlot (env : FrameId) (mask : Option Mask) : Nat → Slot → Eval (List Slot)
  | level, ⟨_, .splice e⟩ => Eval.deeper level (resolveSplice eng ev e env mask)
  | level, ⟨_, .define n (.splice e)⟩ => do
    let name ← Eval.deeper level (resolveName ev n env mask)
    let slots ← Eval.deeper level (resolveSplice eng ev e env mask)
    return slots.map (·.nameOr name)
  | level, ⟨_, .define n v⟩ => do
    let name ← Eval.deeper level (resolveName ev n env mask)
    let t ← substituteTree env mask level v
    return [⟨some name, t⟩]
  | level, ⟨name, t⟩ => do
    let t ← substituteTree env mask level t
    return [⟨name, t⟩]
termination_by structural _ slot => slot

def substituteSlots (env : FrameId) (mask : Option Mask) : Nat → List Slot → Eval (List Slot)
  | _, [] => return []
  | level, slot :: rest => do
    let here ← substituteSlot env mask level slot
    let there ← substituteSlots env mask level rest
    return here ++ there
termination_by structural _ l => l

end

end

mutual

/-- How many calls and pairlists with markers lie inside one another, operands left out. -/
def Tree.nesting : Tree → Nat
  | .literal _ => 0
  | .reference _ => 0
  | .call head args =>
    if head.hasMarkers || Slot.anyMarkers args then max head.nesting (Slot.nesting args) + 1 else 0
  | .pairlist args => if Slot.anyMarkers args then Slot.nesting args + 1 else 0
  | .unquote _ => 0
  | .splice _ => 0
  | .define _ v => v.nesting
termination_by structural t => t

def Slot.nesting : List Slot → Nat
  | [] => 0
  | ⟨_, t⟩ :: rest => max t.nesting (Slot.nesting rest)
termination_by structural l => l

end

variable {eng : Engine} {ev : Evaluator} {env : FrameId} {mask : Option Mask}

theorem substitute_of_noMarkers :
    (∀ level (t : Tree), t.hasMarkers = false →
        substituteTree eng ev env mask level t = pure t) ∧
      (∀ level (l : List Slot), Slot.anyMarkers l = false →
        substituteSlots eng ev env mask level l = pure l) ∧
      ∀ level (slot : Slot), slot.val.hasMarkers = false →
        substituteSlot eng ev env mask level slot = pure [slot] := by
  refine substituteTree.mutual_induct _ _ _ ?literal ?reference ?call ?pairlist ?unquote ?splice
    ?define ?nil ?cons ?spliceSlot ?defineSplice ?defineSlot ?plainSlot
  case literal => exact fun _ _ _ => rfl
  case reference => exact fun _ _ _ => rfl
  case call =>
    intro level head args hhead hargs hm
    simp only [Tree.hasMarkers, Bool.or_eq_false_iff] at hm
    simp [substituteTree, hhead hm.1, hargs hm.2]
  case pairlist =>
    intro level args hargs hm
    simp [substituteTree, hargs hm]
  case unquote =>
    intro level e hm
    cases hm
  case splice =>
    intro level e hm
    cases hm
  case define =>
    intro level n v hm
    cases hm
  case nil => exact fun _ _ => rfl
  case cons =>
    intro level slot rest hslot hrest hm
    simp only [Slot.anyMarkers, Bool.or_eq_false_iff] at hm
    simp [substituteSlots, hslot hm.1, hrest hm.2]
  case spliceSlot =>
    intro level name e hm
    cases hm
  case defineSplice =>
    intro level name n e hm
    cases hm
  case defineSlot =>
    intro level name n v hv ht hm
    cases hm
  case plainSlot =>
    intro level name t h₁ h₂ h₃ ht hm
    rw [substituteSlot.eq_4 _ _ _ _ _ _ _ h₁ h₂ h₃, ht hm]
    rfl

def AgreesWithin {α : Type} (maxDepth n : Nat) (x y : Eval α) : Prop :=
  ∀ s, x s = y s ∨ ∃ d t, maxDepth ≤ d ∧ d < s.depth + n ∧
    x s = .error (.failed (.stackOverflow (d + 1) maxDepth)) t

namespace AgreesWithin

variable {α β : Type} {maxDepth m n : Nat}

theorem ofEq {x y : Eval α} (h : x = y) : AgreesWithin maxDepth n x y :=
  fun s => .inl (congrFun h s)

theorem mono {x y : Eval α} (h : AgreesWithin maxDepth n x y) (hn : n ≤ m) :
    AgreesWithin maxDepth m x y := by
  intro s
  refine (h s).imp id ?_
  rintro ⟨d, t, hd, hlt, hr⟩
  exact ⟨d, t, hd, by omega, hr⟩

theorem bind {x y : Eval α} {f g : α → Eval β} (hxy : AgreesWithin maxDepth n x y)
    (hdepth : ∀ s, (Outcome.state (x s)).depth = s.depth)
    (hfg : ∀ a, AgreesWithin maxDepth n (f a) (g a)) :
    AgreesWithin maxDepth n (x >>= f) (y >>= g) := by
  intro s
  have hs := hdepth s
  rw [Eval.bind_apply, Eval.bind_apply]
  rcases hxy s with heq | ⟨d, t, hd, hlt, hr⟩
  · rw [← heq]
    cases hx : x s with
    | error h t => exact .inl rfl
    | ok a t =>
      rw [hx] at hs
      change t.depth = s.depth at hs
      exact hs ▸ hfg a t
  · rw [hr]
    exact .inr ⟨d, t, hd, hlt, rfl⟩

theorem deeperBind {x : Eval α} {y : Eval α} {f g : α → Eval β} {k : Nat}
    (hxy : AgreesWithin maxDepth n (Eval.deeper k x) y)
    (hdepth : ∀ s, (Outcome.state (x s)).depth = s.depth)
    (hfg : ∀ a, AgreesWithin maxDepth n (Eval.deeper k (f a)) (g a)) :
    AgreesWithin maxDepth n (Eval.deeper k (x >>= f)) (y >>= g) := by
  rw [Eval.deeper_bind hdepth]
  exact bind hxy (Eval.depth_deeper hdepth k) hfg

theorem nested {x y : Eval α} {k : Nat} (hxy : AgreesWithin maxDepth n (Eval.deeper (k + 1) x) y)
    (hk : k < n) : AgreesWithin maxDepth n (Eval.deeper k (Eval.nested maxDepth x)) y := by
  intro s
  by_cases h : s.depth + k < maxDepth
  · have hs := hxy s
    rw [← Eval.deeper_deeper] at hs
    have hin : (s.mapDepth (· + k)).depth < maxDepth := h
    simp only [Eval.deeper, Eval.nested_apply, if_pos hin] at hs ⊢
    exact hs
  · have hin : ¬ (s.mapDepth (· + k)).depth < maxDepth := h
    refine .inr ⟨s.depth + k, (s.mapDepth (· + k)).mapDepth (· - k), by omega, by omega, ?_⟩
    simp only [Eval.deeper, Eval.nested_apply, if_neg hin]
    rfl

end AgreesWithin

abbrev KeepsLevel (eng : Engine) (ev : Evaluator) : Prop :=
  (Lockstep.depthKept eng False).RelatedEvaluators ev ev

theorem resolve_parts_agree (hev : KeepsLevel eng ev) :
    (∀ t k, AgreesWithin eng.maxDepth (k + t.nesting)
        (Eval.deeper k (resolveTree eng ev env mask t)) (substituteTree eng ev env mask k t)) ∧
      (∀ l k, AgreesWithin eng.maxDepth (k + Slot.nesting l)
        (Eval.deeper k (resolveSlots eng ev env mask l)) (substituteSlots eng ev env mask k l)) ∧
      ∀ slot k, AgreesWithin eng.maxDepth (k + slot.val.nesting)
        (Eval.deeper k (resolveSlot eng ev env mask slot))
        (substituteSlot eng ev env mask k slot) := by
  obtain ⟨htree, hslots, hslot⟩ := resolve_parts_related hev env mask
  refine resolveTree.mutual_induct _ _ _ ?literal ?reference ?call ?finishedCall ?pairlist
    ?finishedPairlist ?unquote ?splice ?define ?nil ?cons ?spliceSlot ?defineSplice ?defineSlot
    ?plainSlot
  case literal => exact fun _ k => .ofEq (Eval.deeper_pure k _)
  case reference => exact fun _ k => .ofEq (Eval.deeper_pure k _)
  case call =>
    intro head args hm hhead hargs k
    simp only [resolveTree, substituteTree, Tree.nesting, hm, if_true]
    refine .nested ?_ (by omega)
    refine .deeperBind ((hhead (k + 1)).mono (by omega)) (htree head).depth_eq fun head => ?_
    refine .deeperBind ((hargs (k + 1)).mono (by omega)) (hslots args).depth_eq fun args => ?_
    exact .ofEq (Eval.deeper_pure _ _)
  case finishedCall =>
    intro head args hm k
    have hm : (Tree.call head args).hasMarkers = false := Bool.eq_false_iff.mpr hm
    rw [substitute_of_noMarkers.1 _ _ hm]
    simp only [Tree.hasMarkers] at hm
    simp only [resolveTree, hm]
    exact .ofEq (Eval.deeper_pure k _)
  case pairlist =>
    intro args hm hargs k
    simp only [resolveTree, substituteTree, Tree.nesting, hm, if_true]
    refine .nested ?_ (by omega)
    refine .deeperBind ((hargs (k + 1)).mono (by omega)) (hslots args).depth_eq fun args => ?_
    exact .ofEq (Eval.deeper_pure _ _)
  case finishedPairlist =>
    intro args hm k
    have hm : (Tree.pairlist args).hasMarkers = false := Bool.eq_false_iff.mpr hm
    rw [substitute_of_noMarkers.1 _ _ hm]
    simp only [Tree.hasMarkers] at hm
    simp only [resolveTree, hm]
    exact .ofEq (Eval.deeper_pure k _)
  case unquote => exact fun _ _ => .ofEq rfl
  case splice => exact fun _ k => .ofEq (Eval.deeper_fail k _)
  case define => exact fun _ _ k => .ofEq (Eval.deeper_fail k _)
  case nil => exact fun k => .ofEq (Eval.deeper_pure k _)
  case cons =>
    intro slot rest hhere hthere k
    simp only [resolveSlots, substituteSlots, Slot.nesting]
    refine .deeperBind ((hhere k).mono (by omega)) (hslot slot).depth_eq fun here => ?_
    refine .deeperBind ((hthere k).mono (by omega)) (hslots rest).depth_eq fun there => ?_
    exact .ofEq (Eval.deeper_pure k _)
  case spliceSlot => exact fun _ _ _ => .ofEq rfl
  case defineSplice =>
    intro _ n e k
    refine .deeperBind (.ofEq rfl) (resolveName_related hev n env mask).depth_eq fun name => ?_
    refine .deeperBind (.ofEq rfl) (resolveSplice_related hev e env mask).depth_eq fun slots => ?_
    exact .ofEq (Eval.deeper_pure k _)
  case defineSlot =>
    intro _ n v hv ht k
    rw [resolveSlot.eq_3 _ _ _ _ _ _ _ hv, substituteSlot.eq_3 _ _ _ _ _ _ _ _ hv]
    refine .deeperBind (.ofEq rfl) (resolveName_related hev n env mask).depth_eq fun name => ?_
    refine .deeperBind (ht k) (htree v).depth_eq fun t => ?_
    exact .ofEq (Eval.deeper_pure k _)
  case plainSlot =>
    intro name t h₁ h₂ h₃ ht k
    rw [resolveSlot.eq_4 _ _ _ _ _ _ h₁ h₂ h₃, substituteSlot.eq_4 _ _ _ _ _ _ _ h₁ h₂ h₃]
    refine .deeperBind (ht k) (htree t).depth_eq fun t => ?_
    exact .ofEq (Eval.deeper_pure k _)

theorem resolve_agrees (hev : KeepsLevel eng ev) (t : Tree) :
    AgreesWithin eng.maxDepth t.nesting (resolve eng ev t env mask) (do
      Eval.debug ("resolve " ++ t.text)
      substituteTree eng ev env mask 0 t) := by
  have hwalk : AgreesWithin eng.maxDepth (0 + t.nesting)
      (Eval.deeper 0 (resolveTree eng ev env mask t)) (substituteTree eng ev env mask 0 t) :=
    (resolve_parts_agree hev).1 t 0
  rw [Eval.deeper_zero, Nat.zero_add] at hwalk
  exact .bind (.ofEq rfl) (fun _ => rfl) fun _ => hwalk

end Quotation
