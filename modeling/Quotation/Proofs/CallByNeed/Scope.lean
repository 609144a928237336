import Mathlib.Logic.Function.Basic
import Quotation.Proofs.Heap
import Quotation.Proofs.Region

/-! What trees mean where every argument is just a tree that is still to be evaluated. The meaning
of a tree is told without a heap: a scope is a frame that was there at the start, or the call of a
closure with the arguments that it was given, each with the scope that it was written in. An
argument has the same meaning however often it is asked for.

Meanings are bounded twice: by fuel, and by how many levels of calls are left. With more of either,
what had a meaning keeps it. -/

namespace Quotation

structure Suspension (σ : Type) where
  expr : Tree
  scope : σ
  mask : Option Mask

inductive Scope
  | frame (f : FrameId)
  | call (c : Closure Tree) (args : List (Named (Suspension Scope)))

inductive Entry
  | value (v : Value)
  | argument (u : Suspension Scope)
  | dots (args : List (Named (Suspension Scope)))
  | missing

namespace Heap

variable (h : Heap) (σ : FrameId → Scope)

def suspension (p : PromiseId) : Suspension Scope :=
  ⟨(h.promise p).expr, σ (h.promise p).env, (h.promise p).mask⟩

def entry : Binding → Entry
  | .value v => .value v
  | .promise p => .argument (h.suspension σ p)
  | .dots args => .dots (args.map (Named.map (h.suspension σ)))
  | .missing => .missing

def entries (f : FrameId) (name : String) : Option Entry := (h.binding? f name).map (h.entry σ)

end Heap

namespace Scope

def positions {α : Type} (args : List (Named α)) : List (Named Nat) :=
  args.mapIdx fun i a => ⟨a.name, i⟩

def argumentAt (args : List (Named (Suspension Scope))) (i : Nat) : Suspension Scope :=
  (args[i]?.map Named.val).getD ⟨.literal .null, .frame 0, none⟩

def formalEntry (scope : Scope) (arg : Nat → Suspension Scope) (f : Formal Tree) :
    Option Nat → Entry
  | some i => .argument (arg i)
  | none =>
    match f.default? with
    | some t => .argument ⟨t, scope, none⟩
    | none => .missing

def formalEntries (scope : Scope) (arg : Nat → Suspension Scope) :
    List (Formal Tree) → List (Option Nat) → (String → Option Entry) → String → Option Entry
  | f :: formals, slot :: slots, e =>
    if f.isDots then formalEntries scope arg formals slots e
    else formalEntries scope arg formals slots
      (Function.update e f.name (some (formalEntry scope arg f slot)))
  | _, _, e => e

def dotsEntry (arg : Nat → Suspension Scope) :
    Option (List (Named Nat)) → String → Option Entry
  | some args => Function.update (fun _ => none) dotsName (some (.dots (args.map (Named.map arg))))
  | none => fun _ => none

def callEntries (c : Closure Tree) (args : List (Named (Suspension Scope))) :
    String → Option Entry :=
  match matchArguments c.formals (positions args) with
  | .ok m =>
    formalEntries (.call c args) (argumentAt args) c.formals m.slots
      (dotsEntry (argumentAt args) m.dots)
  | .error _ => fun _ => none

end Scope

/-- The functions of a host that belong to a region leave the world alone and do not look at it. -/
def Region.Stateless (R : Region) (host : Host) : Prop :=
  ∀ op, R.builtin op → ∀ args w w', (op.run host.builtin args w').1 = (op.run host.builtin args w).1

theorem Region.stateless_of_prelude {R : Region} (h : ∀ name, ¬ R.builtin (.host name))
    (host : Host) : R.Hosts host ∧ R.Stateless host := by
  refine ⟨fun name _ _ hb _ => absurd hb (h name), fun op hop args w w' => ?_⟩
  cases op with
  | host name => exact absurd hop (h name)
  | _ => rfl

/-- What a program is made of: a heap, and a region of it in which there are no promises and in
which nothing is called but closures and built-in functions that leave the world alone. -/
structure Ground where
  heap : Heap
  region : Region
  host : Host
  closed : region.Closed heap
  promise : ∀ p, ¬ region.promise p
  hosts : region.Hosts host
  stateless : region.Stateless host

abbrev Meaning := Tree → Scope → Option Mask → Option Value

def Meaning.argument (ev : Meaning) (u : Suspension Scope) : Option Value :=
  ev u.expr u.scope u.mask

def Meaning.arguments (ev : Meaning) : List (Named (Suspension Scope)) → Option (List Item)
  | [] => some []
  | a :: rest => (ev.argument a.val).bind fun v =>
    (ev.arguments rest).bind fun vs => some (⟨a.name, v⟩ :: vs)

namespace Ground

variable (G : Ground) (ev : Meaning)

def sight : Scope → List (String → Option Entry)
  | .frame f => (G.heap.chain f).map (G.heap.entries .frame)
  | .call c args =>
    Scope.callEntries c args :: (G.heap.chain c.env).map (G.heap.entries .frame)

def lookup (σ : Scope) (name : String) : Option Entry := (G.sight σ).findSome? (· name)

def reference? (name : String) (σ : Scope) (mask : Option Mask) : Option Value :=
  match Mask.find? mask name with
  | some v => some v
  | none =>
    match G.lookup σ name with
    | some (.value v) => some v
    | some (.argument u) => ev.argument u
    | _ => none

def firstCallable? (name : String) : List (String → Option Entry) → Option Value
  | [] => none
  | e :: rest =>
    match e name with
    | some (.value v) => if v.isCallable then some v else firstCallable? name rest
    | some (.argument u) => (ev.argument u).bind fun v =>
      if v.isCallable then some v else firstCallable? name rest
    | _ => firstCallable? name rest

def function? (name : String) (σ : Scope) (mask : Option Mask) : Option Value :=
  match (Mask.find? mask name).filter Value.isCallable with
  | some v => some v
  | none => firstCallable? ev name (G.sight σ)

def head? (head : Tree) (σ : Scope) (mask : Option Mask) : Option Value :=
  match head with
  | .reference name => G.function? ev name σ mask
  | _ => (ev head σ mask).bind fun v => if v.isCallable then some v else none

def dots? (σ : Scope) : Option (List (Named (Suspension Scope))) :=
  match G.lookup σ dotsName with
  | some (.dots args) => some args
  | _ => none

def slot? (σ : Scope) (mask : Option Mask) (slot : Slot) : Option (List Item) :=
  if slot.val.isDots then (G.dots? σ).bind ev.arguments
  else (ev slot.val σ mask).bind fun v => some [⟨slot.name, v⟩]

def slots? (σ : Scope) (mask : Option Mask) : List Slot → Option (List Item)
  | [] => some []
  | slot :: rest => (G.slot? ev σ mask slot).bind fun here =>
    (slots? σ mask rest).bind fun there => some (here ++ there)

def suspended? (σ : Scope) (mask : Option Mask) (slot : Slot) :
    Option (List (Named (Suspension Scope))) :=
  if slot.val.isDots then G.dots? σ else some [⟨slot.name, ⟨slot.val, σ, mask⟩⟩]

def allSuspended? (σ : Scope) (mask : Option Mask) :
    List Slot → Option (List (Named (Suspension Scope)))
  | [] => some []
  | slot :: rest => (G.suspended? σ mask slot).bind fun here =>
    (allSuspended? σ mask rest).bind fun there => some (here ++ there)

def closure? (c : Closure Tree) (args : List (Named (Suspension Scope))) : Option Value :=
  match matchArguments c.formals (Scope.positions args) with
  | .ok _ => (ev c.body (.call c args) none).bind fun v =>
    if args.any fun a => a.val.expr.hasMarkers then none else some v
  | .error _ => none

def applied? (func : Value) (args : List Slot) (σ : Scope) (mask : Option Mask) : Option Value :=
  match func with
  | .builtin b => (G.slots? ev σ mask args).bind fun items =>
    (b.op.run G.host.builtin items {}).1.toOption
  | .closure c => (G.allSuspended? σ mask args).bind (closure? ev c)
  | _ => none

def accepts (func : Value) (t : Tree) : Bool :=
  match func with
  | .builtin _ => !t.hasMarkers
  | _ => true

def call? (head : Tree) (args : List Slot) (σ : Scope) (mask : Option Mask) : Option Value :=
  (G.head? ev head σ mask).bind fun func =>
    if accepts func (.call head args) then G.applied? ev func args σ mask else none

def step (evs : Nat → Meaning) (levels : Nat) : Meaning := fun t σ mask =>
  match t with
  | .literal v => some v
  | .reference name => G.reference? (evs levels) name σ mask
  | .call head args =>
    match levels with
    | 0 => none
    | levels + 1 => G.call? (evs levels) head args σ mask
  | .pairlist args => (G.slots? (evs levels) σ mask args).bind fun items => some (.list items)
  | _ => none

/-- What a tree means in a scope under a mask. -/
def meaning : Nat → Nat → Meaning
  | 0, _ => fun _ _ _ => none
  | fuel + 1, levels => G.step (meaning fuel) levels

end Ground

def Refines {α : Type} (x y : Option α) : Prop := ∀ a, x = some a → y = some a

namespace Refines

variable {α β : Type} {x y : Option α}

theorem refl (x : Option α) : Refines x x := fun _ h => h

theorem none : Refines none x := nofun

theorem bind {f g : α → Option β} (hxy : Refines x y) (hfg : ∀ a, Refines (f a) (g a)) :
    Refines (x.bind f) (y.bind g) := by
  intro b hb
  obtain ⟨a, ha, hb⟩ := Option.bind_eq_some_iff.1 hb
  exact Option.bind_eq_some_iff.2 ⟨a, hxy a ha, hfg a b hb⟩

end Refines

namespace Ground

variable {G : Ground} {ev ev' : Meaning}

section

variable (h : ∀ t σ mask, Refines (ev t σ mask) (ev' t σ mask))

include h

theorem arguments_refines (args : List (Named (Suspension Scope))) :
    Refines (ev.arguments args) (ev'.arguments args) := by
  induction args with
  | nil => exact .refl _
  | cons a rest ih => exact (h _ _ _).bind fun v => ih.bind fun vs => .refl _

theorem reference?_refines (name : String) (σ : Scope) (mask : Option Mask) :
    Refines (G.reference? ev name σ mask) (G.reference? ev' name σ mask) := by
  unfold reference?
  cases Mask.find? mask name with
  | some v => exact .refl _
  | none =>
    rcases G.lookup σ name with _ | _ | u | _ | _
    case some.argument => exact h _ _ _
    all_goals exact .refl _

theorem firstCallable?_refines (name : String) (entries : List (String → Option Entry)) :
    Refines (firstCallable? ev name entries) (firstCallable? ev' name entries) := by
  induction entries with
  | nil => exact .refl _
  | cons e rest ih =>
    unfold firstCallable?
    rcases e name with _ | v | u | _ | _
    case some.value =>
      dsimp only
      split
      · exact .refl _
      · exact ih
    case some.argument =>
      refine (h _ _ _).bind fun v => ?_
      split
      · exact .refl _
      · exact ih
    all_goals exact ih

theorem head?_refines (head : Tree) (σ : Scope) (mask : Option Mask) :
    Refines (G.head? ev head σ mask) (G.head? ev' head σ mask) := by
  unfold head?
  split
  · unfold function?
    split
    · exact .refl _
    · exact firstCallable?_refines h _ _
  · exact (h _ _ _).bind fun v => .refl _

theorem slots?_refines (σ : Scope) (mask : Option Mask) (args : List Slot) :
    Refines (G.slots? ev σ mask args) (G.slots? ev' σ mask args) := by
  induction args with
  | nil => exact .refl _
  | cons slot rest ih =>
    refine Refines.bind ?_ fun here => ih.bind fun there => .refl _
    unfold slot?
    split
    · exact Refines.bind (.refl _) (arguments_refines h)
    · exact (h _ _ _).bind fun v => .refl _

theorem call?_refines (head : Tree) (args : List Slot) (σ : Scope) (mask : Option Mask) :
    Refines (G.call? ev head args σ mask) (G.call? ev' head args σ mask) := by
  refine (head?_refines h head σ mask).bind fun func => ?_
  split
  · unfold applied?
    split
    · exact (slots?_refines h σ mask args).bind fun items => .refl _
    · refine Refines.bind (.refl _) fun supplied => ?_
      unfold closure?
      split
      · exact (h _ _ _).bind fun v => .refl _
      · exact .refl _
    · exact .refl _
  · exact .refl _

end

theorem step_refines {evs evs' : Nat → Meaning} {r r' : Nat} (hr : r ≤ r')
    (h : ∀ i j, i ≤ j → ∀ t σ mask, Refines (evs i t σ mask) (evs' j t σ mask)) (t : Tree)
    (σ : Scope) (mask : Option Mask) : Refines (G.step evs r t σ mask) (G.step evs' r' t σ mask) := by
  cases t with
  | reference name => exact reference?_refines (h r r' hr) name σ mask
  | call head args =>
    cases r with
    | zero => exact .none
    | succ i =>
      obtain ⟨j, rfl⟩ := Nat.exists_eq_add_of_le' (Nat.lt_of_lt_of_le (Nat.succ_pos i) hr)
      exact call?_refines (h i j (Nat.le_of_succ_le_succ hr)) head args σ mask
  | pairlist args => exact (slots?_refines (h r r' hr) σ mask args).bind fun items => .refl _
  | literal | unquote | splice | define => exact .refl _

theorem meaning_refines {k k' r r' : Nat} (hk : k ≤ k') (hr : r ≤ r') (t : Tree) (σ : Scope)
    (mask : Option Mask) : Refines (G.meaning k r t σ mask) (G.meaning k' r' t σ mask) := by
  induction k generalizing k' r r' t σ mask with
  | zero => exact .none
  | succ k ih =>
    obtain ⟨k', rfl⟩ := Nat.exists_eq_add_of_le' (Nat.lt_of_lt_of_le (Nat.succ_pos k) hk)
    exact step_refines hr (fun i j hij => ih (Nat.le_of_succ_le_succ hk) hij) t σ mask

end Ground

end Quotation
