import Quotation.Proofs.SpecialCall
import Quotation.Proofs.Substitution.Level

/-! Calls built from computed arguments, and quotations of calls with the same markers. The one
evaluates the operands to values, which become trees again when the call is built; the other makes
trees of them at once. The two agree, save on literals: where a pairlist is spliced, the one takes
the value out of a literal and makes a tree of the value, and the other keeps the literal. -/

namespace Quotation

inductive Slot.Computed : Slot → Prop
  | value (name : Option String) (e : Tree) : Computed ⟨name, .unquote e⟩
  | sequence (name : Option String) (e : Tree) : Computed ⟨name, .splice e⟩
  | namedValue (name : Option String) (n e : Tree) : Computed ⟨name, .define n (.unquote e)⟩
  | namedSequence (name : Option String) (n e : Tree) : Computed ⟨name, .define n (.splice e)⟩

def Value.ReadsBack (v : Value) : Prop :=
  ∀ slots, v = .tree (.pairlist slots) → ∀ slot ∈ slots, ∀ w, slot.val = .literal w →
    Tree.ofValue w = .ok (.literal w)

def SplicesReadBack : List Request → List Value → Prop
  | ⟨_, .slots _⟩ :: rest, v :: vs => v.ReadsBack ∧ SplicesReadBack rest vs
  | _ :: rest, _ :: vs => SplicesReadBack rest vs
  | _, _ => True

theorem splicesReadBack_append {l r : List Request} {vs ws : List Value}
    (h : vs.length = l.length) :
    SplicesReadBack (l ++ r) (vs ++ ws) ↔ SplicesReadBack l vs ∧ SplicesReadBack r ws := by
  induction l generalizing vs with
  | nil =>
    obtain rfl := List.eq_nil_of_length_eq_zero h
    simp [SplicesReadBack]
  | cons q rest ih =>
    obtain ⟨level, query⟩ := q
    cases vs with
    | nil => cases h
    | cons v vs =>
      have hrest := ih (Nat.succ.inj h)
      cases query <;> simp [SplicesReadBack, hrest, and_assoc]

/-- Items with the names of slots, of which each is the value of its slot just if `faithful`. -/
structure Renders (faithful : Prop) (slots : List Slot) (items : List Item) : Prop where
  names : items.map Named.name = slots.map Named.name
  trees : faithful ↔ items.map (fun i => Tree.ofValue i.val) = slots.map fun s => .ok s.val

def Unrenderable (items : List Item) : Prop := ∃ i ∈ items, ∃ e, Tree.ofValue i.val = .error e

theorem Renders.append {p q : Prop} {slots more : List Slot} {items moreItems : List Item}
    (h : Renders p slots items) (h' : Renders q more moreItems) :
    Renders (p ∧ q) (slots ++ more) (items ++ moreItems) where
  names := by rw [List.map_append, List.map_append, h.names, h'.names]
  trees := by
    have hlength : items.length = slots.length := by
      simpa using congrArg List.length h.names
    rw [h.trees, h'.trees, List.map_append, List.map_append]
    constructor
    · rintro ⟨h, h'⟩
      rw [h, h']
    · exact fun h => List.append_inj h (by simpa using hlength)

theorem Renders.nameOr {p : Prop} {slots : List Slot} {items : List Item}
    (h : Renders p slots items) (name : String) :
    Renders p (slots.map (·.nameOr name)) (items.map (·.nameOr name)) where
  names := by
    have hnames := congrArg (List.map fun n : Option String => n.or (some name)) h.names
    simpa [Function.comp_def, Named.nameOr] using hnames
  trees := by simpa [Function.comp_def] using h.trees

theorem Unrenderable.append {items : List Item} (h : Unrenderable items) (more : List Item) :
    Unrenderable (items ++ more) := by
  obtain ⟨i, hi, he⟩ := h
  exact ⟨i, List.mem_append_left more hi, he⟩

theorem Unrenderable.after {items : List Item} (h : Unrenderable items) (before : List Item) :
    Unrenderable (before ++ items) := by
  obtain ⟨i, hi, he⟩ := h
  exact ⟨i, List.mem_append_right before hi, he⟩

theorem Unrenderable.nameOr {items : List Item} (h : Unrenderable items) (name : String) :
    Unrenderable (items.map (·.nameOr name)) := by
  obtain ⟨i, hi, he⟩ := h
  exact ⟨i.nameOr name, List.mem_map_of_mem hi, he⟩

theorem renders_or_unrenderable (items : List Item) :
    (∃ slots, Renders True slots items) ∨ Unrenderable items := by
  induction items with
  | nil => exact .inl ⟨[], rfl, by simp⟩
  | cons i rest ih =>
    cases hi : Tree.ofValue i.val with
    | error e => exact .inr ⟨i, List.mem_cons_self, e, hi⟩
    | ok t =>
      rcases ih with ⟨slots, hnames, htrees⟩ | h
      · refine .inl ⟨⟨i.name, t⟩ :: slots, by simp [hnames], ?_⟩
        simp [hi, ← htrees]
      · exact .inr (h.after [i])

def BothConvert (faithful : Prop) : Except Error (List Slot) → Except Error (List Item) → Prop
  | .ok slots, r => ∃ items, r = .ok items ∧ Renders faithful slots items
  | .error _, r => ∀ items, r = .ok items → Unrenderable items

theorem ofItems_convert (index : Nat) (items : List Item) :
    BothConvert True (Slot.ofItems index items) (.ok items) := by
  induction items generalizing index with
  | nil => exact ⟨[], rfl, rfl, by simp⟩
  | cons i rest ih =>
    have hrest := ih (index + 1)
    simp only [Slot.ofItems]
    cases hi : Tree.ofValue i.val with
    | error e =>
      rintro _ ⟨⟩
      exact ⟨i, List.mem_cons_self, e, hi⟩
    | ok t =>
      cases hr : Slot.ofItems (index + 1) rest with
      | error e =>
        rw [hr] at hrest
        rintro _ ⟨⟩
        exact (hrest rest rfl).after [i]
      | ok slots =>
        rw [hr] at hrest
        obtain ⟨_, ⟨⟩, hrest⟩ := hrest
        have hhere : Renders True [⟨i.name, t⟩] [i] := ⟨rfl, by simp [hi]⟩
        have hall := hhere.append hrest
        rw [and_self] at hall
        exact ⟨_, rfl, hall⟩

theorem ofPairlist_renders (slots : List Slot) :
    Renders (Value.tree (.pairlist slots)).ReadsBack slots (slots.map fun s => s.map fun
      | .literal v => v
      | t => .tree t) where
  names := by simp [Function.comp_def]
  trees := by
    simp only [List.map_map, List.map_inj_left, Function.comp_apply, Named.map_val]
    constructor
    · intro h slot hslot
      cases hval : slot.val with
      | literal w => exact h slots rfl slot hslot w hval
      | _ => rfl
    · rintro h _ ⟨⟩ slot hslot w hval
      simpa only [hval] using h slot hslot

theorem ofSequence_convert (v : Value) :
    BothConvert v.ReadsBack (Slot.ofSequence v) (Item.ofSequence v) := by
  cases v with
  | null => exact ⟨[], rfl, rfl, by simp [Value.ReadsBack]⟩
  | list items =>
    have hreads : (Value.list items).ReadsBack ↔ True := by simp [Value.ReadsBack]
    rw [hreads]
    exact ofItems_convert 0 items
  | tree t =>
    cases t with
    | pairlist slots => exact ⟨_, rfl, ofPairlist_renders slots⟩
    | _ => exact nofun
  | _ => exact nofun

section

variable (eng : Engine) (ev : Evaluator) (env : FrameId) (mask : Option Mask)

def GivesItems (requests : List Request) (x : Eval (List Slot)) (y : Eval (List Item)) : Prop :=
  ∀ s₁ s₂, s₁.Deeper 0 s₂ →
    (∃ vs slots items t₁ t₂, askAll eng ev env mask requests s₁ = .ok vs t₁ ∧
      vs.length = requests.length ∧ x s₁ = .ok slots t₁ ∧ y s₂ = .ok items t₂ ∧
      t₁.Deeper 0 t₂ ∧ Renders (SplicesReadBack requests vs) slots items) ∨
    ∃ h t, askAll eng ev env mask requests s₁ = .error h t ∧ x s₁ = .error h t ∧
      ∀ items t₂, y s₂ = .ok items t₂ → Unrenderable items

end

section

variable {eng : Engine} {ev : Evaluator} {env : FrameId} {mask : Option Mask}
  {requests more : List Request} {x x' : Eval (List Slot)} {y y' : Eval (List Item)}

namespace GivesItems

theorem operand {γ : Type} (hev : IgnoresLog eng ev) (e : Tree) (env : FrameId)
    (mask : Option Mask) {q : Query}
    {c : Value → Except Error γ} {m : γ → String} {g : γ → List Slot}
    {d : Value → Except Error (List Item)}
    (hask : q.ask eng ev env mask = ev e env mask >>= fun v => Eval.ofExcept (c v) >>= fun a =>
      Eval.trace eng.trace (m a) >>= fun _ => pure v)
    (hconvert : ∀ v, BothConvert (SplicesReadBack [⟨0, q⟩] [v]) ((c v).map g) (d v)) :
    GivesItems eng ev env mask [⟨0, q⟩]
      (ev e env mask >>= fun v => Eval.ofExcept (c v) >>= fun a =>
        Eval.trace eng.trace (m a) >>= fun _ => pure (g a))
      (ev e env mask >>= fun v => Eval.ofExcept (d v)) := by
  intro s₁ s₂ hs
  have haskAll : askAll eng ev env mask [⟨0, q⟩] s₁ =
      Outcome.follow (q.ask eng ev env mask s₁) (fun v t => .ok [v] t) id := by
    rw [askAll, Eval.bind_apply, Request.ask, Eval.deeper_zero]
    rfl
  rw [haskAll, hask]
  simp only [Eval.bind_apply]
  rcases (hev e env mask).same hs with ⟨v, t₁, t₂, h₁, h₂, ht⟩ | ⟨h, t₁, t₂, h₁, h₂, ht⟩
  · have hv := hconvert v
    rw [h₁, h₂]
    simp only [Outcome.follow_ok_eval]
    cases hc : c v with
    | error err =>
      rw [hc] at hv
      refine .inr ⟨.failed err, t₁, rfl, rfl, fun items u hu => hv items ?_⟩
      cases hd : d v with
      | error _ =>
        rw [hd] at hu
        cases hu
      | ok l =>
        rw [hd] at hu
        cases hu
        rfl
    | ok a =>
      rw [hc] at hv
      obtain ⟨items, hd, hrenders⟩ := hv
      have htell : ∀ {β : Type} (b : β), (Eval.ofExcept (.ok a) >>= fun a =>
          Eval.trace eng.trace (m a) >>= fun _ => pure b) t₁ =
            .ok b (t₁.traced eng.trace (m a)) := by
        intro β b
        change (Eval.trace eng.trace (m a) >>= fun _ => pure b) t₁ = _
        rw [Eval.bind_apply, Eval.trace_apply]
        rfl
      have hsame : (t₁.traced eng.trace (m a)).Deeper 0 t₂ := ht.traced eng.trace false (m a) ""
      refine .inl ⟨[v], g a, items, _, t₂, ?_, rfl, htell (g a), ?_, hsame, hrenders⟩
      · rw [htell v]
        rfl
      · rw [hd]
        rfl
  · rw [h₁, h₂]
    exact .inr ⟨h, t₁, rfl, rfl, fun _ _ hu => (by cases hu)⟩

theorem value (hev : IgnoresLog eng ev) (name : Option String) (e : Tree) :
    GivesItems eng ev env mask [⟨0, .tree e⟩]
      (resolveUnquote eng ev e env mask >>= fun t => pure [⟨name, t⟩])
      (ev e env mask >>= fun v => pure [⟨name, v⟩]) := by
  have hconvert : ∀ v, BothConvert (SplicesReadBack [⟨0, .tree e⟩] [v])
      ((Tree.ofValue v).map fun t => [⟨name, t⟩]) (.ok [⟨name, v⟩]) := by
    intro v
    cases hv : Tree.ofValue v with
    | ok t => exact ⟨_, rfl, rfl, by simp [SplicesReadBack, hv]⟩
    | error err =>
      rintro _ ⟨⟩
      exact ⟨_, List.mem_singleton_self _, err, hv⟩
  have h := operand (m := fun t => "!!" ++ e.text ++ " => " ++ t.text) hev e env mask rfl hconvert
  simp only [resolveUnquote, bind_assoc, pure_bind]
  exact h

theorem sequence (hev : IgnoresLog eng ev) (e : Tree) :
    GivesItems eng ev env mask [⟨0, .slots e⟩] (resolveSplice eng ev e env mask)
      (spliceItems ev e env mask) := by
  have hconvert : ∀ v, BothConvert (SplicesReadBack [⟨0, .slots e⟩] [v])
      ((Slot.ofSequence v).map id) (Item.ofSequence v) := by
    intro v
    rw [Except.map_id]
    simpa [SplicesReadBack] using ofSequence_convert v
  exact operand hev e env mask rfl hconvert

theorem named {f : String → Eval (List Slot)} {g : String → Eval (List Item)}
    (hev : IgnoresLog eng ev) (n : Tree)
    (h : ∀ name, GivesItems eng ev env mask requests (f name) (g name)) :
    GivesItems eng ev env mask (⟨0, .name n⟩ :: requests) (resolveName ev n env mask >>= f)
      (resolveName ev n env mask >>= g) := by
  intro s₁ s₂ hs
  simp only [askAll, Request.ask, Eval.deeper_zero, Query.ask, resolveName,
    Eval.bind_apply]
  rcases (hev n env mask).same hs with ⟨v, t₁, t₂, h₁, h₂, ht⟩ | ⟨halt, t₁, t₂, h₁, h₂, ht⟩
  · simp only [h₁, h₂, Outcome.follow_ok_eval]
    cases v.toName with
    | error e => exact .inr ⟨.failed e, t₁, rfl, rfl, fun _ _ hu => (by cases hu)⟩
    | ok name =>
      change (∃ vs slots items u₁ u₂, (askAll eng ev env mask requests >>= fun vs =>
            pure (v :: vs)) t₁ = .ok vs u₁ ∧ vs.length = requests.length + 1 ∧
          f name t₁ = .ok slots u₁ ∧ g name t₂ = .ok items u₂ ∧ u₁.Deeper 0 u₂ ∧
          Renders (SplicesReadBack (⟨0, .name n⟩ :: requests) vs) slots items) ∨
        ∃ halt u, (askAll eng ev env mask requests >>= fun vs => pure (v :: vs)) t₁ =
            .error halt u ∧ f name t₁ = .error halt u ∧
          ∀ items u₂, g name t₂ = .ok items u₂ → Unrenderable items
      rw [Eval.bind_apply]
      rcases h name t₁ t₂ ht with
        ⟨vs, slots, items, u₁, u₂, hask, hlength, hx, hy, hu, hrenders⟩ | ⟨halt, u, hask, hx, hy⟩
      · rw [hask]
        exact .inl ⟨v :: vs, slots, items, u₁, u₂, rfl, congrArg (· + 1) hlength, hx, hy, hu,
          hrenders⟩
      · rw [hask]
        exact .inr ⟨halt, u, rfl, hx, hy⟩
  · rw [h₁, h₂]
    exact .inr ⟨halt, t₁, rfl, rfl, fun _ _ hu => (by cases hu)⟩

theorem nameOr (h : GivesItems eng ev env mask requests x y) (name : String) :
    GivesItems eng ev env mask requests (x >>= fun slots => pure (slots.map (·.nameOr name)))
      (y >>= fun items => pure (items.map (·.nameOr name))) := by
  intro s₁ s₂ hs
  simp only [Eval.bind_apply]
  rcases h s₁ s₂ hs with
    ⟨vs, slots, items, u₁, u₂, hask, hlength, hx, hy, hu, hrenders⟩ | ⟨halt, u, hask, hx, hy⟩
  · rw [hx, hy]
    exact .inl ⟨vs, _, _, u₁, u₂, hask, hlength, rfl, rfl, hu, hrenders.nameOr name⟩
  · rw [hx]
    refine .inr ⟨halt, u, hask, rfl, fun all u₂ hall => ?_⟩
    obtain ⟨items, t, hys, ⟨⟩⟩ := Eval.bind_eq_ok.1 ((Eval.bind_apply _ _ _).trans hall)
    exact (hy items _ hys).nameOr name

theorem append (h : GivesItems eng ev env mask requests x y)
    (h' : GivesItems eng ev env mask more x' y') :
    GivesItems eng ev env mask (requests ++ more) (x >>= fun a => x' >>= fun b => pure (a ++ b))
      (y >>= fun a => y' >>= fun b => pure (a ++ b)) := by
  intro s₁ s₂ hs
  rw [askAll_append]
  simp only [Eval.bind_apply]
  rcases h s₁ s₂ hs with
    ⟨vs, slots, items, t₁, t₂, hask, hlength, hx, hy, ht, hrenders⟩ | ⟨halt, t, hask, hx, hy⟩
  · simp only [hask, hx, hy, Outcome.follow_ok_eval, Eval.bind_apply]
    rcases h' t₁ t₂ ht with
      ⟨ws, slots', items', u₁, u₂, hask', hlength', hx', hy', hu, hrenders'⟩ |
        ⟨halt, u, hask', hx', hy'⟩
    · rw [hask', hx', hy']
      refine .inl ⟨vs ++ ws, _, _, u₁, u₂, rfl, by simp [hlength, hlength'], rfl, rfl, hu, ?_⟩
      rw [splicesReadBack_append hlength]
      exact hrenders.append hrenders'
    · rw [hask', hx']
      refine .inr ⟨halt, u, rfl, rfl, fun all u₂ hall => ?_⟩
      obtain ⟨items', t', hys', ⟨⟩⟩ := Eval.bind_eq_ok.1 ((Eval.bind_apply _ _ _).trans hall)
      exact (hy' items' _ hys').after items
  · rw [hask, hx]
    refine .inr ⟨halt, t, rfl, rfl, fun all u₂ hall => ?_⟩
    obtain ⟨items, t₂, hys, hrest⟩ := Eval.bind_eq_ok.1 ((Eval.bind_apply _ _ _).trans hall)
    obtain ⟨items', u', -, ⟨⟩⟩ := Eval.bind_eq_ok.1 hrest
    exact (hy items t₂ hys).append items'

theorem slot (hev : IgnoresLog eng ev) {slot : Slot} (h : slot.Computed) :
    GivesItems eng ev env mask (Slot.requests 0 slot) (resolveSlot eng ev env mask slot)
      (evalDynamicSlot eng ev env mask slot) := by
  cases h with
  | value name e => exact .value hev name e
  | sequence name e => exact .sequence hev e
  | namedValue _ n e => exact .named hev n fun name => .value hev (some name) e
  | namedSequence _ n e => exact .named hev n fun name => (sequence hev e).nameOr name

theorem slots (hev : IgnoresLog eng ev) {slots : List Slot} (h : ∀ slot ∈ slots, slot.Computed) :
    GivesItems eng ev env mask (Slot.allRequests 0 slots) (resolveSlots eng ev env mask slots)
      (evalDynamicSlots eng ev env mask slots) := by
  induction slots with
  | nil =>
    intro s₁ s₂ hs
    exact .inl ⟨[], [], [], s₁, s₂, rfl, rfl, rfl, rfl, hs, rfl, by simp [SplicesReadBack]⟩
  | cons slot rest ih =>
    obtain ⟨hslot, hrest⟩ := List.forall_mem_cons.1 h
    exact (GivesItems.slot hev hslot).append (ih hrest)

end GivesItems

end

end Quotation
