import Quotation.Proofs.Substitution.Literal

namespace Quotation

/-- The slots of the call that an argument gives. -/
def CallArg.slots : CallArg → Except Error (List Slot)
  | .positional v => do
    let t ← Tree.ofValue v
    return [⟨none, t⟩]
  | .labelled name v => do
    let t ← Tree.ofValue v
    return [⟨some name, t⟩]
  | .splice v => Slot.ofSequence v
  | .define n v => do
    let name ← n.toName
    let t ← Tree.ofValue v
    return [⟨some name, t⟩]

def CallArg.allSlots : List CallArg → Except Error (List Slot)
  | [] => return []
  | a :: rest => do
    let here ← a.slots
    let there ← CallArg.allSlots rest
    return here ++ there

theorem CallArg.allSlots_cons_eq_ok_iff {a : CallArg} {rest : List CallArg} {slots : List Slot} :
    CallArg.allSlots (a :: rest) = .ok slots ↔ ∃ here there,
      a.slots = .ok here ∧ CallArg.allSlots rest = .ok there ∧ slots = here ++ there := by
  rw [CallArg.allSlots]
  cases a.slots with
  | error e => exact iff_of_false nofun nofun
  | ok here =>
    cases CallArg.allSlots rest with
    | error e => exact iff_of_false nofun nofun
    | ok there =>
      constructor
      · rintro ⟨⟩
        exact ⟨here, there, rfl, rfl, rfl⟩
      · rintro ⟨_, _, ⟨⟩, ⟨⟩, rfl⟩
        rfl

theorem CallArg.allSlots_cons_eq_error_iff {a : CallArg} {rest : List CallArg} {e : Error} :
    CallArg.allSlots (a :: rest) = .error e ↔ a.slots = .error e ∨
      (∃ here, a.slots = .ok here) ∧ CallArg.allSlots rest = .error e := by
  rw [CallArg.allSlots]
  cases a.slots with
  | error e' => simp [bind, Except.bind]
  | ok here =>
    cases CallArg.allSlots rest with
    | error e' => simp [bind, Except.bind]
    | ok there => simp [bind, Except.bind, pure, Except.pure]

theorem CallArg.allSlots_eq_ok_iff {args : List CallArg} {slots : List Slot} :
    CallArg.allSlots args = .ok slots ↔
      ∃ parts : List (List Slot), args.map CallArg.slots = parts.map .ok ∧
        slots = parts.flatten := by
  induction args generalizing slots with
  | nil =>
    constructor
    · rintro ⟨⟩
      exact ⟨[], rfl, rfl⟩
    · rintro ⟨parts, hparts, rfl⟩
      cases parts with
      | nil => rfl
      | cons => cases hparts
  | cons a rest ih =>
    rw [CallArg.allSlots_cons_eq_ok_iff]
    constructor
    · rintro ⟨here, there, ha, hrest, rfl⟩
      obtain ⟨parts, hparts, rfl⟩ := ih.1 hrest
      exact ⟨here :: parts, congr (congrArg List.cons ha) hparts, rfl⟩
    · rintro ⟨parts, hparts, rfl⟩
      cases parts with
      | nil => cases hparts
      | cons here parts =>
        obtain ⟨ha, hrest⟩ := List.cons.inj hparts
        exact ⟨here, parts.flatten, ha, ih.2 ⟨parts, hrest, rfl⟩, rfl⟩

theorem CallArg.allSlots_eq_error_iff {args : List CallArg} {e : Error} :
    CallArg.allSlots args = .error e ↔
      ∃ before a after, args = before ++ a :: after ∧
        (∀ b ∈ before, ∃ part, b.slots = .ok part) ∧ a.slots = .error e := by
  induction args with
  | nil =>
    refine iff_of_false nofun ?_
    rintro ⟨before, a, after, h, -⟩
    simp at h
  | cons a rest ih =>
    rw [CallArg.allSlots_cons_eq_error_iff]
    constructor
    · rintro (ha | ⟨hhere, hrest⟩)
      · exact ⟨[], a, rest, rfl, nofun, ha⟩
      · obtain ⟨before, b, after, rfl, hbefore, hb⟩ := ih.1 hrest
        exact ⟨a :: before, b, after, rfl, List.forall_mem_cons.2 ⟨hhere, hbefore⟩, hb⟩
    · rintro ⟨before, b, after, h, hbefore, hb⟩
      cases before with
      | nil =>
        obtain ⟨rfl, rfl⟩ := List.cons.inj h
        exact .inl hb
      | cons c before =>
        obtain ⟨rfl, rfl⟩ := List.cons.inj h
        obtain ⟨hhere, hbefore⟩ := List.forall_mem_cons.1 hbefore
        exact .inr ⟨hhere, ih.2 ⟨before, b, after, rfl, hbefore, hb⟩⟩

theorem CallArg.hasMarkers_toSlot (a : CallArg) : a.toSlot.val.hasMarkers = true := by
  cases a <;> rfl

section

variable {eng : Engine} {ev ev' : Evaluator} {env env' : FrameId} {mask mask' : Option Mask}
  {head : CallHead} {args : List CallArg} {s : State}

theorem resolveSlot_toSlot (hev : LiteralsStand ev) (a : CallArg) :
    (resolveSlot eng ev env mask a.toSlot).ComesTo a.slots := by
  cases a with
  | positional v =>
    exact (resolveUnquote_comesTo hev v).bind fun t => .pure [(⟨none, t⟩ : Slot)]
  | labelled name v =>
    exact (resolveUnquote_comesTo hev v).bind fun t => .pure [(⟨some name, t⟩ : Slot)]
  | splice v => exact resolveSplice_comesTo hev v
  | define n v =>
    exact (resolveName_comesTo hev n).bind fun name =>
      (resolveUnquote_comesTo hev v).bind fun t => .pure [(⟨some name, t⟩ : Slot)]

theorem resolveSlots_toSlot (hev : LiteralsStand ev) (args : List CallArg) :
    (resolveSlots eng ev env mask (args.map CallArg.toSlot)).ComesTo (CallArg.allSlots args) := by
  induction args with
  | nil => exact .pure []
  | cons a rest ih =>
    exact (resolveSlot_toSlot hev a).bind fun here => ih.bind fun there => .pure (here ++ there)

theorem resolveTree_template_cons (hhead : head.toTree.hasMarkers = false) (a : CallArg)
    (rest : List CallArg) :
    resolveTree eng ev env mask (head.template (a :: rest)) = Eval.nested eng.maxDepth do
      let slots ← resolveSlots eng ev env mask ((a :: rest).map CallArg.toSlot)
      return .call head.toTree slots := by
  have hm : (head.toTree.hasMarkers || Slot.anyMarkers ((a :: rest).map CallArg.toSlot)) =
      true := by
    simp [Slot.anyMarkers, a.hasMarkers_toSlot]
  rw [CallHead.template, resolveTree, hm, if_pos rfl, resolveTree_of_noMarkers hhead, pure_bind]

theorem resolveTree_template (hev : LiteralsStand ev) (hhead : head.toTree.hasMarkers = false)
    (args : List CallArg) (hdepth : args ≠ [] → s.depth < eng.maxDepth) :
    ∃ u : State, u.Deeper 0 s ∧ resolveTree eng ev env mask (head.template args) s =
      Eval.ofExcept ((CallArg.allSlots args).map (Tree.call head.toTree)) u := by
  cases args with
  | nil =>
    have hm : (head.template []).hasMarkers = false := by
      simp [CallHead.template, Tree.hasMarkers, Slot.anyMarkers, hhead]
    rw [resolveTree_of_noMarkers hm]
    exact ⟨s, .refl s, rfl⟩
  | cons a rest =>
    have hslots : (resolveSlots eng ev env mask ((a :: rest).map CallArg.toSlot) >>= fun slots =>
        pure (Tree.call head.toTree slots)).ComesTo
          ((CallArg.allSlots (a :: rest)).map (Tree.call head.toTree)) :=
      (resolveSlots_toSlot hev (a :: rest)).map _
    rw [resolveTree_template_cons hhead]
    exact hslots.nested (hdepth (List.cons_ne_nil a rest))

theorem buildCall_eq (hev : LiteralsStand ev) (hhead : head.toTree.hasMarkers = false)
    (args : List CallArg) (env : FrameId) (hdepth : args ≠ [] → s.depth < eng.maxDepth) :
    ∃ u : State, u.Deeper 0 s ∧ buildCall eng ev head args env s =
      Eval.ofExcept ((CallArg.allSlots args).map (Tree.call head.toTree)) u := by
  have hresolving : args ≠ [] → (s.resolving (head.template args)).depth < eng.maxDepth := hdepth
  obtain ⟨u, hu, hr⟩ := resolveTree_template hev hhead args hresolving
  exact ⟨u, hu.trans_same (s.deeper_resolving _).symm_same, hr⟩

theorem buildCall_eq_ok (hev : LiteralsStand ev) (hhead : head.toTree.hasMarkers = false)
    {t : Tree} {u : State} (h : buildCall eng ev head args env s = .ok t u) :
    ∃ slots, CallArg.allSlots args = .ok slots ∧ t = .call head.toTree slots := by
  by_cases hdepth : args ≠ [] → s.depth < eng.maxDepth
  · obtain ⟨w, -, hbuilt⟩ := buildCall_eq hev hhead args env hdepth
    rw [hbuilt] at h
    cases hslots : CallArg.allSlots args with
    | error e =>
      rw [hslots] at h
      cases h
    | ok slots =>
      rw [hslots] at h
      cases h
      exact ⟨slots, rfl, rfl⟩
  · obtain ⟨hargs, hover⟩ := Classical.not_imp.1 hdepth
    cases args with
    | nil => exact absurd rfl hargs
    | cons a rest =>
      change resolveTree eng ev env none (head.template (a :: rest))
        (s.resolving (head.template (a :: rest))) = _ at h
      have hlimit : ¬ (s.resolving (head.template (a :: rest))).depth < eng.maxDepth := hover
      rw [resolveTree_template_cons hhead, Eval.nested_apply, if_neg hlimit] at h
      cases h

theorem resolveSlot_toSlot_congr (hev : LiteralsStand ev) (hev' : LiteralsStand ev')
    (a : CallArg) :
    resolveSlot eng ev env mask a.toSlot = resolveSlot eng ev' env' mask' a.toSlot := by
  have hvalue : ∀ v, resolveUnquote eng ev (.literal v) env mask =
      resolveUnquote eng ev' (.literal v) env' mask' := fun v =>
    (resolveUnquote_literal hev v).trans (resolveUnquote_literal hev' v).symm
  have hname : ∀ n, resolveName ev (.literal n) env mask =
      resolveName ev' (.literal n) env' mask' := fun n =>
    (resolveName_literal hev n).trans (resolveName_literal hev' n).symm
  cases a with
  | positional v => exact congrArg (· >>= fun t => pure [(⟨none, t⟩ : Slot)]) (hvalue v)
  | labelled name v =>
    exact congrArg (· >>= fun t => pure [(⟨some name, t⟩ : Slot)]) (hvalue v)
  | splice v => exact (resolveSplice_literal hev v).trans (resolveSplice_literal hev' v).symm
  | define n v =>
    change (resolveName ev (.literal n) env mask >>= fun name =>
      resolveUnquote eng ev (.literal v) env mask >>= fun t =>
        pure [(⟨some name, t⟩ : Slot)]) = _
    rw [hname, hvalue]
    rfl

theorem resolveSlots_toSlot_congr (hev : LiteralsStand ev) (hev' : LiteralsStand ev')
    (args : List CallArg) :
    resolveSlots eng ev env mask (args.map CallArg.toSlot) =
      resolveSlots eng ev' env' mask' (args.map CallArg.toSlot) := by
  induction args with
  | nil => rfl
  | cons a rest ih =>
    have hhere : resolveSlot eng ev env mask a.toSlot = resolveSlot eng ev' env' mask' a.toSlot :=
      resolveSlot_toSlot_congr hev hev' a
    simp only [List.map_cons, resolveSlots, hhere, ih]

theorem buildCall_congr (hev : LiteralsStand ev) (hev' : LiteralsStand ev')
    (hhead : head.toTree.hasMarkers = false) (args : List CallArg) (env env' : FrameId) :
    buildCall eng ev head args env = buildCall eng ev' head args env' := by
  have hslots : resolveSlots eng ev env none (args.map CallArg.toSlot) =
      resolveSlots eng ev' env' none (args.map CallArg.toSlot) :=
    resolveSlots_toSlot_congr hev hev' args
  simp only [buildCall, resolve, CallHead.template, resolveTree, resolveTree_of_noMarkers hhead,
    hslots]

end

/-- With a level left, a call is built of just the head that is given and the slots that the
arguments give, one after the other; it fails just if an argument gives none, with the error of the
first. Apart from the log, nothing changes. Neither does it matter in which frame this is done, nor
what the evaluator does but give literals their values. -/
theorem buildCall_is_concatenation (eng : Engine) (fuel : Nat) (head : CallHead)
    (hhead : head.toTree.hasMarkers = false) (args : List CallArg) (env : FrameId) (s : State)
    (hdepth : s.depth < eng.maxDepth) :
    let built : Outcome Tree := buildCall eng (evaluate eng (fuel + 1)) head args env s
    (∀ t, built.value? = some t ↔ ∃ parts : List (List Slot),
        args.map CallArg.slots = parts.map .ok ∧ t = .call head.toTree parts.flatten) ∧
      (∀ h, built.halt? = some h ↔ ∃ before a after e, args = before ++ a :: after ∧
        (∀ b ∈ before, ∃ part, b.slots = .ok part) ∧ a.slots = .error e ∧ h = .failed e) ∧
      built.state.Deeper 0 s ∧
      ∀ ev env', LiteralsStand ev → buildCall eng ev head args env' s = built := by
  intro built
  have hstand := evaluate_literalsStand eng fuel
  obtain ⟨u, hu, hbuilt⟩ := buildCall_eq hstand hhead args env fun _ => hdepth
  change built = _ at hbuilt
  have hsame : ∀ ev env', LiteralsStand ev → buildCall eng ev head args env' s = built :=
    fun ev env' hev => congrFun (buildCall_congr hev hstand hhead args env' env) s
  have hvalue : ∀ t, built.value? = some t ↔
      ∃ slots, CallArg.allSlots args = .ok slots ∧ t = .call head.toTree slots := by
    intro t
    rw [hbuilt]
    cases CallArg.allSlots args with
    | error e => exact iff_of_false nofun nofun
    | ok slots =>
      constructor
      · rintro ⟨⟩
        exact ⟨slots, rfl, rfl⟩
      · rintro ⟨_, ⟨⟩, rfl⟩
        rfl
  have hhalt : ∀ h, built.halt? = some h ↔
      ∃ e, CallArg.allSlots args = .error e ∧ h = .failed e := by
    intro h
    rw [hbuilt]
    cases CallArg.allSlots args with
    | ok slots => exact iff_of_false nofun nofun
    | error e =>
      constructor
      · rintro ⟨⟩
        exact ⟨e, rfl, rfl⟩
      · rintro ⟨_, ⟨⟩, rfl⟩
        rfl
  refine ⟨fun t => (hvalue t).trans ?_, fun h => (hhalt h).trans ?_, ?_, hsame⟩
  · constructor
    · rintro ⟨slots, hslots, rfl⟩
      obtain ⟨parts, hparts, rfl⟩ := CallArg.allSlots_eq_ok_iff.1 hslots
      exact ⟨parts, hparts, rfl⟩
    · rintro ⟨parts, hparts, rfl⟩
      exact ⟨parts.flatten, CallArg.allSlots_eq_ok_iff.2 ⟨parts, hparts, rfl⟩, rfl⟩
  · constructor
    · rintro ⟨e, he, rfl⟩
      obtain ⟨before, a, after, hargs, hbefore, ha⟩ := CallArg.allSlots_eq_error_iff.1 he
      exact ⟨before, a, after, e, hargs, hbefore, ha, rfl⟩
    · rintro ⟨before, a, after, e, hargs, hbefore, ha, rfl⟩
      exact ⟨e, CallArg.allSlots_eq_error_iff.2 ⟨before, a, after, hargs, hbefore, ha⟩, rfl⟩
  · rw [hbuilt]
    cases CallArg.allSlots args <;> exact hu

theorem buildCall_mixture :
    let eng : Engine := { host := Session.host, maxDepth := 1 }
    let args : List CallArg := [.positional (.tree (.reference "x")), .labelled "y" (.int 2),
      .splice (.list [⟨some "a", .null⟩, ⟨none, .int 3⟩]), .define (.str "z") (.bool true)]
    let failing : List CallArg := args ++ [.define .null (.external ⟨"fd", none, 0⟩), .splice (.int 1)]
    ((CallHead.name "f").toTree.hasMarkers = false ∧ ({} : State).depth < eng.maxDepth) ∧
      Outcome.value? (buildCall eng (evaluate eng 1) (.name "f") args 0 {}) =
        some (.call (.reference "f") [⟨none, .reference "x"⟩, ⟨some "y", .literal (.int 2)⟩,
          ⟨some "a", .literal .null⟩, ⟨none, .literal (.int 3)⟩,
          ⟨some "z", .literal (.bool true)⟩]) ∧
      Outcome.halt? (buildCall eng (evaluate eng 1) (.name "f") failing 0 {}) =
        some (.failed (.invalidName "null")) := by
  intro eng args failing
  let parts : List (List Slot) := [[⟨none, .reference "x"⟩], [⟨some "y", .literal (.int 2)⟩],
    [⟨some "a", .literal .null⟩, ⟨none, .literal (.int 3)⟩], [⟨some "z", .literal (.bool true)⟩]]
  have hparts : args.map CallArg.slots = parts.map .ok := rfl
  have hbefore : ∀ b ∈ args, ∃ part, b.slots = .ok part := by
    simp only [args, List.forall_mem_cons]
    exact ⟨⟨_, rfl⟩, ⟨_, rfl⟩, ⟨_, rfl⟩, ⟨_, rfl⟩, nofun⟩
  have hbuilt := fun args =>
    buildCall_is_concatenation eng 0 (.name "f") rfl args 0 {} Nat.one_pos
  refine ⟨⟨rfl, Nat.one_pos⟩, ((hbuilt args).1 _).2 ⟨parts, hparts, rfl⟩, ?_⟩
  exact ((hbuilt failing).2.1 _).2 ⟨args, _, [.splice (.int 1)], _, rfl, hbefore, rfl, rfl⟩

end Quotation
