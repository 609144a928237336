import Quotation.Proofs.SpecialCall

namespace Quotation

namespace Heap

variable {h : Heap} {name : String}

def Settled (h : Heap) (name : String) (chain : List FrameId) : Prop :=
  ∀ f ∈ chain, ∀ p, h.binding? f name = some (.promise p) → (h.promise p).isForced = true

theorem Settled.tail {f : FrameId} {rest : List FrameId} (hs : h.Settled name (f :: rest)) :
    h.Settled name rest := fun g hg => hs g (List.mem_cons_of_mem f hg)

theorem Settled.value {f : FrameId} {rest : List FrameId} {p : PromiseId}
    (hs : h.Settled name (f :: rest)) (hp : h.binding? f name = some (.promise p)) :
    ∃ v, (h.promise p).value? = some v :=
  Option.isSome_iff_exists.1 (hs f List.mem_cons_self p hp)

theorem namesSpecial_eq_any (chain : List FrameId) :
    h.namesSpecial name chain = (h.functionIn? name chain).any Value.isSpecial := by
  induction chain with
  | nil => rfl
  | cons f rest ih =>
    simp only [namesSpecial, functionIn?]
    cases h.binding? f name with
    | none => exact ih
    | some b =>
      cases b with
      | dots _ | missing => exact ih
      | value v =>
        dsimp only
        split
        · rfl
        · exact ih
      | promise p =>
        dsimp only
        cases (h.promise p).value? with
        | none => rfl
        | some v =>
          dsimp only
          split
          · rfl
          · exact ih

theorem isSpecialHead_reference (env : FrameId) (mask : Option Mask) :
    h.isSpecialHead env mask (.reference name) =
      (h.function? env mask name).any Value.isSpecial := by
  rw [isSpecialHead, function?]
  cases (Mask.find? mask name).filter Value.isCallable with
  | some v => rfl
  | none => exact namesSpecial_eq_any _

end Heap

theorem Value.eq_special {v : Value} (h : v.isSpecial = true) : ∃ sp, v = .special sp := by
  cases v with
  | special sp => exact ⟨sp, rfl⟩
  | _ => cases h

variable {ev : Evaluator} {env : FrameId} {mask : Option Mask} {name : String} {s : State}

theorem findFunction_of_settled {chain : List FrameId} (hs : s.heap.Settled name chain)
    (hnone : s.heap.functionIn? name chain = none) :
    findFunction ev name chain s = .error (.failed (.undefinedVariable name)) s := by
  induction chain with
  | nil => rfl
  | cons f rest ih =>
    have ih := ih hs.tail
    simp only [Heap.functionIn?] at hnone
    simp only [findFunction, Eval.heap_bind_apply]
    cases hb : s.heap.binding? f name with
    | none =>
      rw [hb] at hnone
      exact ih hnone
    | some b =>
      rw [hb] at hnone
      cases b with
      | dots _ | missing => exact ih hnone
      | value v =>
        dsimp only at hnone ⊢
        split at hnone
        · cases hnone
        · rename_i hv
          rw [if_neg hv]
          exact ih hnone
      | promise p =>
        obtain ⟨v, hp⟩ := hs.value hb
        simp only [hp] at hnone
        dsimp only
        rw [Eval.bind_apply, force_apply_of_value _ hp, Outcome.follow_ok_eval]
        split at hnone
        · cases hnone
        · rename_i hv
          rw [if_neg hv]
          exact ih hnone

theorem resolveHead_of_settled (hs : s.heap.Settled name (s.heap.chain env)) :
    resolveHead ev (.reference name) env mask s =
      match s.heap.function? env mask name with
      | some v => .ok v s
      | none => .error (.failed (.undefinedVariable name)) s := by
  cases hv : s.heap.function? env mask name with
  | some v => exact resolveHead_named hv
  | none =>
    simp only [resolveHead, lookupFunction]
    rw [Heap.function?] at hv
    cases hm : (Mask.find? mask name).filter Value.isCallable with
    | some w =>
      rw [hm] at hv
      cases hv
    | none =>
      rw [hm] at hv
      exact findFunction_of_settled hs hv

theorem resolveHead_literal (eng : Engine) (fuel : Nat) (v : Value) :
    resolveHead (evaluate eng (fuel + 1)) (.literal v) env mask s =
      if v.isCallable then .ok v s else .error (.failed (.notCallable v.typeName)) s := by
  change (if v.isCallable then (pure v : Eval Value) else Eval.fail (.notCallable v.typeName)) s = _
  split <;> rfl

/-- A head that is not evaluated to see what it stands for: an inlined value or a name. -/
inductive Tree.IsPlainHead : Tree → Prop
  | inlined (v : Value) : IsPlainHead (.literal v)
  | named (name : String) : IsPlainHead (.reference name)

/-- A plain head that is known to be a special is looked up as one, and nothing changes. One that is
not known to be a special is none, and nothing changes either, unless a promise is pending that its
name is bound to. -/
theorem knownSpecial_agrees_with_lookup (eng : Engine) (fuel : Nat) {head : Tree}
    (hhead : head.IsPlainHead) (env : FrameId) (mask : Option Mask) (s : State) :
    let resolved := resolveHead (evaluate eng (fuel + 1)) head env mask s
    let known := s.heap.isSpecialHead env mask head
    (known = true → ∃ sp, resolved = .ok (.special sp) s) ∧
      (known = false →
        (∀ name, head = .reference name → s.heap.Settled name (s.heap.chain env)) →
          (∃ v : Value, v.isSpecial = false ∧ resolved = .ok v s) ∨
            ∃ e, resolved = .error (.failed e) s) := by
  intro resolved known
  cases hhead with
  | inlined v =>
    have hresolved : resolved = if v.isCallable then .ok v s else
        .error (.failed (.notCallable v.typeName)) s := resolveHead_literal eng fuel v
    constructor
    · intro hspecial
      obtain ⟨sp, rfl⟩ := Value.eq_special hspecial
      exact ⟨sp, hresolved⟩
    · intro hspecial _
      rw [hresolved]
      split
      · exact .inl ⟨v, hspecial, rfl⟩
      · exact .inr ⟨_, rfl⟩
  | named name =>
    have hknown : known = (s.heap.function? env mask name).any Value.isSpecial :=
      Heap.isSpecialHead_reference env mask
    rw [hknown]
    constructor
    · intro hspecial
      cases hv : s.heap.function? env mask name with
      | none =>
        rw [hv] at hspecial
        cases hspecial
      | some v =>
        rw [hv] at hspecial
        obtain ⟨sp, rfl⟩ := Value.eq_special hspecial
        exact ⟨sp, resolveHead_named hv⟩
    · intro hspecial hsettled
      have hresolved : resolved = _ := resolveHead_of_settled (hsettled name rfl)
      cases hv : s.heap.function? env mask name with
      | none =>
        rw [hv] at hresolved
        exact .inr ⟨_, hresolved⟩
      | some v =>
        rw [hv] at hspecial hresolved
        exact .inl ⟨v, hspecial, hresolved⟩

def State.withShadows : State where
  heap :=
    let p : Promise := { expr := .literal .null, env := 0, mask := none }
    let h := (({} : Heap).newFrame none false).2
    let h := h.define 0 "quote" (.special ⟨.quote, 1⟩)
    let h := h.define 0 "expr" (.special ⟨.expr, 2⟩)
    let h := (h.newFrame (some 0) true).2
    let h := (h.newPromise { p with value? := some (.int 1) }).2
    let h := (h.newPromise { p with value? := some (.builtin ⟨.list, 3⟩) }).2
    let h := h.bind 1 "quote" (.promise 0)
    h.bind 1 "expr" (.promise 1)

theorem knownSpecial_behind_shadow :
    let eng : Engine := { host := Session.host }
    let s : State := .withShadows
    (∃ sp, resolveHead (evaluate eng 1) (.reference "quote") 1 none s = .ok (.special sp) s) ∧
      ((∃ v : Value, v.isSpecial = false ∧
          resolveHead (evaluate eng 1) (.reference "expr") 1 none s = .ok v s) ∨
        ∃ e, resolveHead (evaluate eng 1) (.reference "expr") 1 none s = .error (.failed e) s) := by
  intro eng s
  have hsettled : s.heap.Settled "expr" (s.heap.chain 1) := by
    rintro f (_ | ⟨_, _ | ⟨_, ⟨⟩⟩⟩) p hp
    · cases hp
      rfl
    · cases hp
  refine ⟨(knownSpecial_agrees_with_lookup eng 0 (.named "quote") 1 none s).1 rfl, ?_⟩
  refine (knownSpecial_agrees_with_lookup eng 0 (.named "expr") 1 none s).2 rfl ?_
  rintro _ ⟨⟩
  exact hsettled

end Quotation
