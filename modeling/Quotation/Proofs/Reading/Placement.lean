import Quotation.Proofs.Conversion
import Quotation.Proofs.Hereditary
import Quotation.Proofs.Reading.Bangs
import Quotation.Proofs.Reading.Composition
import Quotation.Proofs.Substitution.Literal
import Quotation.Session.Host
import Quotation.Source.Frontend

namespace Quotation

namespace Tree

/-- The tree is another or stands somewhere in it, be it in an operand. -/
inductive Within : Tree → Tree → Prop
  | here (t : Tree) : t.Within t
  | inside {u c t : Tree} : c ∈ t.children → u.Within c → u.Within t

def Everywhere (P : Tree → Prop) (t : Tree) : Prop := ∀ u : Tree, u.Within t → P u

theorem everywhere_iff {P : Tree → Prop} {t : Tree} :
    t.Everywhere P ↔ P t ∧ ∀ c ∈ t.children, c.Everywhere P := by
  constructor
  · exact fun h => ⟨h t (.here t), fun c hc u hu => h u (.inside hc hu)⟩
  · rintro ⟨h, hchildren⟩ u hu
    cases hu with
    | here => exact h
    | inside hc hu => exact hchildren _ hc u hu

def isDefine : Tree → Bool
  | .define _ _ => true
  | _ => false

/-- The operands of a marker that substitution evaluates. The value of a definition is none: it is
substituted in. -/
def operands : Tree → List Tree
  | .unquote e => [e]
  | .splice e => [e]
  | .define n _ => [n]
  | _ => []

end Tree

def Value.isSingle : Value → Bool
  | .null => true
  | .bool _ => true
  | .int _ => true
  | .float _ => true
  | .str _ => true
  | _ => false

/-- A tree has a definition for a child only if it is a call with the definition for an argument. -/
def Tree.DefinesArguments (t : Tree) : Prop :=
  ∀ d ∈ t.children, d.isDefine = true →
    ∃ head args, t = .call head args ∧ head.isDefine = false ∧ d ∈ args.map Named.val

structure Tree.Regular (t : Tree) : Prop where
  single : ∀ v, t = .literal v → v.isSingle = true
  unbracketed : ∀ args, t ≠ .pairlist args
  arguments : t.DefinesArguments

/-- A tree of source text. -/
structure Tree.Written (t : Tree) : Prop where
  plain : t.isDefine = false
  regular : t.Everywhere Regular

namespace Tree.Written

variable {t head n v : Tree} {args : List Slot}

theorem literal {v : Value} (h : v.isSingle = true) : Written (.literal v) := by
  refine ⟨rfl, everywhere_iff.2 ⟨⟨?_, nofun, nofun⟩, nofun⟩⟩
  rintro w ⟨⟩
  exact h

theorem reference (name : String) : Written (.reference name) :=
  ⟨rfl, everywhere_iff.2 ⟨⟨nofun, nofun, nofun⟩, nofun⟩⟩

theorem call (hhead : Written head) (hargs : ∀ u ∈ args.map Named.val, u.Everywhere Regular) :
    Written (.call head args) := by
  refine ⟨rfl, everywhere_iff.2 ⟨⟨nofun, nofun, ?_⟩, ?_⟩⟩
  · rintro d hd hdefine
    rcases List.mem_cons.1 hd with rfl | hd
    · exact absurd hdefine (by simp [hhead.plain])
    · exact ⟨head, args, rfl, hhead.plain, hd⟩
  · exact List.forall_mem_cons.2 ⟨hhead.regular, hargs⟩

theorem marker (hsingle : ∀ v, t ≠ .literal v) (hpairlist : ∀ args, t ≠ .pairlist args)
    (h : ∀ c ∈ t.children, Written c) : t.Everywhere Regular := by
  refine everywhere_iff.2 ⟨⟨fun v hv => absurd hv (hsingle v), hpairlist, ?_⟩, fun c hc =>
    (h c hc).regular⟩
  intro d hd hdefine
  exact absurd hdefine (by simp [(h d hd).plain])

theorem unquote (h : Written t) : Written (.unquote t) :=
  ⟨rfl, marker nofun nofun (List.forall_mem_singleton.2 h)⟩

theorem splice (h : Written t) : Written (.splice t) :=
  ⟨rfl, marker nofun nofun (List.forall_mem_singleton.2 h)⟩

theorem define (hn : Written n) (hv : Written v) : (Tree.define n v).Everywhere Regular :=
  marker nofun nofun (by simp [children, hn, hv])

theorem callNamed (name : String) {ts : List Tree} (h : ∀ u ∈ ts, Written u) :
    Written (.callNamed name ts) := by
  refine .call (.reference name) ?_
  simpa [Named.positional] using fun u hu => (h u hu).regular

theorem negated (h : Written t) : Written (Source.negated t) := by
  fun_cases Source.negated t with
  | case1 n => exact .literal rfl
  | case2 x => exact .literal rfl
  | case3 => exact .callNamed "-" (List.forall_mem_singleton.2 h)

end Tree.Written

namespace Source

theorem Literal.toValue_gives (l : Literal) : Gives (fun v => v.isSingle = true) l.toValue := by
  cases l with
  | int spelling n =>
    rw [Literal.toValue]
    split
    · exact .ok rfl
    · exact .error _
  | float | str | char => exact .ok rfl
  | other => exact .error _

theorem written_composition :
    Composition Tree.Written fun u => u.Everywhere Tree.Regular where
  constant l := l.toValue_gives.mono fun _ hv => .literal hv
  bool _ := .literal rfl
  null := .literal rfl
  reference := .reference
  call := .call
  unquote ht := ht.unquote
  splice ht := ht.splice
  negated ht := ht.negated
  argument ht := ht.regular
  definition := Tree.Written.define

theorem Expr.toTree_gives :
    (∀ e : Expr, Gives Tree.Written e.toTree) ∧
    ∀ l : List Expr, Gives (fun slots => ∀ u ∈ slots.map Named.val, u.Everywhere Tree.Regular)
      (toSlots l) :=
  written_composition.toTree_gives

theorem parse_gives (source : String) : Gives Tree.Written (parse source) :=
  written_composition.parse_gives source

end Source

def Eval.Avoids {α : Type} (e : Error) (act : Eval α) : Prop :=
  ∀ s, Outcome.halt? (act s) ≠ some (.failed e)

namespace Eval.Avoids

variable {α β : Type} {e : Error} {act : Eval α} {x : Except Error α}

theorem ofComesTo (h : act.ComesTo x) (hx : x ≠ .error e) : act.Avoids e := by
  intro s
  obtain ⟨u, -, hact⟩ := h s
  rw [hact]
  cases x with
  | ok a => exact nofun
  | error e' =>
    rintro ⟨⟩
    exact hx rfl

theorem pure (a : α) : (Pure.pure a : Eval α).Avoids e := .ofComesTo (.pure a) nofun

theorem bind (h : act.Avoids e) {f : α → Eval β} (hf : ∀ a, (f a).Avoids e) :
    (act >>= f).Avoids e := by
  intro s
  have hs := h s
  rw [Eval.bind_apply]
  cases hact : act s with
  | ok a u => exact hf a u
  | error h u =>
    rw [hact] at hs
    exact hs

theorem map (h : act.Avoids e) (f : α → β) : (act >>= fun a => Pure.pure (f a)).Avoids e :=
  h.bind fun a => .pure (f a)

theorem nested (h : act.Avoids e) {maxDepth : Nat} (he : ∀ n m, e ≠ .stackOverflow n m) :
    (Eval.nested maxDepth act).Avoids e := by
  intro s
  rw [Eval.nested_apply]
  split
  · have hs := h (s.mapDepth (· + 1))
    cases hact : act (s.mapDepth (· + 1)) with
    | ok a u => exact nofun
    | error h u =>
      rw [hact] at hs
      exact hs
  · rintro ⟨⟩
    exact he _ _ rfl

end Eval.Avoids

theorem Tree.ofValue_ne_invalidDefine (v : Value) :
    Tree.ofValue v ≠ .error .invalidDefineContext := by
  intro h
  cases (Tree.ofValue_eq_error_iff v _).1 h

theorem Slot.ofSequence_ne_invalidDefine (v : Value) :
    Slot.ofSequence v ≠ .error .invalidDefineContext := by
  intro h
  cases (Slot.ofSequence_eq_error_iff v _).1 h

theorem Value.toName_ne_invalidDefine (v : Value) : v.toName ≠ .error .invalidDefineContext := by
  unfold Value.toName
  split <;> intro h <;> cases h

/-- Definitions are arguments, and operands are literals. -/
structure Tree.Filled (t : Tree) : Prop where
  arguments : t.DefinesArguments
  operands : ∀ e ∈ t.operands, ∃ v, e = .literal v

namespace Tree.Filled

variable {t c : Tree}

theorem child (h : t.Everywhere Filled) (hc : c ∈ t.children) : c.Everywhere Filled :=
  (everywhere_iff.1 h).2 c hc

theorem operand (h : t.Everywhere Filled) (he : c ∈ t.operands) : ∃ v, c = .literal v :=
  (h t (.here t)).operands c he

theorem child_plain (h : t.Everywhere Filled) (hc : c ∈ t.children)
    (ht : ∀ head args, t = .call head args → c = head) : c.isDefine = false := by
  cases hdefine : c.isDefine with
  | false => rfl
  | true =>
    obtain ⟨head, args, rfl, hhead, -⟩ := (h t (.here t)).arguments c hc hdefine
    rw [ht head args rfl, hhead] at hdefine
    cases hdefine

end Tree.Filled

variable {eng : Engine} {ev : Evaluator} {env : FrameId} {mask : Option Mask}

theorem resolveTree_avoids (hev : LiteralsStand ev) :
    (∀ t : Tree, t.isDefine = false → t.Everywhere Tree.Filled →
        (resolveTree eng ev env mask t).Avoids .invalidDefineContext) ∧
      (∀ l : List Slot, (∀ u ∈ l.map Named.val, u.Everywhere Tree.Filled) →
        (resolveSlots eng ev env mask l).Avoids .invalidDefineContext) ∧
      ∀ slot : Slot, slot.val.Everywhere Tree.Filled →
        (resolveSlot eng ev env mask slot).Avoids .invalidDefineContext := by
  refine resolveTree.mutual_induct _ _ _ ?literal ?reference ?call ?finishedCall ?pairlist
    ?finishedPairlist ?unquote ?splice ?define ?nil ?cons ?spliceSlot ?defineSplice ?defineSlot
    ?plainSlot
  case literal => exact fun _ _ _ => .pure _
  case reference => exact fun _ _ _ => .pure _
  case call =>
    intro head args hm hhead hargs _ h
    have hplain : head.isDefine = false :=
      Tree.Filled.child_plain h List.mem_cons_self fun _ _ ht => by cases ht; rfl
    have hresolved := hhead hplain (Tree.Filled.child h List.mem_cons_self)
    have hslots := hargs fun u hu => Tree.Filled.child h (List.mem_cons_of_mem _ hu)
    rw [resolveTree, if_pos hm]
    exact (hresolved.bind fun head => hslots.map (Tree.call head)).nested (by simp)
  case finishedCall =>
    intro head args hm _ _
    rw [resolveTree, if_neg hm]
    exact .pure _
  case pairlist =>
    intro args hm hargs _ h
    have hslots := hargs fun u hu => Tree.Filled.child h hu
    rw [resolveTree, if_pos hm]
    exact (hslots.map Tree.pairlist).nested (by simp)
  case finishedPairlist =>
    intro args hm _ _
    rw [resolveTree, if_neg hm]
    exact .pure _
  case unquote =>
    intro e _ h
    obtain ⟨v, rfl⟩ := Tree.Filled.operand h (List.mem_singleton_self e)
    exact .ofComesTo (resolveUnquote_comesTo hev v) (Tree.ofValue_ne_invalidDefine v)
  case splice => exact fun e _ _ => .ofComesTo (.ofExcept (.error _)) (by simp)
  case define => exact fun n v hplain _ => by cases hplain
  case nil => exact fun _ => .pure _
  case cons =>
    intro slot rest hslot hrest h
    obtain ⟨hhere, hthere⟩ := List.forall_mem_cons.1 h
    exact (hslot hhere).bind fun here => (hrest hthere).map (here ++ ·)
  case spliceSlot =>
    intro _ e h
    obtain ⟨v, rfl⟩ := Tree.Filled.operand h (List.mem_singleton_self e)
    exact .ofComesTo (resolveSplice_comesTo hev v) (Slot.ofSequence_ne_invalidDefine v)
  case defineSplice =>
    intro _ n e h
    have hsplice : (Tree.splice e).Everywhere Tree.Filled :=
      Tree.Filled.child h (by simp [Tree.children])
    obtain ⟨label, rfl⟩ := Tree.Filled.operand h (List.mem_singleton_self n)
    obtain ⟨v, rfl⟩ := Tree.Filled.operand hsplice (List.mem_singleton_self e)
    refine .bind (.ofComesTo (resolveName_comesTo hev label) (Value.toName_ne_invalidDefine label))
      fun name => ?_
    exact .map (.ofComesTo (resolveSplice_comesTo hev v) (Slot.ofSequence_ne_invalidDefine v)) _
  case defineSlot =>
    intro _ n v hv ht h
    have hmem : v ∈ (Tree.define n v).children := by simp [Tree.children]
    have hplain : v.isDefine = false := Tree.Filled.child_plain h hmem (by simp)
    obtain ⟨label, rfl⟩ := Tree.Filled.operand h (List.mem_singleton_self n)
    rw [resolveSlot.eq_3 _ _ _ _ _ _ _ hv]
    refine .bind (.ofComesTo (resolveName_comesTo hev label) (Value.toName_ne_invalidDefine label))
      fun name => ?_
    exact (ht hplain (Tree.Filled.child h hmem)).map _
  case plainSlot =>
    intro name t h₁ h₂ h₃ ht h
    have hplain : t.isDefine = false := by
      cases t with
      | define n v => exact absurd rfl (h₃ n v)
      | _ => rfl
    rw [resolveSlot.eq_4 _ _ _ _ _ _ h₁ h₂ h₃]
    exact (ht hplain h).map _

/-- In a tree of source text a definition is an argument of a call and nothing else, there is no
pairlist, and literals are single values. Where the operands that are evaluated are literals,
substitution never meets a definition in another place. -/
theorem source_definitions_are_arguments {t : Tree}
    (h : (∃ e : Source.Expr, e.toTree = .ok t) ∨ ∃ source, Frontend.rust.parse source = .ok t) :
    t.isDefine = false ∧
    (∀ u : Tree, u.Within t →
      (∀ v, u = .literal v → v.isSingle = true) ∧ (∀ args, u ≠ .pairlist args) ∧
      ∀ d ∈ u.children, d.isDefine = true →
        ∃ head args, u = .call head args ∧ head.isDefine = false ∧ d ∈ args.map Named.val) ∧
    ((∀ u : Tree, u.Within t → ∀ e ∈ u.operands, ∃ v, e = .literal v) →
      ∀ eng fuel env mask s,
        Outcome.halt? (resolve eng (evaluate eng (fuel + 1)) t env mask s) ≠
          some (.failed .invalidDefineContext)) := by
  have hwritten : t.Written := by
    rcases h with ⟨e, he⟩ | ⟨source, hparse⟩
    · exact Source.Expr.toTree_gives.1 e t he
    · exact Source.parse_gives source t hparse
  refine ⟨hwritten.plain, fun u hu => ?_, fun hoperands eng fuel env mask => ?_⟩
  · have hu := hwritten.regular u hu
    exact ⟨hu.single, hu.unbracketed, hu.arguments⟩
  · have hfilled : t.Everywhere Tree.Filled := fun u hu =>
      ⟨(hwritten.regular u hu).arguments, hoperands u hu⟩
    have hresolve : (resolve eng (evaluate eng (fuel + 1)) t env mask).Avoids
        .invalidDefineContext :=
      .bind (.ofComesTo (.debug _) nofun) fun _ =>
        (resolveTree_avoids (evaluate_literalsStand eng fuel)).1 t hwritten.plain hfilled
    exact hresolve

def Source.Expr.definingCall : Expr :=
  .call (.path false ["f"]) [.assign (.not (.not (.literal (.str "\"a\"" "a"))))
    (.not (.not (.literal (.int "2" 2)))) "!!\"a\"" "!!\"a\" = !!2"]

theorem definingCall_resolves_without_misplacement :
    let t : Tree := .call (.reference "f")
      [.positional (.define (.literal (.str "a")) (.unquote (.literal (.int 2))))]
    Source.Expr.definingCall.toTree = .ok t ∧
    (∀ u : Tree, u.Within t → ∀ e ∈ u.operands, ∃ v, e = .literal v) ∧
    ∀ s, Outcome.halt? (resolve { host := Session.host } (evaluate { host := Session.host } 1) t 0
      none s) ≠ some (.failed .invalidDefineContext) := by
  intro t
  have hleaf : ∀ v, (Tree.literal v).Everywhere fun u => ∀ e ∈ u.operands, ∃ v, e = .literal v :=
    fun v => Tree.everywhere_iff.2 ⟨nofun, nofun⟩
  have hliterals : t.Everywhere fun u => ∀ e ∈ u.operands, ∃ v, e = .literal v := by
    refine Tree.everywhere_iff.2 ⟨nofun, List.forall_mem_cons.2 ⟨?_, ?_⟩⟩
    · exact Tree.everywhere_iff.2 ⟨nofun, nofun⟩
    · refine List.forall_mem_singleton.2 (Tree.everywhere_iff.2 ⟨?_, ?_⟩)
      · exact List.forall_mem_singleton.2 ⟨_, rfl⟩
      · refine List.forall_mem_cons.2 ⟨hleaf _, List.forall_mem_singleton.2 ?_⟩
        exact Tree.everywhere_iff.2
          ⟨List.forall_mem_singleton.2 ⟨_, rfl⟩, List.forall_mem_singleton.2 (hleaf _)⟩
  refine ⟨rfl, hliterals, ?_⟩
  exact (source_definitions_are_arguments (.inl ⟨Source.Expr.definingCall, rfl⟩)).2.2 hliterals
    { host := Session.host } 0 0 none

end Quotation
