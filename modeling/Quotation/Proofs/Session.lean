import Quotation.Proofs.Invariant
import Quotation.Session.Run

/-! Two sessions side by side. They run the same steps, with engines that are in lockstep; then they
stay related and answer alike, also where a step fails. A relation has to allow only what steps do
to a session themselves, since what the engines do is known from the lockstep. A session run beside
itself gives the invariants: what survives every change of the heap outside of forcing, and every
evaluation, holds of the heap after each step if it does before. -/

namespace Quotation

/-- A lockstep that both engines keep to whatever the host does. -/
structure Lockstep.Total {left right : Engine} (L : Lockstep left right) : Prop where
  unexcused : ∀ h, ¬ L.excused h
  writes : ∀ f name b, L.write f name b
  reads : L.reads
  passes : L.Passes

def Session.runAll (s : Session) (steps : List Session.Step) : Session :=
  steps.foldl (fun s step => (s.run step).2) s

namespace Session

inductive EnginesInStep (rel : Session → Session → Prop) (s t : Session) (left right : Engine) :
    Prop
  | mk (L : Quotation.Lockstep left right) (o : L.Origin) : L.Total →
      L.RelatedEvaluators (Quotation.evaluate left fuel) (Quotation.evaluate right fuel) →
      L.rel o s.state t.state →
      (∀ s' t', L.rel o s' t' → rel { s with state := s' } { t with state := t' }) →
      EnginesInStep rel s t left right

/-- A relation between sessions that steps keep, and one between their replies. -/
structure Tandem where
  rel : Session → Session → Prop
  reply : Reply → Reply → Prop
  engines : ∀ {s t}, rel s t → ∀ executor,
    EnginesInStep rel s t (s.engineOf executor) (t.engineOf executor)
  maxDepth : ∀ {s t}, rel s t → s.engine.maxDepth = t.engine.maxDepth
  frames : ∀ {s t}, rel s t → s.frames = t.frames
  promises : ∀ {s t}, rel s t → s.promises = t.promises
  nameFrame : ∀ {s t}, rel s t → ∀ table, rel { s with frames := table } { t with frames := table }
  namePromise : ∀ {s t}, rel s t → ∀ table,
    rel { s with promises := table } { t with promises := table }
  taken : ∀ {s t}, rel s t → rel s.takeRecords.2.2 t.takeRecords.2.2
  same : ∀ r, reply r r
  settings : ∀ {s t}, rel s t → reply (.settings s.engine.maxDepth s.engine.trace)
    (.settings t.engine.maxDepth t.engine.trace)

namespace Tandem

variable (T : Tandem) {α β γ δ : Type} {s t : Session}

theorem heap {T : Tandem} (h : T.rel s t) : s.state.heap = t.state.heap := by
  obtain ⟨L, o, -, -, hs, -⟩ := T.engines h .session
  exact L.heap hs

theorem depth {T : Tandem} (h : T.rel s t) : s.state.depth = t.state.depth := by
  obtain ⟨L, o, htotal, -, hs, -⟩ := T.engines h .session
  exact L.depth htotal.reads hs

inductive Ends (R : α → β → Prop) :
    EStateM.Result Halt Session α → EStateM.Result Halt Session β → Prop
  | ok {a b s t} : R a b → T.rel s t → Ends R (.ok a s) (.ok b t)
  | error {h s t} : T.rel s t → Ends R (.error h s) (.error h t)

def Related (R : α → β → Prop) (x : Action α) (y : Action β) : Prop :=
  ∀ s t, T.rel s t → T.Ends R (x s) (y t)

abbrev Alike (x : Action α) : Prop := T.Related Eq x x

variable {T} {R : γ → δ → Prop}

namespace Related

theorem pure {c : γ} {d : δ} (h : R c d) : T.Related R (pure c) (pure d) := fun _ _ hs => .ok h hs

theorem fail (e : Error) : T.Related R (Action.fail e) (Action.fail e) := fun _ _ hs => .error hs

theorem ofExcept (x : Except Error α) : T.Alike (Action.ofExcept x) := by
  cases x with
  | ok a => exact .pure rfl
  | error e => exact .fail e

theorem bind {x : Action α} {y : Action β} {Q : α → β → Prop} {f : α → Action γ} {g : β → Action δ}
    (hxy : T.Related Q x y) (hfg : ∀ a b, Q a b → T.Related R (f a) (g b)) :
    T.Related R (x >>= f) (y >>= g) := by
  intro s t h
  have hxy := hxy s t h
  simp only [Bind.bind, EStateM.bind]
  cases hx : x s with
  | ok a s' =>
    cases hy : y t with
    | ok b t' =>
      rw [hx, hy] at hxy
      cases hxy with
      | ok hab h => exact hfg a b hab _ _ h
    | error e t' =>
      rw [hx, hy] at hxy
      cases hxy
  | error e s' =>
    cases hy : y t with
    | ok b t' =>
      rw [hx, hy] at hxy
      cases hxy
    | error e' t' =>
      rw [hx, hy] at hxy
      cases hxy with
      | error h => exact .error h

theorem andThen {x y : Action α} {f : α → Action γ} {g : α → Action δ} (hxy : T.Related Eq x y)
    (hfg : ∀ a, T.Related R (f a) (g a)) : T.Related R (x >>= f) (y >>= g) :=
  hxy.bind fun a _ h => h ▸ hfg a

theorem getThen {f g : Session → Action α} {Q : α → α → Prop}
    (hfg : ∀ s t, T.rel s t → T.Related Q (f s) (g t)) :
    T.Related Q (get >>= f) (get >>= g) := fun s t h => hfg s t h s t h

theorem read {f : Session → α} (hf : ∀ s t, T.rel s t → f s = f t) :
    T.Alike fun s => .ok (f s) s := fun s t h => .ok (hf s t h) h

theorem heap : T.Alike Action.heap := .read fun _ _ h => Tandem.heap h

theorem frameNamed (name : String) : T.Alike (Session.frameNamed name) :=
  .read fun s t h => by simp only [Session.frame, T.frames h]

theorem promiseNamed (id : String) : T.Alike (Session.promiseNamed id) :=
  .read fun s t h => by simp only [Session.promise, T.promises h]

theorem nameFrame (name : String) (f : FrameId) : T.Alike (Session.nameFrame name f) := by
  intro s t h
  simp only [Session.nameFrame, T.frames h]
  exact .ok rfl (T.nameFrame h _)

theorem namePromise (id : String) (p : PromiseId) : T.Alike (Session.namePromise id p) := by
  intro s t h
  simp only [Session.namePromise, T.promises h]
  exact .ok rfl (T.namePromise h _)

theorem ends_ofEval {left right : Engine} {L : Quotation.Lockstep left right} {o : L.Origin}
    (htotal : L.Total) (hback : ∀ s' t', L.rel o s' t' →
      T.rel { s with state := s' } { t with state := t' }) {x y : Eval α}
    (h : L.Ends o (x s.state) (y t.state)) : T.Ends Eq (Action.ofEval x s) (Action.ofEval y t) := by
  simp only [Action.ofEval]
  generalize x s.state = r₁ at h
  generalize y t.state = r₂ at h
  cases h with
  | ok h => exact .ok rfl (hback _ _ h)
  | failed h _ | outOfFuel h => exact .error (hback _ _ h)
  | excused h => exact absurd h (htotal.unexcused _)
  | carried _ h => exact absurd h (htotal.passes.uncarried _)

theorem ofEval {x : Eval α} (hx : ∀ {left right : Engine} {L : Quotation.Lockstep left right},
    L.Total → L.Related x x) : T.Alike (Action.ofEval x) := by
  intro s t h
  obtain ⟨L, o, htotal, -, hs, hback⟩ := T.engines h .session
  exact ends_ofEval htotal hback (hx htotal o _ _ hs)

theorem engine (executor : Executor) (op : Engine → Evaluator → Eval α)
    (hop : ∀ {left right : Engine} {L : Quotation.Lockstep left right} {ev₁ ev₂ : Evaluator},
      L.Total → L.RelatedEvaluators ev₁ ev₂ → L.Related (op left ev₁) (op right ev₂)) :
    T.Alike
      (engineFor executor >>= fun eng => Action.ofEval (op eng (Quotation.evaluate eng fuel))) := by
  intro s t h
  obtain ⟨L, o, htotal, hev, hs, hback⟩ := T.engines h executor
  exact ends_ofEval htotal hback (hop htotal hev o _ _ hs)

theorem engineThen (executor : Executor) (op : Engine → Evaluator → Eval α)
    (hop : ∀ {left right : Engine} {L : Quotation.Lockstep left right} {ev₁ ev₂ : Evaluator},
      L.Total → L.RelatedEvaluators ev₁ ev₂ → L.Related (op left ev₁) (op right ev₂))
    {f g : α → Action β} {Q : β → β → Prop} (hfg : ∀ a, T.Related Q (f a) (g a)) :
    T.Related Q
      (engineFor executor >>= fun eng =>
        Action.ofEval (op eng (Quotation.evaluate eng fuel)) >>= f)
      (engineFor executor >>= fun eng =>
        Action.ofEval (op eng (Quotation.evaluate eng fuel)) >>= g) :=
  (engine executor op hop).andThen hfg

theorem freshIdentity : T.Alike (Action.ofEval Eval.freshIdentity) :=
  .ofEval fun _ => .identity

theorem mapM {f : α → Action β} (hf : ∀ a, T.Alike (f a)) (l : List α) : T.Alike (l.mapM f) := by
  induction l with
  | nil =>
    rw [List.mapM_nil]
    exact .pure rfl
  | cons a rest ih =>
    rw [List.mapM_cons]
    exact (hf a).andThen fun b => ih.andThen fun bs => .pure rfl

end Related

end Tandem

open Tandem

variable {T : Tandem}

theorem make_alike :
    (∀ v : ValueSpec, T.Alike v.make) ∧ (∀ l, T.Alike (makeFormals l)) ∧
      (∀ t : TreeSpec, T.Alike t.make) ∧ (∀ l, T.Alike (makeSlots l)) ∧
      ∀ l, T.Alike (makeItems l) := by
  refine ValueSpec.make.mutual_induct _ _ _ _ _ ?null ?bool ?int ?float ?str ?list ?tree ?capture
    ?closure ?external ?callable ?bound ?copies ?nested ?repeated ?literal ?reference ?call
    ?pairlist ?unquote ?splice ?define ?source ?wrapped ?noItems ?items ?noFormals ?formals
    ?defaultFormals ?noSlots ?slots
  case null => exact .pure rfl
  case bool | int | float | str | reference => exact fun _ => .pure rfl
  case list => exact fun _ hl => hl.andThen fun _ => .pure rfl
  case tree | literal | unquote | splice => exact fun _ h => h.andThen fun _ => .pure rfl
  case pairlist => exact fun _ h => h.andThen fun _ => .pure rfl
  case capture =>
    exact fun _ _ ht => ht.andThen fun _ => (Related.frameNamed _).andThen fun _ => .pure rfl
  case closure =>
    exact fun _ _ _ _ hformals hbody => hformals.andThen fun _ => hbody.andThen fun _ =>
      (Related.frameNamed _).andThen fun _ => Related.freshIdentity.andThen fun _ => .pure rfl
  case external | callable => exact fun _ => Related.freshIdentity.andThen fun _ => .pure rfl
  case bound =>
    exact fun _ _ => (Related.frameNamed _).andThen fun _ => Related.heap.andThen fun _ => .pure rfl
  case copies | nested => exact fun _ _ hv => hv.andThen fun _ => .pure rfl
  case repeated => exact fun _ _ => .pure rfl
  case call => exact fun _ _ hhead hargs => hhead.andThen fun _ => hargs.andThen fun _ => .pure rfl
  case define => exact fun _ _ hn hv => hn.andThen fun _ => hv.andThen fun _ => .pure rfl
  case source => exact fun _ => .ofExcept _
  case wrapped => exact fun _ _ _ ht => ht.andThen fun _ => .pure rfl
  case noItems | noFormals | noSlots => exact .pure rfl
  case items | slots =>
    exact fun _ _ _ hv hrest => hv.andThen fun _ => hrest.andThen fun _ => .pure rfl
  case formals => exact fun _ _ hrest => hrest.andThen fun _ => .pure rfl
  case defaultFormals =>
    exact fun _ _ _ ht hrest => ht.andThen fun _ => hrest.andThen fun _ => .pure rfl

theorem ValueSpec.make_alike (v : ValueSpec) : T.Alike v.make := Session.make_alike.1 v

theorem TreeSpec.make_alike (t : TreeSpec) : T.Alike t.make := Session.make_alike.2.2.1 t

theorem makeFormals_alike (l : List (Formal TreeSpec)) : T.Alike (makeFormals l) :=
  make_alike.2.1 l

theorem makeSlots_alike (l : List (Named TreeSpec)) : T.Alike (makeSlots l) :=
  make_alike.2.2.2.1 l

theorem makeEntries_alike (m : Mask) (entries : MaskSpec) : T.Alike (makeEntries m entries) := by
  induction entries generalizing m with
  | nil => exact .pure rfl
  | cons e rest ih => exact (ValueSpec.make_alike _).andThen fun v => ih _

theorem makeMask_alike (mask : Option MaskSpec) : T.Alike (Session.makeMask mask) := by
  cases mask with
  | none => exact .pure rfl
  | some entries => exact (makeEntries_alike _ entries).andThen fun m => .pure rfl

theorem makeMaskFrom_alike (source : MaskSource) : T.Alike (makeMaskFrom source) := by
  cases source with
  | entries entries => exact makeEntries_alike _ entries
  | list v => exact v.make_alike.andThen fun v => .ofExcept _

theorem makeBinding_alike (spec : BindingSpec) : T.Alike (makeBinding spec) := by
  cases spec with
  | missing => exact .pure rfl
  | promise id => exact (Related.promiseNamed id).andThen fun p => .pure rfl
  | dots items =>
    refine Related.andThen (.mapM (fun i => ?_) items) fun _ => .pure rfl
    exact (Related.promiseNamed _).andThen fun p => .pure rfl

theorem makeHead_alike (spec : HeadSpec) : T.Alike (makeHead spec) := by
  cases spec with
  | name s => exact .pure rfl
  | tree t => exact t.make_alike.andThen fun t => .pure rfl
  | value v => exact v.make_alike.andThen fun v => .ofExcept _

theorem makeCallArg_alike (spec : CallArgSpec) : T.Alike (makeCallArg spec) := by
  cases spec with
  | positional v | splice v => exact v.make_alike.andThen fun v => .pure rfl
  | labelled name v => exact v.make_alike.andThen fun v => .pure rfl
  | define n v => exact n.make_alike.andThen fun n => v.make_alike.andThen fun v => .pure rfl

section

variable {left right : Engine} {L : Quotation.Lockstep left right}

theorem newFrame_related (parent : Option FrameId) (isCall : Bool) :
    L.Related (Eval.onHeap fun h => h.newFrame parent isCall)
      (Eval.onHeap fun h => h.newFrame parent isCall) := by
  intro o s₁ s₂ h
  have hheap := L.heap h
  simp only [Eval.onHeap_apply, ← hheap]
  exact .ok (L.frame h parent isCall)

theorem newPromise_related (expr : Tree) (env : FrameId) (mask : Option Mask) :
    L.Related (Eval.onHeap fun h => h.newPromise { expr, env, mask })
      (Eval.onHeap fun h => h.newPromise { expr, env, mask }) := by
  intro o s₁ s₂ h
  have hheap := L.heap h
  simp only [Eval.onHeap_apply, ← hheap]
  exact .ok (L.promise h expr env mask)

variable (htotal : L.Total)

include htotal

theorem rebind_related (f : FrameId) (name : String) (b : Option Binding) :
    L.Related (Eval.modifyHeap (·.rebind f name b)) (Eval.modifyHeap (·.rebind f name b)) :=
  fun _ _ _ h => .ok (L.rebind h (htotal.writes f name b))

omit htotal in
theorem forM_related {α : Type} {f : α → Eval Unit} (hf : ∀ a, L.Related (f a) (f a))
    (l : List α) : L.Related (l.forM f) (l.forM f) := by
  induction l with
  | nil => exact .pure _
  | cons a rest ih => exact (hf a).bind fun _ => ih

theorem defineNew_related (f : FrameId) (name : String) (v : Identity → Value) :
    L.Related (Eval.freshIdentity >>= fun id => Eval.modifyHeap (·.define f name (v id)))
      (Eval.freshIdentity >>= fun id => Eval.modifyHeap (·.define f name (v id))) :=
  Lockstep.Related.identity.bind fun id => rebind_related htotal f name (some (.value (v id)))

theorem loadPrelude_related (f : FrameId) :
    L.Related (Quotation.loadPrelude f) (Quotation.loadPrelude f) :=
  (forM_related (fun _ => defineNew_related htotal f _ _) _).bind fun _ =>
    (forM_related (fun _ => defineNew_related htotal f _ _) _).bind fun _ =>
      .heap fun _ => .debug _

end

theorem newFrame_alike (parent : Option FrameId) (isCall : Bool) :
    T.Alike (Action.ofEval (Eval.onHeap fun h => h.newFrame parent isCall)) :=
  .ofEval fun _ => newFrame_related parent isCall

theorem rebind_alike (f : FrameId) (name : String) (b : Option Binding) :
    T.Alike (Action.ofEval (Eval.modifyHeap (·.rebind f name b))) :=
  .ofEval fun htotal => rebind_related htotal f name b

theorem loadPrelude_alike (f : FrameId) : T.Alike (Action.ofEval (Quotation.loadPrelude f)) :=
  .ofEval fun htotal => loadPrelude_related htotal f

theorem save_alike (f : FrameId) (name : Option String) (v : Value) : T.Alike (save f name v) := by
  cases name with
  | none => exact .pure rfl
  | some name => exact rebind_alike f name (some (.value v))

theorem setUp_alike (settings : Settings) : T.Alike (setUp settings) := by
  refine (newFrame_alike none false).andThen fun f => (Related.nameFrame _ _).andThen fun _ => ?_
  have hhosts : T.Alike (Action.ofEval (settings.hosts.forM (defineHost f))) :=
    .ofEval fun htotal => forM_related (fun name =>
      defineNew_related htotal f name (hostCallable name)) _
  split
  · exact (loadPrelude_alike f).andThen fun _ => hhosts
  · exact hhosts

section

variable {s t : Session}

theorem viewChain_eq (h : T.rel s t) (chain : List FrameId) :
    s.viewChain chain = t.viewChain chain := by
  induction chain with
  | nil => rfl
  | cons f rest ih => simp only [viewChain, frameName?, T.frames h, Tandem.heap h, ih]

theorem view_eq (h : T.rel s t) (f : FrameId) : s.view f = t.view f := by
  simp only [view, Tandem.heap h, viewChain_eq h]

theorem frameFacts_eq (h : T.rel s t) (f : FrameId) : s.frameFacts f = t.frameFacts f := by
  simp only [frameFacts, Tandem.heap h, viewChain_eq h]

theorem levels_eq (h : T.rel s t) (n : Nat) : s.levels n = t.levels n := by
  simp only [levels, T.maxDepth h, Tandem.depth h]

end

theorem makeFrameOf_alike (spec : FrameSpec) : T.Alike (makeFrameOf spec) := by
  cases spec with
  | new => exact newFrame_alike none false
  | prelude =>
    exact (newFrame_alike none false).andThen fun f =>
      (loadPrelude_alike f).andThen fun _ => .pure rfl
  | child parent => exact (Related.frameNamed parent).andThen fun p => newFrame_alike (some p) false
  | callFrame parent =>
    exact (Related.frameNamed parent).andThen fun p => newFrame_alike (some p) true
  | ofValue v =>
    refine v.make_alike.andThen fun v => ?_
    split
    · exact .pure rfl
    · exact .pure rfl
    · exact .frameNamed _
  | parentOf env =>
    exact (Related.frameNamed env).andThen fun f => Related.heap.andThen fun h => .pure rfl

theorem evaluateIn_alike (executor : Executor) (t : Tree) (f : FrameId) (mask : Option Mask) :
    T.Alike (evaluateIn executor t f mask) :=
  .engine executor (fun _ ev => ev t f mask) fun _ hev => hev t f mask

theorem perform_related (step : Step) : T.Related T.reply (perform step) (perform step) := by
  have done : ∀ {r : Reply}, T.Related T.reply (pure r) (pure r) := .pure (T.same _)
  cases step with
  | parse source => exact (Related.ofExcept _).andThen fun t => done
  | formatError e => exact done
  | fromHost e => exact .fail e
  | makeFrame name spec =>
    refine (makeFrameOf_alike spec).andThen fun f => .getThen fun s t h => ?_
    rw [view_eq h, frameFacts_eq h]
    exact (Related.nameFrame name f).andThen fun _ => done
  | loadPrelude env =>
    exact (Related.frameNamed env).andThen fun f => (loadPrelude_alike f).andThen fun _ =>
      Related.heap.andThen fun h => done
  | define env name v =>
    exact (Related.frameNamed env).andThen fun f => v.make_alike.andThen fun v =>
      (rebind_alike f name (some (.value v))).andThen fun _ => Related.heap.andThen fun h => done
  | defineFunction env name formals body =>
    exact (Related.frameNamed env).andThen fun f => (makeFormals_alike formals).andThen
      fun formals => body.make_alike.andThen fun body => Related.freshIdentity.andThen fun id =>
        (rebind_alike f name (some (.value _))).andThen fun _ => Related.heap.andThen fun h => done
  | bind env name spec =>
    exact (Related.frameNamed env).andThen fun f => (makeBinding_alike spec).andThen fun b =>
      (rebind_alike f name (some b)).andThen fun _ => Related.heap.andThen fun h => done
  | lookup env name =>
    exact (Related.frameNamed env).andThen fun f => Related.heap.andThen fun h => done
  | remove env name =>
    exact (Related.frameNamed env).andThen fun f => Related.heap.andThen fun h =>
      (rebind_alike f name none).andThen fun _ => done
  | describeFrame env =>
    refine (Related.frameNamed env).andThen fun f => .getThen fun s t h => ?_
    rw [frameFacts_eq h]
    exact done
  | sameFrame a b =>
    exact (Related.frameNamed a).andThen fun f => (Related.frameNamed b).andThen fun g => done
  | makePromise id t env mask =>
    exact t.make_alike.andThen fun t => (Related.frameNamed env).andThen fun f =>
      (makeMask_alike mask).andThen fun mask =>
        Related.andThen (.ofEval fun _ => newPromise_related t f mask) fun p =>
          (Related.namePromise id p).andThen fun _ => Related.heap.andThen fun h => done
  | describePromise id =>
    exact (Related.promiseNamed id).andThen fun p => Related.heap.andThen fun h => done
  | force id =>
    exact (Related.promiseNamed id).andThen fun p =>
      .engineThen .session (fun _ ev => Quotation.force ev p)
        (fun _ hev => hev.force p) fun v => done
  | makeMask source name => exact (makeMaskFrom_alike source).andThen fun m => done
  | evaluate t env mask executor name =>
    exact t.make_alike.andThen fun t => (Related.frameNamed env).andThen fun f =>
      (makeMask_alike mask).andThen fun mask =>
        (evaluateIn_alike executor t f mask).andThen fun v =>
          (save_alike f name v).andThen fun _ => done
  | evaluateCapture v mask =>
    refine v.make_alike.andThen fun v => (makeMask_alike mask).andThen fun mask => ?_
    split
    · exact (evaluateIn_alike _ _ _ _).andThen fun v => done
    · exact done
  | evaluateArguments args env mask =>
    exact (makeSlots_alike args).andThen fun args => (Related.frameNamed env).andThen fun f =>
      (makeMask_alike mask).andThen fun mask =>
        .engineThen .session (fun _ ev => evalSlots ev f mask args)
          (fun _ hev => evalSlots_related hev f mask args) fun items => done
  | evaluateDynamicArguments args env mask =>
    exact (makeSlots_alike args).andThen fun args => (Related.frameNamed env).andThen fun f =>
      (makeMask_alike mask).andThen fun mask =>
        .engineThen .session (fun eng ev => evalDynamicSlots eng ev f mask args)
          (fun _ hev => evalDynamicSlots_related hev f mask args) fun items => done
  | apply func args env mask =>
    exact func.make_alike.andThen fun func => (makeSlots_alike args).andThen fun args =>
      (Related.frameNamed env).andThen fun f => (makeMask_alike mask).andThen fun mask =>
        .engineThen .session (fun eng ev => Quotation.apply eng ev func args f mask)
          (fun htotal hev =>
            have := htotal.passes
            apply_related hev func args f mask)
          fun v => done
  | nest n =>
    refine .getThen fun s t h => ?_
    rw [levels_eq h]
    exact done
  | depth =>
    refine .getThen fun s t h => ?_
    rw [Tandem.depth h]
    exact done
  | settings => exact .getThen fun s t h => .pure (T.settings h)
  | resolve t env mask executor name =>
    exact t.make_alike.andThen fun t => (Related.frameNamed env).andThen fun f =>
      (makeMask_alike mask).andThen fun mask =>
        .engineThen executor (fun eng ev => Quotation.resolve eng ev t f mask)
          (fun _ hev => resolve_related hev t f mask) fun t =>
            (save_alike f name _).andThen fun _ => done
  | buildCall head args env executor =>
    exact (makeHead_alike head).andThen fun head => (Related.mapM makeCallArg_alike args).andThen
      fun args => (Related.frameNamed env).andThen fun f =>
        .engineThen executor (fun eng ev => Quotation.buildCall eng ev head args f)
          (fun _ hev => buildCall_related hev head args f) fun t => done
  | callHead v | treeOf v | slotsOf v =>
    exact v.make_alike.andThen fun v => (Related.ofExcept _).andThen fun _ => done
  | captureParameter env name =>
    exact (Related.frameNamed env).andThen fun f =>
      Related.andThen (.ofEval fun _ => captureParameter_related f name) fun c => done
  | quoteArguments env | captureArguments env =>
    exact (Related.frameNamed env).andThen fun f =>
      Related.andThen (.ofEval fun _ => captureDots_related f) fun cs => done
  | inspectTree t => exact t.make_alike.andThen fun t => done
  | inspectValue v => exact v.make_alike.andThen fun v => Related.heap.andThen fun h => done
  | equalTrees a b => exact a.make_alike.andThen fun a => b.make_alike.andThen fun b => done
  | equalValues a b => exact a.make_alike.andThen fun a => b.make_alike.andThen fun b => done

theorem reply_related {s t : Session} (h : T.rel s t) (step : Step) :
    T.reply (s.reply step).1 (t.reply step).1 ∧ T.rel (s.reply step).2 (t.reply step).2 := by
  have hends := perform_related step s t h
  simp only [reply]
  generalize perform step s = r₁ at hends
  generalize perform step t = r₂ at hends
  cases hends with
  | ok hr h => exact ⟨hr, h⟩
  | @error e _ _ h => cases e <;> exact ⟨T.same _, h⟩

theorem run_related {s t : Session} (h : T.rel s t) (step : Step) :
    T.rel (s.run step).2 (t.run step).2 := T.taken (reply_related h step).2

theorem runAll_related {s t : Session} (h : T.rel s t) (steps : List Step) :
    T.rel (s.runAll steps) (t.runAll steps) := by
  induction steps generalizing s t with
  | nil => exact h
  | cons step rest ih => exact ih (run_related h step)

theorem start_related (settings : Settings) {on off : Bool}
    (h : T.rel { engine := { maxDepth := settings.maxDepth, trace := on, host } }
      { engine := { maxDepth := settings.maxDepth, trace := off, host } }) :
    T.rel (start { settings with trace := on }) (start { settings with trace := off }) := by
  have hends := setUp_alike settings _ _ h
  simp only [start]
  change T.Ends Eq (setUp { settings with trace := on } _) (setUp { settings with trace := off } _)
    at hends
  generalize setUp { settings with trace := on } _ = r₁ at hends
  generalize setUp { settings with trace := off } _ = r₂ at hends
  cases hends with
  | ok _ h => exact h
  | error h => exact h

section

variable {I : Heap → Prop} (hI : HeapInvariant I)
  (hev : ∀ eng fuel, (Lockstep.ofInvariant eng hI).RelatedEvaluators (evaluate eng fuel)
    (evaluate eng fuel))

def Tandem.ofInvariant : Tandem where
  rel s t := s = t ∧ I s.state.heap
  reply := Eq
  engines := by
    rintro s _ ⟨rfl, h⟩ executor
    refine .mk (Lockstep.ofInvariant _ hI) () ?_ (hev _ _) ⟨rfl, h⟩ ?_
    · exact ⟨fun _ h => h, fun _ _ _ => trivial, trivial, inferInstance⟩
    · rintro s' _ ⟨rfl, h⟩
      exact ⟨rfl, h⟩
  maxDepth h := by rw [h.1]
  frames h := by rw [h.1]
  promises h := by rw [h.1]
  nameFrame h table := ⟨by rw [h.1], h.2⟩
  namePromise h table := ⟨by rw [h.1], h.2⟩
  taken h := ⟨by rw [h.1], h.2⟩
  same _ := rfl
  settings h := by rw [h.1]

include hev

theorem start_keeps (hempty : I {}) (settings : Settings) : I (start settings).state.heap :=
  (start_related (T := .ofInvariant hI hev) settings ⟨rfl, hempty⟩).2

theorem runAll_keeps (s : Session) (steps : List Step) (hs : I s.state.heap) :
    I (s.runAll steps).state.heap :=
  (runAll_related (T := .ofInvariant hI hev) ⟨rfl, hs⟩ steps).2

end

end Session

end Quotation
