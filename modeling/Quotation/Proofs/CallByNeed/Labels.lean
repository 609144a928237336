import Quotation.Proofs.CallByNeed.Scope
import Quotation.Proofs.Exposure.Closure
import Quotation.Proofs.Matching.Mapping
import Quotation.Proofs.Promises
import Quotation.Proofs.Termination.Frames

namespace Quotation

structure Heap.KeepsLabels (h : Heap) (σ σ' : FrameId → Scope) (h' : Heap) : Prop where
  frames : h.frames.size ≤ h'.frames.size
  label : ∀ f < h.frames.size, σ' f = σ f
  trees : h.KeepsTrees h'

structure Heap.Grows (h : Heap) (σ σ' : FrameId → Scope) (h' : Heap) : Prop
    extends h.KeepsLabels σ σ' h' where
  marks : ∀ p, (h'.promise p).forcing = true → (h.promise p).forcing = true

namespace Heap

variable {h h' h'' : Heap} {σ σ' σ'' : FrameId → Scope}

theorem KeepsLabels.trans (hg : h.KeepsLabels σ σ' h') (hg' : h'.KeepsLabels σ' σ'' h'') :
    h.KeepsLabels σ σ'' h'' where
  frames := Nat.le_trans hg.frames hg'.frames
  label f hf := (hg'.label f (Nat.lt_of_lt_of_le hf hg.frames)).trans (hg.label f hf)
  trees := hg.trees.trans hg'.trees

theorem Grows.refl (h : Heap) (σ : FrameId → Scope) : h.Grows σ σ h :=
  ⟨⟨Nat.le_refl _, fun _ _ => rfl, .refl h⟩, fun _ hp => hp⟩

theorem Grows.trans (hg : h.Grows σ σ' h') (hg' : h'.Grows σ' σ'' h'') : h.Grows σ σ'' h'' :=
  ⟨hg.toKeepsLabels.trans hg'.toKeepsLabels, fun p hp => hg.marks p (hg'.marks p hp)⟩

end Heap

theorem Value.Ordinary.isSpecial {R : Region} {v : Value} (hv : v.Ordinary R) :
    v.isSpecial = false := by
  cases v with
  | special s => exact hv.elim
  | _ => rfl

mutual

theorem Tree.Ordinary.exposed {R : Region} {special : Tree → Bool}
    (hspecial : ∀ t : Tree, t.Ordinary R → special t = false) :
    ∀ t : Tree, t.Ordinary R → t.hasMarkers = true → t.Exposed special
  | .literal _, _, h => nomatch h
  | .reference _, _, h => nomatch h
  | .call head args, ⟨hhead, hargs⟩, h => by
    rw [Tree.Exposed.call_iff]
    refine ⟨hspecial head hhead, (Bool.or_eq_true_iff.1 h).imp ?_ ?_⟩
    · exact Tree.Ordinary.exposed hspecial head hhead
    · exact Slot.exposed_of_anyMarkers hspecial args hargs
  | .pairlist args, hargs, h =>
    Tree.Exposed.pairlist_iff.2 (Slot.exposed_of_anyMarkers hspecial args hargs h)
  | .unquote e, _, _ => .unquote e
  | .splice e, _, _ => .splice e
  | .define n v, _, _ => .define n v

theorem Slot.exposed_of_anyMarkers {R : Region} {special : Tree → Bool}
    (hspecial : ∀ t : Tree, t.Ordinary R → special t = false) :
    ∀ l : List Slot, Slot.AllOrdinary R l → Slot.anyMarkers l = true →
      ∃ slot ∈ l, slot.val.Exposed special
  | [], _, h => nomatch h
  | ⟨name, t⟩ :: rest, ⟨ht, hrest⟩, h => by
    rcases Bool.or_eq_true_iff.1 h with h | h
    · exact ⟨_, List.mem_cons_self, Tree.Ordinary.exposed hspecial t ht h⟩
    · obtain ⟨slot, hslot, h⟩ := Slot.exposed_of_anyMarkers hspecial rest hrest h
      exact ⟨slot, List.mem_cons_of_mem _ hslot, h⟩

end

namespace Ground

variable (G : Ground)

def own : Scope → String → Option Entry
  | .frame f => G.heap.entries .frame f
  | .call c args => Scope.callEntries c args

def outer : Scope → List FrameId
  | .frame f => (G.heap.frame f).enclosing
  | .call c _ => G.heap.chain c.env

theorem sight_eq (σ : Scope) : G.sight σ = G.own σ :: (G.outer σ).map (G.heap.entries .frame) := by
  cases σ <;> rfl

def Means (u : Suspension Scope) (v : Value) : Prop := ∃ k r, (G.meaning k r).argument u = some v

theorem means_unique {u : Suspension Scope} {v w : Value} (hv : G.Means u v) (hw : G.Means u w) :
    v = w := by
  obtain ⟨k, r, hv⟩ := hv
  obtain ⟨k', r', hw⟩ := hw
  have hv' := G.meaning_refines (Nat.le_max_left k k') (Nat.le_max_left r r') _ _ _ v hv
  have hw' := G.meaning_refines (Nat.le_max_right k k') (Nat.le_max_right r r') _ _ _ w hw
  exact Option.some.inj (hv'.symm.trans hw')

def HasFrame (h : Heap) (f : FrameId) : Prop :=
  G.region.frame f ∨ G.heap.frames.size ≤ f ∧ f < h.frames.size

def HasPromise (h : Heap) (p : PromiseId) : Prop :=
  G.heap.promises.size ≤ p ∧ p < h.promises.size

def MayBind (h : Heap) : Binding → Prop
  | .value v => v.Ordinary G.region
  | .promise p => G.HasPromise h p
  | .dots args => ∀ a ∈ args, G.HasPromise h a.val
  | .missing => True

structure Suspends (σ : FrameId → Scope) (h : Heap) (p : Promise) : Prop where
  expr : p.expr.Ordinary G.region
  env : G.HasFrame h p.env
  mask : Mask.Ordinary G.region p.mask
  captured : p.captured = false
  value : ∀ v, p.value? = some v →
    v.Ordinary G.region ∧ G.Means ⟨p.expr, σ p.env, p.mask⟩ v

/-- A heap whose frames stand for scopes and bind the given entries. -/
structure Labels (σ : FrameId → Scope) (bound : FrameId → String → Option Entry) (h : Heap) :
    Prop where
  frames : G.heap.frames.size ≤ h.frames.size
  promises : G.heap.promises.size ≤ h.promises.size
  base : ∀ f, G.region.frame f → σ f = .frame f
  enclosing : ∀ f, G.HasFrame h f → (h.frame f).enclosing = G.outer (σ f)
  outer : ∀ f, G.HasFrame h f → ∀ g ∈ G.outer (σ f), G.region.frame g
  entries : ∀ f, G.HasFrame h f → h.entries σ f = bound f
  binds : ∀ f, G.HasFrame h f → ∀ name b, h.binding? f name = some b → G.MayBind h b
  promise : ∀ p, G.HasPromise h p → G.Suspends σ h (h.promise p)

abbrev Labelled (σ : FrameId → Scope) (h : Heap) : Prop := G.Labels σ (fun f => G.own (σ f)) h

variable {G} {σ σ' σ'' : FrameId → Scope} {bound : FrameId → String → Option Entry}
  {h h' h'' : Heap} {f : FrameId} {p : PromiseId}

theorem HasFrame.lt (hf : G.HasFrame h f) (hframes : G.heap.frames.size ≤ h.frames.size) :
    f < h.frames.size := by
  obtain hf | hf := hf
  · exact Nat.lt_of_lt_of_le (G.closed.frame f hf) hframes
  · exact hf.2

theorem HasFrame.mono (hf : G.HasFrame h f) (hframes : h.frames.size ≤ h'.frames.size) :
    G.HasFrame h' f :=
  hf.imp_right fun hf => ⟨hf.1, Nat.lt_of_lt_of_le hf.2 hframes⟩

theorem HasPromise.mono (hp : G.HasPromise h p) (hpromises : h.promises.size ≤ h'.promises.size) :
    G.HasPromise h' p :=
  ⟨hp.1, Nat.lt_of_lt_of_le hp.2 hpromises⟩

theorem MayBind.mono {b : Binding} (hb : G.MayBind h b)
    (hpromises : h.promises.size ≤ h'.promises.size) : G.MayBind h' b := by
  cases b with
  | value v => exact hb
  | promise p => exact HasPromise.mono hb hpromises
  | dots args => exact fun a ha => (hb a ha).mono hpromises
  | missing => trivial

theorem Suspends.mono {pr : Promise} (hp : G.Suspends σ h pr)
    (hframes : h.frames.size ≤ h'.frames.size) (hlabel : σ' pr.env = σ pr.env) :
    G.Suspends σ' h' pr :=
  ⟨hp.expr, hp.env.mono hframes, hp.mask, hp.captured, hlabel ▸ hp.value⟩

theorem labelled_start : G.Labelled .frame G.heap where
  frames := Nat.le_refl _
  promises := Nat.le_refl _
  base _ _ := rfl
  enclosing _ _ := rfl
  outer f hf := hf.elim (G.closed.enclosing f) fun hf => absurd hf.2 (Nat.not_lt.2 hf.1)
  entries _ _ := rfl
  binds f hf name b hb := by
    have hf := hf.resolve_right fun hf => absurd hf.2 (Nat.not_lt.2 hf.1)
    have hb := G.closed.bindings f hf name b hb
    cases b with
    | value v => exact hb
    | promise p => exact absurd hb (G.promise p)
    | dots args => exact fun a ha => absurd (hb a ha) (G.promise a.val)
    | missing => trivial
  promise p hp := absurd hp.2 (Nat.not_lt.2 hp.1)

namespace Labels

variable (hl : G.Labels σ bound h)

include hl

theorem suspension_eq (hg : h.KeepsLabels σ σ' h') (hp : G.HasPromise h p) :
    h'.suspension σ' p = h.suspension σ p := by
  have htree := hg.trees.promise p hp.2
  have henv := (hl.promise p hp).env.lt hl.frames
  rw [Heap.suspension, Heap.suspension, htree.expr, htree.env, htree.mask, hg.label _ henv]

theorem entry_eq (hg : h.KeepsLabels σ σ' h') {b : Binding} (hb : G.MayBind h b) :
    h'.entry σ' b = h.entry σ b := by
  cases b with
  | value v => rfl
  | promise p => exact congrArg Entry.argument (hl.suspension_eq hg hb)
  | dots args =>
    refine congrArg Entry.dots (List.map_congr_left fun a ha => ?_)
    rw [Named.map, Named.map, hl.suspension_eq hg (hb a ha)]
  | missing => rfl

theorem grow {bound' : FrameId → String → Option Entry} (hg : h.KeepsLabels σ σ' h')
    (hframe : ∀ f, G.HasFrame h' f →
      (G.HasFrame h f ∧ (h'.frame f).enclosing = (h.frame f).enclosing ∧
        (∀ name, h'.binding? f name = h.binding? f name) ∧ bound' f = bound f) ∨
      ((h'.frame f).enclosing = G.outer (σ' f) ∧ (∀ g ∈ G.outer (σ' f), G.region.frame g) ∧
        h'.entries σ' f = bound' f ∧
        ∀ name b, h'.binding? f name = some b → G.MayBind h' b))
    (hpromise : ∀ p, G.HasPromise h' p →
      (G.HasPromise h p ∧ h'.promise p = h.promise p) ∨ G.Suspends σ' h' (h'.promise p)) :
    G.Labels σ' bound' h' where
  frames := Nat.le_trans hl.frames hg.frames
  promises := Nat.le_trans hl.promises hg.trees.promises
  base f hf := (hg.label f (HasFrame.lt (.inl hf) hl.frames)).trans (hl.base f hf)
  enclosing f hf := by
    obtain ⟨hf, henclosing, -⟩ | ⟨henclosing, -⟩ := hframe f hf
    · rw [henclosing, hg.label f (hf.lt hl.frames), hl.enclosing f hf]
    · exact henclosing
  outer f hf := by
    obtain ⟨hf, -⟩ | ⟨-, houter, -⟩ := hframe f hf
    · rw [hg.label f (hf.lt hl.frames)]
      exact hl.outer f hf
    · exact houter
  entries f hf := by
    obtain ⟨hf, -, hbinding, hbound⟩ | ⟨-, -, hentries, -⟩ := hframe f hf
    · rw [hbound, ← hl.entries f hf]
      funext name
      rw [Heap.entries, Heap.entries, hbinding]
      cases hb : h.binding? f name with
      | none => rfl
      | some b => exact congrArg some (hl.entry_eq hg (hl.binds f hf name b hb))
    · exact hentries
  binds f hf name b hb := by
    obtain ⟨hf, -, hbinding, -⟩ | ⟨-, -, -, hbinds⟩ := hframe f hf
    · exact (hl.binds f hf name b ((hbinding name).symm.trans hb)).mono hg.trees.promises
    · exact hbinds name b hb
  promise p hp := by
    obtain ⟨hp, hsame⟩ | hsuspends := hpromise p hp
    · have hold := hl.promise p hp
      rw [hsame]
      exact hold.mono hg.frames (hg.label _ (hold.env.lt hl.frames))
    · exact hsuspends

theorem newPromise {t : Tree} {env : FrameId} {mask : Option Mask} (ht : t.Ordinary G.region)
    (henv : G.HasFrame h env) (hmask : Mask.Ordinary G.region mask) :
    G.Labels σ bound (h.newPromise { expr := t, env, mask }).2 ∧
      h.Grows σ σ (h.newPromise { expr := t, env, mask }).2 := by
  have hg : h.Grows σ σ (h.newPromise { expr := t, env, mask }).2 := by
    refine ⟨⟨Nat.le_refl _, fun _ _ => rfl, .newPromise h _⟩, fun p hp => ?_⟩
    rw [Heap.promise_newPromise] at hp
    split at hp
    · cases hp
    · exact hp
  refine ⟨hl.grow hg.toKeepsLabels (fun f hf => .inl ⟨hf, rfl, fun _ => rfl, rfl⟩) fun p hp => ?_, hg⟩
  rw [Heap.promise_newPromise]
  split
  · exact .inr ⟨ht, henv, hmask, rfl, nofun⟩
  · rename_i hne
    have hlt : p < h.promises.size + 1 := (Heap.size_promises_newPromise h _) ▸ hp.2
    exact .inl ⟨⟨hp.1, Nat.lt_of_le_of_ne (Nat.le_of_lt_succ hlt) hne⟩, rfl⟩

theorem modifyPromise {k : Promise → Promise} (p : PromiseId)
    (htree : (h.promise p).KeepsTree (k (h.promise p)))
    (hk : G.HasPromise h p → G.Suspends σ h (k (h.promise p))) :
    G.Labels σ bound (h.modifyPromise p k) ∧ h.KeepsLabels σ σ (h.modifyPromise p k) := by
  have hg : h.KeepsLabels σ σ (h.modifyPromise p k) :=
    ⟨Nat.le_refl _, fun _ _ => rfl, .modifyPromise htree⟩
  refine ⟨hl.grow hg (fun f hf => .inl ⟨hf, rfl, fun _ => rfl, rfl⟩) fun q hq => ?_, hg⟩
  have hq : G.HasPromise h q := ⟨hq.1, (Heap.size_promises_modifyPromise h p k) ▸ hq.2⟩
  rw [Heap.promise_modifyPromise]
  split
  · rename_i hpq
    obtain ⟨rfl, -⟩ := hpq
    exact .inr ((hk hq).mono (Nat.le_refl _) rfl)
  · exact .inl ⟨hq, rfl⟩

theorem beginForce (p : PromiseId) :
    G.Labels σ bound (h.beginForce p) ∧ h.KeepsLabels σ σ (h.beginForce p) :=
  hl.modifyPromise p ⟨rfl, rfl, rfl, fun hc => hc⟩ fun hp =>
    have hold := hl.promise p hp
    ⟨hold.expr, hold.env, hold.mask, hold.captured, hold.value⟩

theorem finishForce {v : Value} (hv : v.Ordinary G.region) (hmeans : G.Means (h.suspension σ p) v) :
    G.Labels σ bound (h.finishForce p v) ∧ h.KeepsLabels σ σ (h.finishForce p v) := by
  refine hl.modifyPromise p ⟨rfl, rfl, rfl, fun hc => hc⟩ fun hp => ?_
  have hold := hl.promise p hp
  refine ⟨hold.expr, hold.env, hold.mask, hold.captured, ?_⟩
  rintro _ ⟨⟩
  exact ⟨hv, hmeans⟩

theorem hasFrame_of_mem_chain (hf : G.HasFrame h f) : ∀ g ∈ h.chain f, G.HasFrame h g := by
  intro g hg
  rw [Heap.chain, hl.enclosing f hf] at hg
  cases hg with
  | head => exact hf
  | tail _ hg => exact .inl (hl.outer f hf g hg)

theorem mayBind_of_lookup (hf : G.HasFrame h f) {name : String} {b : Binding}
    (hb : h.lookup f name = some b) : G.MayBind h b := by
  obtain ⟨g, hg, hb⟩ := Heap.mem_chain_of_lookup h f name hb
  exact hl.binds g (hl.hasFrame_of_mem_chain hf g hg) name b hb

theorem hasPromise_of_dots? (hf : G.HasFrame h f) {args : List (Named PromiseId)}
    (hargs : h.dots? f = some args) : ∀ a ∈ args, G.HasPromise h a.val := by
  unfold Heap.dots? at hargs
  split at hargs
  · rename_i args' hb
    cases hargs
    exact hl.mayBind_of_lookup hf hb
  · cases hargs

omit hl in
theorem entries_chain (hl : G.Labelled σ h) (hf : G.HasFrame h f) :
    (h.chain f).map (h.entries σ) = G.sight (σ f) := by
  rw [Heap.chain, List.map_cons, hl.entries f hf, hl.enclosing f hf, sight_eq]
  refine congrArg _ (List.map_congr_left fun g hg => ?_)
  have hg := hl.outer f hf g hg
  rw [hl.entries g (.inl hg), hl.base g hg]
  rfl

omit hl in
theorem lookup_eq (hl : G.Labelled σ h) (hf : G.HasFrame h f) (name : String) :
    (h.lookup f name).map (h.entry σ) = G.lookup (σ f) name := by
  rw [lookup, ← hl.entries_chain hf, List.findSome?_map, Heap.lookup, List.map_findSome?]
  rfl

omit hl in
theorem dots?_eq (hl : G.Labelled σ h) (hf : G.HasFrame h f) :
    (h.dots? f).map (List.map (Named.map (h.suspension σ))) = G.dots? (σ f) := by
  rw [dots?, ← hl.lookup_eq hf, Heap.dots?]
  rcases h.lookup f dotsName with _ | _ | _ | _ | _ <;> rfl

theorem namesSpecial_eq_false {chain : List FrameId} (hchain : ∀ g ∈ chain, G.HasFrame h g)
    (name : String) : h.namesSpecial name chain = false := by
  induction chain with
  | nil => rfl
  | cons g rest ih =>
    obtain ⟨hg, hrest⟩ := List.forall_mem_cons.1 hchain
    rw [Heap.namesSpecial]
    cases hb : h.binding? g name with
    | none => exact ih hrest
    | some b =>
      have hb := hl.binds g hg name b hb
      cases b with
      | value v =>
        dsimp only
        rw [Value.Ordinary.isSpecial hb, ih hrest, ite_self]
      | promise p =>
        dsimp only
        cases hv : (h.promise p).value? with
        | none => rfl
        | some v =>
          dsimp only
          rw [Value.Ordinary.isSpecial ((hl.promise p hb).value v hv).1, ih hrest, ite_self]
      | dots | missing => exact ih hrest

theorem isSpecialHead_eq_false (hf : G.HasFrame h f) {mask : Option Mask}
    (hmask : Mask.Ordinary G.region mask) {t : Tree} (ht : t.Ordinary G.region) :
    h.isSpecialHead f mask t = false := by
  cases t with
  | literal v => exact Value.Ordinary.isSpecial ht
  | reference name =>
    simp only [Heap.isSpecialHead]
    cases hfind : (Mask.find? mask name).filter Value.isCallable with
    | some v => exact (hmask name v (Option.filter_eq_some_iff.1 hfind).1).isSpecial
    | none => exact hl.namesSpecial_eq_false (hl.hasFrame_of_mem_chain hf) name
  | _ => rfl

theorem exposed_iff (hf : G.HasFrame h f) {mask : Option Mask}
    (hmask : Mask.Ordinary G.region mask) {t : Tree} (ht : t.Ordinary G.region) :
    t.Exposed (h.isSpecialHead f mask) ↔ t.hasMarkers = true :=
  ⟨Tree.Exposed.hasMarkers, Tree.Ordinary.exposed
    (fun _ hhead => hl.isSpecialHead_eq_false hf hmask hhead) t ht⟩

theorem exposed?_eq_none_iff (hf : G.HasFrame h f) {mask : Option Mask}
    (hmask : Mask.Ordinary G.region mask) {t : Tree} (ht : t.Ordinary G.region) :
    h.exposed? f mask t = none ↔ t.hasMarkers = false := by
  rw [Quotation.exposed?_eq_none_iff, hl.exposed_iff hf hmask ht, Bool.not_eq_true]

end Labels

theorem Labels.uncapturedMarker?_eq_none_iff (hl : G.Labels σ bound h) {σ' : FrameId → Scope}
    {bound' : FrameId → String → Option Entry} {h' : Heap} (hl' : G.Labels σ' bound' h')
    (hg : h.KeepsLabels σ σ' h') {supplied : List (Named PromiseId)}
    (hsupplied : ∀ a ∈ supplied, G.HasPromise h a.val) :
    uncapturedMarker? h' (markedArguments h supplied) = none ↔
      ((supplied.map (Named.map (h.suspension σ))).any fun a => a.val.expr.hasMarkers) = false := by
  rw [uncapturedMarker?_markedArguments hg.trees, List.any_map, List.any_eq_false]
  refine forall₂_congr fun a ha => ?_
  have hp := hl.promise a.val (hsupplied a ha)
  have hp' := hl'.promise a.val ((hsupplied a ha).mono hg.trees.promises)
  have hexposed : (h.promise a.val).Exposed h' ↔ (h.promise a.val).expr.hasMarkers = true :=
    hl'.exposed_iff (hp.env.mono hg.frames) hp.mask hp.expr
  rw [hexposed, hp'.captured]
  simp [Heap.suspension]

end Ground

end Quotation
