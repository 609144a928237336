import Quotation.Proofs.CallByNeed.Labels
import Quotation.Proofs.Matching

namespace Quotation

theorem Value.Ordinary.closure {R : Region} {c : Closure Tree} (hc : (Value.closure c).Ordinary R) :
    Formal.AllOrdinary R c.formals ∧ c.body.Ordinary R ∧ R.frame c.env := by
  cases c
  exact hc

namespace Ground

variable {G : Ground} {σ : FrameId → Scope} {h h' : Heap} {frame : FrameId}

structure Opens (G : Ground) (σ₀ : FrameId → Scope) (h : Heap) (σ : FrameId → Scope)
    (frame : FrameId) (e : String → Option Entry) (h' : Heap) : Prop where
  start : G.Labelled σ₀ h
  labels : G.Labels σ (Function.update (fun f => G.own (σ f)) frame e) h'
  grows : h.Grows σ₀ σ h'
  new : G.heap.frames.size ≤ frame
  made : frame < h'.frames.size

namespace Opens

variable {σ₀ : FrameId → Scope} {e : String → Option Entry} {f : Formal Tree}
  {arg : Nat → Suspension Scope} {ρ : Nat → PromiseId}

theorem bind (ho : G.Opens σ₀ h σ frame e h') (name : String) {b : Binding}
    (hb : G.MayBind h' b) :
    G.Opens σ₀ h σ frame (Function.update e name (some (h'.entry σ b))) (h'.bind frame name b) := by
  have hg : h'.Grows σ σ (h'.bind frame name b) := by
    refine ⟨⟨?_, fun _ _ => rfl, .rebind h' frame name (some b)⟩, fun _ hp => hp⟩
    rw [Heap.size_frames_bind]
  refine ⟨ho.start, ?_, ho.grows.trans hg, ho.new, ?_⟩
  · refine ho.labels.grow hg.toKeepsLabels (fun f hf => ?_) fun p hp => .inl ⟨hp, rfl⟩
    have hold : G.HasFrame h' f := by
      rwa [HasFrame, Heap.size_frames_bind] at hf
    have henclosing := Heap.enclosing_rebind h' frame f name (some b)
    by_cases hframe : f = frame
    · subst hframe
      refine .inr ⟨henclosing.trans (ho.labels.enclosing f hold), ho.labels.outer f hold, ?_, ?_⟩
      · funext other
        have hold := congrFun (ho.labels.entries f hold) other
        rw [Function.update_self] at hold
        rw [Heap.entries, Heap.binding?_bind _ _ ho.made, Function.update_self,
          Function.update_apply]
        split
        · rfl
        · exact hold
      · intro other b' hb'
        rw [Heap.binding?_bind _ _ ho.made] at hb'
        split at hb'
        · cases hb'
          exact hb
        · exact ho.labels.binds f hold other b' hb'
    · refine .inl ⟨hold, henclosing, fun other => ?_, ?_⟩
      · have hrebind := Heap.binding?_rebind h' frame f name other (some b)
        rwa [if_neg fun hall => hframe hall.1.symm] at hrebind
      · rw [Function.update_of_ne hframe, Function.update_of_ne hframe]
  · rw [Heap.size_frames_bind]
    exact ho.made

theorem newPromise (ho : G.Opens σ₀ h σ frame e h') {t : Tree} (ht : t.Ordinary G.region) :
    G.Opens σ₀ h σ frame e (h'.newPromise { expr := t, env := frame, mask := none }).2 := by
  have hframe : G.HasFrame h' frame := .inr ⟨ho.new, ho.made⟩
  obtain ⟨hlabels, hg⟩ := ho.labels.newPromise ht hframe Mask.ordinary_none
  exact ⟨ho.start, hlabels, ho.grows.trans hg, ho.new, ho.made⟩

theorem argument (ho : G.Opens σ₀ h σ frame e h') {p : PromiseId} (hp : G.HasPromise h p) :
    G.HasPromise h' p ∧ h'.suspension σ p = h.suspension σ₀ p :=
  ⟨hp.mono ho.grows.trees.promises, ho.start.suspension_eq ho.grows.toKeepsLabels hp⟩

theorem bindFormal (ho : G.Opens σ₀ h σ frame e h') (hdots : f.isDots = false)
    (hdefault : ∀ t, f.default? = some t → t.Ordinary G.region) {slot : Option Nat}
    (hslot : ∀ i, slot = some i → G.HasPromise h (ρ i) ∧ h.suspension σ₀ (ρ i) = arg i) :
    G.Opens σ₀ h σ frame
      (Function.update e f.name (some (Scope.formalEntry (σ frame) arg f slot)))
      (bindFormals frame [f] [slot.map ρ] h') := by
  simp only [bindFormals, hdots, Bool.false_eq_true, if_false]
  cases slot with
  | some i =>
    obtain ⟨hp, harg⟩ := hslot i rfl
    obtain ⟨hp', hsame⟩ := ho.argument hp
    have hbound := ho.bind f.name (b := .promise (ρ i)) hp'
    rwa [Heap.entry, hsame, harg] at hbound
  | none =>
    rw [Scope.formalEntry]
    cases hd : f.default? with
    | none => exact ho.bind f.name (b := .missing) trivial
    | some t =>
      have hnew := ho.newPromise (hdefault t hd)
      have hp : G.HasPromise (h'.newPromise { expr := t, env := frame, mask := none }).2
          h'.promises.size :=
        ⟨ho.labels.promises, (Heap.size_promises_newPromise h' _).symm ▸ Nat.lt_succ_self _⟩
      have hbound := hnew.bind f.name (b := .promise h'.promises.size) hp
      rwa [Heap.entry, Heap.suspension, Heap.promise_newPromise, if_pos rfl] at hbound

theorem bindFormals (ho : G.Opens σ₀ h σ frame e h') {formals : List (Formal Tree)}
    (hformals : ∀ f ∈ formals, ∀ t, f.default? = some t → t.Ordinary G.region)
    {slots : List (Option Nat)}
    (hslots : ∀ i, some i ∈ slots → G.HasPromise h (ρ i) ∧ h.suspension σ₀ (ρ i) = arg i) :
    G.Opens σ₀ h σ frame (Scope.formalEntries (σ frame) arg formals slots e)
      (bindFormals frame formals (slots.map (Option.map ρ)) h') := by
  induction formals generalizing slots e h' with
  | nil => exact ho
  | cons f rest ih =>
    cases slots with
    | nil => exact ho
    | cons slot slots =>
      obtain ⟨hf, hrest⟩ := List.forall_mem_cons.1 hformals
      have hslot := fun i (hi : slot = some i) => hslots i (hi ▸ List.mem_cons_self)
      have hslots := fun i hi => hslots i (List.mem_cons_of_mem _ hi)
      cases hdots : f.isDots with
      | true =>
        simp only [List.map_cons, Quotation.bindFormals, Scope.formalEntries, hdots, if_true]
        exact ih ho hrest hslots
      | false =>
        rw [List.map_cons, bindFormals_cons]
        simp only [Scope.formalEntries, hdots, Bool.false_eq_true, if_false]
        exact ih (ho.bindFormal hdots hf hslot) hrest hslots

theorem bindDots (ho : G.Opens σ₀ h σ frame (fun _ => none) h') {dots : Option (List (Named Nat))}
    (hdots : ∀ args, dots = some args → ∀ a ∈ args,
      G.HasPromise h (ρ a.val) ∧ h.suspension σ₀ (ρ a.val) = arg a.val) :
    G.Opens σ₀ h σ frame (Scope.dotsEntry arg dots)
      (h'.bindDots frame (dots.map (List.map (Named.map ρ)))) := by
  cases dots with
  | none => exact ho
  | some args =>
    have hpromises : ∀ a ∈ args.map (Named.map ρ), G.HasPromise h' a.val := by
      intro a ha
      obtain ⟨b, hb, rfl⟩ := List.mem_map.1 ha
      exact (ho.argument (hdots args rfl b hb).1).1
    have hbound := ho.bind dotsName (b := .dots (args.map (Named.map ρ))) hpromises
    have hargs : (args.map (Named.map ρ)).map (Named.map (h'.suspension σ)) =
        args.map (Named.map arg) := by
      rw [List.map_map]
      refine List.map_congr_left fun a ha => ?_
      obtain ⟨hp, harg⟩ := hdots args rfl a ha
      simp only [Function.comp_apply, Named.map, (ho.argument hp).2, harg]
    rwa [Heap.entry, hargs] at hbound

end Opens

theorem Labels.opens (hl : G.Labelled σ h) {c : Closure Tree} (hc : G.region.frame c.env)
    (args : List (Named (Suspension Scope))) :
    G.Opens σ h (Function.update σ h.frames.size (.call c args)) h.frames.size (fun _ => none)
      (h.newFrame (some c.env) true).2 := by
  have hne : ∀ f < h.frames.size, f ≠ h.frames.size := fun f hf => Nat.ne_of_lt hf
  have hg : h.Grows σ (Function.update σ h.frames.size (.call c args))
      (h.newFrame (some c.env) true).2 :=
    ⟨⟨by simp, fun f hf => Function.update_of_ne (hne f hf) _ _, .newFrame ..⟩, fun _ hp => hp⟩
  refine ⟨hl, hl.grow hg.toKeepsLabels (fun f hf => ?_) (fun p hp => .inl ⟨hp, rfl⟩), hg, hl.frames,
    by simp⟩
  by_cases hf' : f = h.frames.size
  · subst hf'
    have hchain : G.outer (.call c args) = h.chain c.env := by
      rw [Heap.chain, hl.enclosing _ (.inl hc), hl.base _ hc]
      rfl
    rw [Function.update_self, Function.update_self]
    refine .inr ⟨?_, ?_, ?_, ?_⟩
    · rw [Heap.frame_newFrame, if_pos rfl, hchain]
      rfl
    · intro g hg
      cases hg with
      | head => exact hc
      | tail _ hg => exact G.closed.enclosing _ hc g hg
    · funext name
      rw [Heap.entries, Heap.binding?_newFrame_self]
      rfl
    · intro name b hb
      rw [Heap.binding?_newFrame_self] at hb
      cases hb
  · have hold : G.HasFrame h f := by
      refine hf.imp_right fun hf => ⟨hf.1, Nat.lt_of_le_of_ne (Nat.le_of_lt_succ ?_) hf'⟩
      simpa using hf.2
    refine .inl ⟨hold, ?_, fun name => Heap.binding?_newFrame h f name _ _, ?_⟩
    · rw [Heap.frame_newFrame, if_neg hf']
    · rw [Function.update_of_ne hf', Function.update_of_ne hf']

def promiseAt (supplied : List (Named PromiseId)) (i : Nat) : PromiseId :=
  (supplied[i]?.map Named.val).getD 0

theorem positions_map {α β : Type} (g : α → β) (args : List (Named α)) :
    Scope.positions (args.map (Named.map g)) = Scope.positions args := by
  refine List.ext_getElem? fun i => ?_
  simp only [Scope.positions, List.getElem?_mapIdx, List.getElem?_map, Option.map_map]
  rfl

theorem lt_of_mem_positions {α : Type} {args : List (Named α)} :
    ∀ a ∈ Scope.positions args, a.val < args.length := by
  intro a ha
  obtain ⟨i, hi, rfl⟩ := List.mem_mapIdx.1 ha
  exact hi

theorem map_positions (supplied : List (Named PromiseId)) :
    (Scope.positions supplied).map (Named.map (promiseAt supplied)) = supplied := by
  refine List.ext_getElem? fun i => ?_
  rw [List.getElem?_map, Scope.positions, List.getElem?_mapIdx]
  cases ha : supplied[i]? with
  | none => rfl
  | some a => simp [Named.map, promiseAt, ha]

theorem matchArguments_positions (formals : List (Formal Tree))
    (supplied : List (Named PromiseId)) :
    matchArguments formals supplied =
      (matchArguments formals (Scope.positions supplied)).map
        (Matching.map (promiseAt supplied)) := by
  rw [← matchArguments_map, map_positions]

theorem Labels.openCall (hl : G.Labelled σ h) {c : Closure Tree}
    (hc : (Value.closure c).Ordinary G.region) {supplied : List (Named PromiseId)}
    (hsupplied : ∀ a ∈ supplied, G.HasPromise h a.val) {args : List (Named (Suspension Scope))}
    (hargs : supplied.map (Named.map (h.suspension σ)) = args) {m : Matching}
    (hm : matchArguments c.formals supplied = .ok m) {σ' : FrameId → Scope}
    (hσ' : Function.update σ h.frames.size (.call c args) = σ') :
    let h' := bindMatching h.frames.size c.formals m (h.newFrame (some c.env) true).2
    G.Labelled σ' h' ∧ h.Grows σ σ' h' ∧ G.HasFrame h' h.frames.size := by
  intro h'
  obtain ⟨hformals, -, henv⟩ := Value.Ordinary.closure hc
  have hplaces : ∀ i < supplied.length, G.HasPromise h (promiseAt supplied i) ∧
      h.suspension σ (promiseAt supplied i) = Scope.argumentAt args i := by
    intro i hi
    have hat : supplied[i]? = some supplied[i] := List.getElem?_eq_getElem hi
    rw [← hargs, Scope.argumentAt, List.getElem?_map, promiseAt, hat]
    exact ⟨hsupplied _ (List.getElem_mem hi), rfl⟩
  rw [matchArguments_positions] at hm
  cases hm₀ : matchArguments c.formals (Scope.positions supplied) with
  | error e =>
    rw [hm₀] at hm
    cases hm
  | ok m₀ =>
    rw [hm₀] at hm
    cases hm
    obtain ⟨hslots, hdots⟩ := matchArguments_forall (P := (· < supplied.length)) c.formals
      lt_of_mem_positions m₀ hm₀
    have hopens := (hl.opens henv args).bindDots fun l hl a ha => hplaces _ (hdots l hl a ha)
    have hopens := hopens.bindFormals (Formal.allOrdinary_iff.1 hformals)
      fun i hi => hplaces i (hslots i hi)
    have hentries : Scope.formalEntries (.call c args) (Scope.argumentAt args) c.formals m₀.slots
        (Scope.dotsEntry (Scope.argumentAt args) m₀.dots) = G.own (σ' h.frames.size) := by
      rw [← hσ', Function.update_self, own, Scope.callEntries, ← hargs, positions_map, hm₀]
    rw [Function.update_self, hentries, hσ'] at hopens
    have hlabels := hopens.labels
    rw [Function.update_eq_self] at hlabels
    have hh' : h' = _ := bindMatching_eq ..
    rw [hh']
    exact ⟨hlabels, hopens.grows, .inr ⟨hopens.new, hopens.made⟩⟩

structure Reaches (G : Ground) (σ : FrameId → Scope) (s : State) (σ' : FrameId → Scope)
    (s' : State) : Prop where
  labels : G.Labelled σ' s'.heap
  grows : s.heap.Grows σ σ' s'.heap
  depth : s'.depth = s.depth

namespace Reaches

variable {σ' σ'' : FrameId → Scope} {s s' s'' : State}

theorem refl (hl : G.Labelled σ s.heap) : G.Reaches σ s σ s := ⟨hl, .refl _ _, rfl⟩

theorem trans (h : G.Reaches σ s σ' s') (h' : G.Reaches σ' s' σ'' s'') : G.Reaches σ s σ'' s'' :=
  ⟨h'.labels, h.grows.trans h'.grows, h'.depth.trans h.depth⟩

theorem traced (h : G.Reaches σ s σ' s') (on : Bool) (m : String) :
    G.Reaches σ s σ' (s'.traced on m) := by
  cases on <;> exact ⟨h.labels, h.grows, h.depth⟩

theorem hasFrame {f : FrameId} (h : G.Reaches σ s σ' s') (hf : G.HasFrame s.heap f) :
    G.HasFrame s'.heap f :=
  hf.mono h.grows.frames

theorem label {f : FrameId} (h : G.Reaches σ s σ' s') (hl : G.Labelled σ s.heap)
    (hf : G.HasFrame s.heap f) : σ' f = σ f :=
  h.grows.label f (hf.lt hl.frames)

end Reaches

structure Supplies (G : Ground) (σ : FrameId → Scope) (h : Heap)
    (supplied : List (Named PromiseId)) (args : List (Named (Suspension Scope))) : Prop where
  promises : ∀ a ∈ supplied, G.HasPromise h a.val
  suspensions : supplied.map (Named.map (h.suspension σ)) = args

namespace Supplies

variable {supplied supplied' : List (Named PromiseId)} {args args' : List (Named (Suspension Scope))}

theorem append (h₁ : G.Supplies σ h supplied args) (h₂ : G.Supplies σ h supplied' args') :
    G.Supplies σ h (supplied ++ supplied') (args ++ args') :=
  ⟨List.forall_mem_append.2 ⟨h₁.promises, h₂.promises⟩,
    by rw [List.map_append, h₁.suspensions, h₂.suspensions]⟩

theorem later (hs : G.Supplies σ h supplied args) (hl : G.Labelled σ h) {σ' : FrameId → Scope}
    (hg : h.KeepsLabels σ σ' h') : G.Supplies σ' h' supplied args := by
  refine ⟨fun a ha => (hs.promises a ha).mono hg.trees.promises, ?_⟩
  rw [← hs.suspensions]
  refine List.map_congr_left fun a ha => ?_
  rw [Named.map, Named.map, hl.suspension_eq hg (hs.promises a ha)]

end Supplies

section

variable {s : State} {env : FrameId} {mask : Option Mask}

theorem visibleDots_labelled (hl : G.Labelled σ s.heap) (henv : G.HasFrame s.heap env) :
    match G.dots? (σ env) with
    | some args => ∃ supplied, visibleDots env s = .ok supplied s ∧
      G.Supplies σ s.heap supplied args
    | none => ∃ e, visibleDots env s = .error e s := by
  rw [← hl.dots?_eq henv, visibleDots, Eval.heap_bind_apply]
  cases hdots : s.heap.dots? env with
  | none => exact ⟨_, rfl⟩
  | some supplied => exact ⟨supplied, rfl, hl.hasPromise_of_dots? henv hdots, rfl⟩

theorem promiseSlot_labelled (hl : G.Labelled σ s.heap) (henv : G.HasFrame s.heap env)
    (hmask : Mask.Ordinary G.region mask) {slot : Slot} (hslot : slot.val.Ordinary G.region) :
    match G.suspended? (σ env) mask slot with
    | some args => ∃ supplied s', promiseSlot env mask slot s = .ok supplied s' ∧
      G.Reaches σ s σ s' ∧ G.Supplies σ s'.heap supplied args
    | none => ∃ e s', promiseSlot env mask slot s = .error e s' := by
  rw [promiseSlot, suspended?]
  cases hdots : slot.val.isDots with
  | true =>
    have hvisible := visibleDots_labelled hl henv
    simp only [if_true]
    cases hargs : G.dots? (σ env) with
    | none =>
      rw [hargs] at hvisible
      obtain ⟨e, hvisible⟩ := hvisible
      exact ⟨e, s, hvisible⟩
    | some args =>
      rw [hargs] at hvisible
      obtain ⟨supplied, hvisible, hsupplies⟩ := hvisible
      exact ⟨supplied, s, hvisible, .refl hl, hsupplies⟩
  | false =>
    obtain ⟨hlabels, hgrows⟩ := hl.newPromise hslot henv hmask
    simp only [Bool.false_eq_true, if_false]
    refine ⟨[⟨slot.name, s.heap.promises.size⟩], s.mapHeap fun h =>
      (h.newPromise { expr := slot.val, env, mask }).2, rfl, ⟨hlabels, hgrows, rfl⟩, ?_, ?_⟩
    · refine List.forall_mem_singleton.2 ⟨hl.promises, ?_⟩
      exact (Heap.size_promises_newPromise s.heap _).symm ▸ Nat.lt_succ_self _
    · simp only [List.map_cons, List.map_nil, Named.map, Heap.suspension, State.mapHeap,
        Heap.promise_newPromise, if_true]

theorem promiseSlots_labelled (hl : G.Labelled σ s.heap) (henv : G.HasFrame s.heap env)
    (hmask : Mask.Ordinary G.region mask) {slots : List Slot}
    (hslots : ∀ slot ∈ slots, slot.val.Ordinary G.region) :
    match G.allSuspended? (σ env) mask slots with
    | some args => ∃ supplied s', promiseSlots env mask slots s = .ok supplied s' ∧
      G.Reaches σ s σ s' ∧ G.Supplies σ s'.heap supplied args
    | none => ∃ e s', promiseSlots env mask slots s = .error e s' := by
  induction slots generalizing s with
  | nil => exact ⟨[], s, rfl, .refl hl, nofun, rfl⟩
  | cons slot rest ih =>
    obtain ⟨hslot, hrest⟩ := List.forall_mem_cons.1 hslots
    have hhere := promiseSlot_labelled hl henv hmask hslot
    rw [allSuspended?, promiseSlots, Eval.bind_apply]
    cases hslot? : G.suspended? (σ env) mask slot with
    | none =>
      rw [hslot?] at hhere
      obtain ⟨e, s', hhere⟩ := hhere
      exact ⟨e, s', by rw [hhere]; rfl⟩
    | some args =>
      rw [hslot?] at hhere
      obtain ⟨supplied, s₁, hhere, hreaches, hsupplies⟩ := hhere
      have hthere := ih hreaches.labels (hreaches.hasFrame henv) hrest
      rw [hhere, Outcome.follow_ok_eval, Option.bind_some, Eval.bind_apply]
      cases hrest? : G.allSuspended? (σ env) mask rest with
      | none =>
        rw [hrest?] at hthere
        obtain ⟨e, s', hthere⟩ := hthere
        exact ⟨e, s', by rw [hthere]; rfl⟩
      | some args' =>
        rw [hrest?] at hthere
        obtain ⟨supplied', s₂, hthere, hreaches', hsupplies'⟩ := hthere
        refine ⟨supplied ++ supplied', s₂, by rw [hthere]; rfl, hreaches.trans hreaches', ?_⟩
        exact (hsupplies.later hreaches.labels hreaches'.grows.toKeepsLabels).append hsupplies'

theorem openFrame_labelled (hl : G.Labelled σ s.heap) {c : Closure Tree}
    (hc : (Value.closure c).Ordinary G.region) {supplied : List (Named PromiseId)}
    {args : List (Named (Suspension Scope))} (hsupplies : G.Supplies σ s.heap supplied args) :
    match matchArguments c.formals (Scope.positions args) with
    | .ok _ => ∃ frame s' σ', openFrame c supplied s = .ok frame s' ∧ G.Reaches σ s σ' s' ∧
      G.HasFrame s'.heap frame ∧ σ' frame = .call c args
    | .error _ => ∃ e s', openFrame c supplied s = .error e s' := by
  have hmatch := matchArguments_positions c.formals supplied
  rw [← positions_map (s.heap.suspension σ), hsupplies.suspensions] at hmatch
  rw [openFrame_apply, hmatch]
  cases hm : matchArguments c.formals (Scope.positions args) with
  | error e => exact ⟨_, _, rfl⟩
  | ok m =>
    rw [hm] at hmatch
    obtain ⟨hlabels, hgrows, hframe⟩ :=
      hl.openCall hc hsupplies.promises hsupplies.suspensions hmatch rfl
    exact ⟨_, _, _, rfl, ⟨hlabels, hgrows, rfl⟩, hframe, Function.update_self ..⟩

end

end Ground

end Quotation
