import Quotation.Engine.Build
import Quotation.Proofs.Termination.Frames
import Quotation.Proofs.Termination.Scoped

namespace Quotation

namespace Heap

variable (h : Heap)

def HasValue (v : Value) : Prop := v.reach ≤ h.frames.size

def HasTree (t : Tree) : Prop := t.reach ≤ h.frames.size

def HasItems (items : List Item) : Prop := Item.reach items ≤ h.frames.size

def HasSlots (slots : List Slot) : Prop := Slot.reach slots ≤ h.frames.size

def HasCapture (c : Capture Tree) : Prop := c.reach ≤ h.frames.size

def HasPromises (args : List (Named PromiseId)) : Prop := ∀ a ∈ args, a.val < h.promises.size

end Heap

section

variable {eng : Engine} {s : State}

theorem force_settles (hs : s.heap.Closed) {p : PromiseId} (hp : p < s.heap.promises.size)
    (hev : (s.heap.promise p).Pending →
      Settles (fun m => evaluate eng m (s.heap.promise p).expr (s.heap.promise p).env
        (s.heap.promise p).mask) (s.mapHeap (·.beginForce p)) Heap.HasValue) :
    Settles (fun m => force (evaluate eng m) p) s Heap.HasValue := by
  cases hv : (s.heap.promise p).value? with
  | some v =>
    have hrun : ∀ m ≥ 0, force (evaluate eng m) p s = .ok v s := fun m _ =>
      force_apply_of_value _ hv
    exact ⟨0, .inl ⟨v, s, hrun, .refl hs, (hs.promises p hp).value v hv⟩⟩
  | none =>
    cases hf : (s.heap.promise p).forcing with
    | true =>
      have hrun : ∀ m ≥ 0, force (evaluate eng m) p s = .error (.failed .recursivePromise) s :=
        fun m _ => force_apply_of_forcing _ hv hf
      exact ⟨0, .inr ⟨_, s, hrun, .refl hs⟩⟩
    | false =>
      refine (hev ⟨hv, hf⟩).follow (fun m => force_apply_of_pending _ ⟨hv, hf⟩)
        (fun v t ht hv' => ⟨?_, hv'⟩) fun t ht => ?_
      · have hkeeps := (Heap.Keeps.beginForce s.heap p).trans ht.keeps
        exact ⟨hkeeps.trans (.finishForce _ p v), ht.depth, ht.closed.finishForce p hv'⟩
      · exact ⟨.abandonForce ⟨hv, hf⟩ ht.keeps, ht.depth, ht.closed.abandonForce p⟩

theorem lookupVariable_settles (hs : s.heap.Closed) {name : String} {env : FrameId}
    {mask : Option Mask} (hmask : Mask.Within s.heap.frames.size mask)
    (hforce : ∀ p, s.heap.lookup env name = some (.promise p) →
      Settles (fun m => force (evaluate eng m) p) s Heap.HasValue) :
    Settles (fun m => lookupVariable (evaluate eng m) name env mask) s Heap.HasValue := by
  unfold lookupVariable
  cases hm : Mask.find? mask name with
  | some v => exact .pure hs (hmask name v hm)
  | none =>
    refine .heap ?_
    cases hb : s.heap.lookup env name with
    | none => exact .fail hs _
    | some b =>
      cases b with
      | value v => exact .pure hs ((hs.lookup hb).2 v rfl)
      | promise p => exact hforce p hb
      | dots args => exact .fail hs _
      | missing => exact .fail hs _

theorem forceAll_settles (hs : s.heap.Closed) {args : List (Named PromiseId)}
    (hforce : ∀ s', Advances s s' → ∀ a ∈ args,
      Settles (fun m => force (evaluate eng m) a.val) s' Heap.HasValue) :
    Settles (fun m => forceAll (evaluate eng m) args) s Heap.HasItems := by
  induction args generalizing s with
  | nil => exact .pure hs (Nat.zero_le _)
  | cons a rest ih =>
    refine .bind (hforce s (.refl hs) a List.mem_cons_self) fun v s₁ h₁ hv => ?_
    have hrest := ih h₁.closed fun s' h' b hb =>
      hforce s' (h₁.trans h') b (List.mem_cons_of_mem _ hb)
    refine .bind hrest fun vs s₂ h₂ hvs => .pure h₂.closed ?_
    exact Nat.max_le.2 ⟨Nat.le_trans hv h₂.keeps.frames, hvs⟩

theorem visibleDots_settles (hs : s.heap.Closed) (env : FrameId) :
    Settles (fun _ => visibleDots env) s fun h args => h.dots? env = some args := by
  unfold visibleDots
  refine .heap ?_
  cases ha : s.heap.dots? env with
  | none => exact .fail hs _
  | some args => exact .pure hs ha

theorem evalSlot_settles (hs : s.heap.Closed) {env : FrameId} {mask : Option Mask} {slot : Slot}
    (hdots : ∀ s', Advances s s' → ∀ args, s'.heap.dots? env = some args →
      Settles (fun m => forceAll (evaluate eng m) args) s' Heap.HasItems)
    (hval : Settles (fun m => evaluate eng m slot.val env mask) s Heap.HasValue) :
    Settles (fun m => evalSlot (evaluate eng m) env mask slot) s Heap.HasItems := by
  unfold evalSlot
  by_cases h : slot.val.isDots = true
  · simp only [h, if_true]
    exact .bind (visibleDots_settles hs env) fun args s' h' ha => hdots s' h' args ha
  · simp only [h]
    refine .bind hval fun v s' h' hv => .pure h'.closed ?_
    exact Nat.max_le.2 ⟨hv, Nat.zero_le _⟩

theorem evalSlots_settles (hs : s.heap.Closed) {env : FrameId} {mask : Option Mask}
    {args : List Slot} (hslot : ∀ s', Advances s s' → ∀ slot ∈ args,
      Settles (fun m => evalSlot (evaluate eng m) env mask slot) s' Heap.HasItems) :
    Settles (fun m => evalSlots (evaluate eng m) env mask args) s Heap.HasItems := by
  induction args generalizing s with
  | nil => exact .pure hs (Nat.zero_le _)
  | cons slot rest ih =>
    refine .bind (hslot s (.refl hs) slot List.mem_cons_self) fun here s₁ h₁ hhere => ?_
    have hrest := ih h₁.closed fun s' h' other hother =>
      hslot s' (h₁.trans h') other (List.mem_cons_of_mem _ hother)
    refine .bind hrest fun there s₂ h₂ hthere => .pure h₂.closed ?_
    exact Item.reach_append_le (Nat.le_trans hhere h₂.keeps.frames) hthere

end

/-- Evaluation settles in every closed heap from which on the host stays in scope, from the given
depth on. -/
def Ready (eng : Engine) (d : Nat) : Prop :=
  ∀ s t env mask, d ≤ s.depth → s.heap.Closed → eng.host.Scoped s.heap →
    InScope s.heap.frames.size t.reach env mask →
      Settles (fun m => evaluate eng m t env mask) s Heap.HasValue

structure ReadyAt (eng : Engine) (d : Nat) (s : State) : Prop where
  ready : Ready eng d
  depth : d ≤ s.depth
  closed : s.heap.Closed
  host : eng.host.Scoped s.heap

theorem Advances.scoped {host : Host} {s s' : State} (h : Advances s s')
    (hs : host.Scoped s.heap) : host.Scoped s'.heap :=
  hs.mono h.keeps.frames h.keeps.promises

theorem ReadyAt.next {eng : Engine} {d : Nat} {s s' : State} (h : ReadyAt eng d s)
    (hs : Advances s s') : ReadyAt eng d s' :=
  ⟨h.ready, hs.depth ▸ h.depth, hs.closed, hs.scoped h.host⟩

theorem ReadyAt.deeper {eng : Engine} {d : Nat} {s : State} (h : ReadyAt eng d s) :
    ReadyAt eng d (s.mapDepth (· + 1)) :=
  ⟨h.ready, Nat.le_succ_of_le h.depth, h.closed, h.host⟩

namespace ReadyAt

variable {eng : Engine} {d : Nat} {s : State} {env : FrameId} {mask : Option Mask}

theorem eval (h : ReadyAt eng d s) {t : Tree}
    (hscope : InScope s.heap.frames.size t.reach env mask) :
    Settles (fun m => evaluate eng m t env mask) s Heap.HasValue :=
  h.ready s t env mask h.depth h.closed h.host hscope

theorem force (h : ReadyAt eng d s) {p : PromiseId} (hp : p < s.heap.promises.size) :
    Settles (fun m => force (evaluate eng m) p) s Heap.HasValue := by
  refine force_settles h.closed hp fun _ => ?_
  have hwithin := h.closed.promises p hp
  have hhost : eng.host.Scoped (s.heap.beginForce p) :=
    h.host.mono (Nat.le_refl _) (Heap.Keeps.beginForce s.heap p).promises
  exact h.ready _ _ _ _ h.depth (h.closed.beginForce p) hhost
    ⟨hwithin.expr, hwithin.env, hwithin.mask⟩

theorem findFunction (h : ReadyAt eng d s) (name : String) (chain : List FrameId) :
    Settles (fun m => findFunction (evaluate eng m) name chain) s Heap.HasValue := by
  induction chain generalizing s with
  | nil => exact .fail h.closed _
  | cons f rest ih =>
    refine .heap ?_
    cases hb : s.heap.binding? f name with
    | none => exact ih h
    | some b =>
      have hwithin := h.closed.bindings f name b hb
      cases b with
      | value v =>
        dsimp only
        split
        · exact .pure h.closed (hwithin.2 v rfl)
        · exact ih h
      | promise p =>
        refine .bind (h.force hwithin.1) fun v s₁ h₁ hv => ?_
        split
        · exact .pure h₁.closed hv
        · exact ih (h.next h₁)
      | dots args => exact ih h
      | missing => exact ih h

theorem resolveHead (h : ReadyAt eng d s) {head : Tree}
    (hscope : InScope s.heap.frames.size head.reach env mask) :
    Settles (fun m => resolveHead (evaluate eng m) head env mask) s Heap.HasValue := by
  have hother : Settles (fun m => do
      let v ← evaluate eng m head env mask
      if v.isCallable then return v else Eval.fail (.notCallable v.typeName)) s Heap.HasValue := by
    refine .bind (h.eval hscope) fun v s₁ h₁ hv => ?_
    split
    · exact .pure h₁.closed hv
    · exact .fail h₁.closed _
  cases head with
  | reference name =>
    simp only [Quotation.resolveHead, lookupFunction]
    cases hm : (Mask.find? mask name).filter Value.isCallable with
    | some v =>
      have hfind := Option.eq_some_of_filter_eq_some hm
      exact .pure h.closed (hscope.mask name v hfind)
    | none => exact .heap (h.findFunction name _)
  | literal | call | pairlist | unquote | splice | define => exact hother

theorem callHead (h : ReadyAt eng d s) {head : Tree} (args : List Slot)
    (hscope : InScope s.heap.frames.size head.reach env mask) :
    Settles (fun m => callHead (evaluate eng m) head args env mask) s Heap.HasValue := by
  obtain ⟨n, ⟨v, s', hF, hs', hv⟩ | ⟨e, s', hF, hs'⟩⟩ := h.resolveHead hscope
  · refine ⟨n, .inl ⟨v, s', fun m hm => ?_, hs', hv⟩⟩
    have hr : Quotation.resolveHead (evaluate eng m) head env mask s = .ok v s' := hF m hm
    exact (callHead_apply _ head args env mask s).trans (by rw [hr])
  · refine ⟨n, .inr ⟨s'.heap.headFailure (.call head args) env mask e, s', fun m hm => ?_, hs'⟩⟩
    have hr : Quotation.resolveHead (evaluate eng m) head env mask s = .error (.failed e) s' :=
      hF m hm
    exact (callHead_apply _ head args env mask s).trans (by rw [hr])

theorem resolveUnquote (h : ReadyAt eng d s) {e : Tree}
    (hscope : InScope s.heap.frames.size e.reach env mask) :
    Settles (fun m => resolveUnquote eng (evaluate eng m) e env mask) s Heap.HasTree := by
  refine .bind (h.eval hscope) fun v s₁ h₁ hv => ?_
  have hconvert := (Tree.ofValue_reach v).mono fun t ht => Nat.le_trans ht hv
  refine .bind (Q := Heap.HasTree) (.ofExcept h₁.closed hconvert) fun t s₂ h₂ ht => ?_
  refine .bind (.trace h₂.closed _ _) fun _ s₃ h₃ _ => .pure h₃.closed ?_
  exact Nat.le_trans ht h₃.keeps.frames

theorem resolveSplice (h : ReadyAt eng d s) {e : Tree}
    (hscope : InScope s.heap.frames.size e.reach env mask) :
    Settles (fun m => resolveSplice eng (evaluate eng m) e env mask) s Heap.HasSlots := by
  refine .bind (h.eval hscope) fun v s₁ h₁ hv => ?_
  have hconvert := (Slot.ofSequence_reach v).mono fun slots hslots => Nat.le_trans hslots hv
  refine .bind (Q := Heap.HasSlots) (.ofExcept h₁.closed hconvert) fun slots s₂ h₂ hslots => ?_
  refine .bind (.trace h₂.closed _ _) fun _ s₃ h₃ _ => .pure h₃.closed ?_
  exact Nat.le_trans hslots h₃.keeps.frames

theorem resolveName (h : ReadyAt eng d s) {n : Tree}
    (hscope : InScope s.heap.frames.size n.reach env mask) :
    Settles (fun m => resolveName (evaluate eng m) n env mask) s fun _ _ => True := by
  refine .bind (h.eval hscope) fun v s₁ h₁ hv => ?_
  exact .ofExcept h₁.closed (.trivial _)

theorem resolve_parts :
    (∀ t s, ReadyAt eng d s → InScope s.heap.frames.size t.reach env mask →
        Settles (fun m => resolveTree eng (evaluate eng m) env mask t) s Heap.HasTree) ∧
      (∀ l s, ReadyAt eng d s → InScope s.heap.frames.size (Slot.reach l) env mask →
        Settles (fun m => resolveSlots eng (evaluate eng m) env mask l) s Heap.HasSlots) ∧
      ∀ slot s, ReadyAt eng d s → InScope s.heap.frames.size slot.val.reach env mask →
        Settles (fun m => resolveSlot eng (evaluate eng m) env mask slot) s Heap.HasSlots := by
  refine resolveTree.mutual_induct _ _ _ ?literal ?reference ?call ?finishedCall ?pairlist
    ?finishedPairlist ?unquote ?splice ?define ?nil ?cons ?spliceSlot ?defineSplice ?defineSlot
    ?plainSlot
  case literal => exact fun _ s h hscope => .pure h.closed hscope.tree
  case reference => exact fun _ s h hscope => .pure h.closed hscope.tree
  case call =>
    intro head args hm hhead hargs s h hscope
    simp only [resolveTree, hm, if_true]
    refine .nested h.closed fun _ => ?_
    refine .bind (hhead _ h.deeper hscope.left) fun t s₁ h₁ ht => ?_
    have hscope₁ := hscope.right.mono h₁.keeps.frames
    refine .bind (hargs s₁ (h.deeper.next h₁) hscope₁) fun l s₂ h₂ hl => .pure h₂.closed ?_
    exact Nat.max_le.2 ⟨Nat.le_trans ht h₂.keeps.frames, hl⟩
  case finishedCall =>
    intro head args hm s h hscope
    simp only [resolveTree, hm]
    exact .pure h.closed hscope.tree
  case pairlist =>
    intro args hm hargs s h hscope
    simp only [resolveTree, hm, if_true]
    refine .nested h.closed fun _ => ?_
    exact .bind (hargs _ h.deeper hscope) fun l s₁ h₁ hl => .pure h₁.closed hl
  case finishedPairlist =>
    intro args hm s h hscope
    simp only [resolveTree, hm]
    exact .pure h.closed hscope.tree
  case unquote => exact fun e s h hscope => h.resolveUnquote hscope
  case splice => exact fun _ _ h _ => .fail h.closed _
  case define => exact fun _ _ _ h _ => .fail h.closed _
  case nil => exact fun s h _ => .pure h.closed (Nat.zero_le _)
  case cons =>
    intro slot rest hhere hthere s h hscope
    refine .bind (hhere s h hscope.left) fun here s₁ h₁ hl => ?_
    have hscope₁ := hscope.right.mono h₁.keeps.frames
    refine .bind (hthere s₁ (h.next h₁) hscope₁) fun there s₂ h₂ hr => .pure h₂.closed ?_
    exact Slot.reach_append_le (Nat.le_trans hl h₂.keeps.frames) hr
  case spliceSlot => exact fun _ e s h hscope => h.resolveSplice hscope
  case defineSplice =>
    intro _ n e s h hscope
    refine .bind (h.resolveName hscope.left) fun name s₁ h₁ _ => ?_
    have hscope₁ := hscope.right.mono h₁.keeps.frames
    refine .bind ((h.next h₁).resolveSplice hscope₁) fun l s₂ h₂ hl => .pure h₂.closed ?_
    exact Slot.reach_nameOr_le hl name
  case defineSlot =>
    intro _ n v hv ht s h hscope
    simp only [resolveSlot.eq_3 _ _ _ _ _ _ _ hv]
    refine .bind (h.resolveName hscope.left) fun name s₁ h₁ _ => ?_
    have hscope₁ := hscope.right.mono h₁.keeps.frames
    refine .bind (ht s₁ (h.next h₁) hscope₁) fun t s₂ h₂ ht => .pure h₂.closed ?_
    exact Nat.max_le.2 ⟨ht, Nat.zero_le _⟩
  case plainSlot =>
    intro name t h₁ h₂ h₃ ht s h hscope
    simp only [resolveSlot.eq_4 _ _ _ _ _ _ h₁ h₂ h₃]
    refine .bind (ht s h hscope) fun t s₁ h₁ ht => .pure h₁.closed ?_
    exact Nat.max_le.2 ⟨ht, Nat.zero_le _⟩

theorem resolve (h : ReadyAt eng d s) {t : Tree}
    (hscope : InScope s.heap.frames.size t.reach env mask) :
    Settles (fun m => resolve eng (evaluate eng m) t env mask) s Heap.HasTree :=
  .bind (.debug h.closed _) fun _ s₁ h₁ _ =>
    resolve_parts.1 t s₁ (h.next h₁) (hscope.mono h₁.keeps.frames)

theorem forceAll (h : ReadyAt eng d s) {args : List (Named PromiseId)}
    (hargs : s.heap.HasPromises args) :
    Settles (fun m => forceAll (evaluate eng m) args) s Heap.HasItems :=
  forceAll_settles h.closed fun _ h₁ a ha =>
    (h.next h₁).force (Nat.lt_of_lt_of_le (hargs a ha) h₁.keeps.promises)

theorem evalSlot (h : ReadyAt eng d s) {slot : Slot}
    (hscope : InScope s.heap.frames.size slot.val.reach env mask) :
    Settles (fun m => evalSlot (evaluate eng m) env mask slot) s Heap.HasItems :=
  evalSlot_settles h.closed (fun _ h₁ _ ha => (h.next h₁).forceAll <|
    (h₁.closed.lookup (Heap.lookup_of_dots? ha)).1)
    (h.eval hscope)

theorem evalSlots (h : ReadyAt eng d s) {args : List Slot}
    (hscope : InScope s.heap.frames.size (Slot.reach args) env mask) :
    Settles (fun m => evalSlots (evaluate eng m) env mask args) s Heap.HasItems :=
  evalSlots_settles h.closed fun _ h₁ slot hslot =>
    (h.next h₁).evalSlot <| (hscope.mono h₁.keeps.frames).part
      (Slot.reach_le_iff.1 (Nat.le_refl _) slot hslot)

theorem spliceItems (h : ReadyAt eng d s) {e : Tree}
    (hscope : InScope s.heap.frames.size e.reach env mask) :
    Settles (fun m => spliceItems (evaluate eng m) e env mask) s Heap.HasItems :=
  .bind (h.eval hscope) fun v _ h₁ hv => .ofExcept h₁.closed <|
    (Item.ofSequence_reach v).mono fun _ hitems => Nat.le_trans hitems hv

theorem evalInjected (h : ReadyAt eng d s) {t : Tree}
    (hscope : InScope s.heap.frames.size t.reach env mask) :
    Settles (fun m => evalInjected eng (evaluate eng m) env mask t) s Heap.HasValue := by
  have hother : Settles (fun m => if t.hasMarkers = true then
      Quotation.resolve eng (evaluate eng m) t env mask >>= fun t => evaluate eng m t env mask
      else evaluate eng m t env mask) s Heap.HasValue := by
    split
    · refine .bind (h.resolve hscope) fun t s₁ h₁ ht => ?_
      exact (h.next h₁).eval ⟨ht, (hscope.mono h₁.keeps.frames).env,
        (hscope.mono h₁.keeps.frames).mask⟩
    · exact h.eval hscope
  cases t with
  | unquote e => exact h.eval hscope
  | literal | reference | call | pairlist | splice | define => exact hother

theorem evalDynamicSlot (h : ReadyAt eng d s) {slot : Slot}
    (hscope : InScope s.heap.frames.size slot.val.reach env mask) :
    Settles (fun m => evalDynamicSlot eng (evaluate eng m) env mask slot) s Heap.HasItems := by
  unfold Quotation.evalDynamicSlot
  split
  · rename_i e heq
    rw [heq] at hscope
    exact h.spliceItems hscope
  · rename_i n v heq
    rw [heq] at hscope
    refine .bind (h.resolveName hscope.left) fun name s₁ h₁ _ => ?_
    have hscope₁ := hscope.right.mono h₁.keeps.frames
    cases hsplice : v.spliced? with
    | some e =>
      have he := hscope₁.part (Tree.reach_spliced?_le hsplice)
      refine .bind ((h.next h₁).spliceItems he) fun items s₂ h₂ hitems => .pure h₂.closed ?_
      exact Item.reach_nameOr_le hitems name
    | none =>
      refine .bind ((h.next h₁).evalInjected hscope₁) fun v s₂ h₂ hv => .pure h₂.closed ?_
      exact Nat.max_le.2 ⟨hv, Nat.zero_le _⟩
  · split
    · exact h.evalSlot hscope
    · refine .bind (h.evalInjected hscope) fun v s₂ h₂ hv => .pure h₂.closed ?_
      exact Nat.max_le.2 ⟨hv, Nat.zero_le _⟩

theorem evalDynamicSlots (h : ReadyAt eng d s) {args : List Slot}
    (hscope : InScope s.heap.frames.size (Slot.reach args) env mask) :
    Settles (fun m => evalDynamicSlots eng (evaluate eng m) env mask args) s Heap.HasItems := by
  induction args generalizing s with
  | nil => exact .pure h.closed (Nat.zero_le _)
  | cons slot rest ih =>
    refine .bind (h.evalDynamicSlot hscope.left) fun here s₁ h₁ hl => ?_
    have hscope₁ := hscope.right.mono h₁.keeps.frames
    refine .bind (ih (h.next h₁) hscope₁) fun there s₂ h₂ hr => .pure h₂.closed ?_
    exact Item.reach_append_le (Nat.le_trans hl h₂.keeps.frames) hr

theorem capturePromise (hs : s.heap.Closed) {p : PromiseId} (hp : p < s.heap.promises.size) :
    Settles (fun _ => capturePromise p) s Heap.HasCapture := by
  refine .onHeap (.markCaptured _ p) (hs.markCaptured p) ?_
  have hwithin := hs.promises p hp
  exact Nat.max_le.2 ⟨hwithin.expr, hwithin.env⟩

theorem captureAll (hs : s.heap.Closed) {args : List (Named PromiseId)}
    (hargs : s.heap.HasPromises args) :
    Settles (fun _ => captureAll args) s fun h cs => ∀ c ∈ cs, h.HasCapture c.val := by
  induction args generalizing s with
  | nil => exact .pure hs fun c hc => nomatch hc
  | cons a rest ih =>
    obtain ⟨ha, hrest⟩ := List.forall_mem_cons.1 hargs
    refine .bind (capturePromise hs ha) fun c s₁ h₁ hc => ?_
    have hrest₁ : s₁.heap.HasPromises rest := fun b hb =>
      Nat.lt_of_lt_of_le (hrest b hb) h₁.keeps.promises
    refine .bind (ih h₁.closed hrest₁) fun cs s₂ h₂ hcs => .pure h₂.closed ?_
    exact List.forall_mem_cons.2 ⟨Nat.le_trans hc h₂.keeps.frames, hcs⟩

theorem captureParameter (hs : s.heap.Closed) (env : FrameId) (name : String) :
    Settles (fun _ => captureParameter env name) s Heap.HasCapture := by
  refine .bind (.debug hs _) fun _ s₁ h₁ _ => .heap ?_
  cases s₁.heap.callFrame? env with
  | none => exact .fail h₁.closed _
  | some f =>
    dsimp only
    split
    · rename_i p hb
      exact capturePromise h₁.closed (h₁.closed.bindings f name _ hb).1
    all_goals exact .fail h₁.closed _

theorem captureDots (hs : s.heap.Closed) (env : FrameId) :
    Settles (fun _ => captureDots env) s fun h cs => ∀ c ∈ cs, h.HasCapture c.val := by
  refine .bind (.debug hs _) fun _ s₁ h₁ _ => .heap ?_
  cases s₁.heap.callFrame? env with
  | none => exact .fail h₁.closed _
  | some f =>
    dsimp only
    split
    · rename_i args hb
      exact captureAll h₁.closed (h₁.closed.bindings f dotsName _ hb).1
    · exact .fail h₁.closed _

theorem promiseSlot (hs : s.heap.Closed) {slot : Slot}
    (hscope : InScope s.heap.frames.size slot.val.reach env mask) :
    Settles (fun _ => promiseSlot env mask slot) s Heap.HasPromises := by
  unfold Quotation.promiseSlot
  split
  · exact (visibleDots_settles hs env).mono fun _ h₁ _ ha =>
      (h₁.closed.lookup (Heap.lookup_of_dots? ha)).1
  · refine .bind (Q := fun h p => p < h.promises.size)
      (.onHeap (.newPromise _ _) (hs.newPromise hscope.promise) ?_)
      fun p s₁ h₁ hp => .pure h₁.closed ?_
    · simp
    · exact List.forall_mem_singleton.2 hp

theorem promiseSlots (hs : s.heap.Closed) {args : List Slot}
    (hscope : InScope s.heap.frames.size (Slot.reach args) env mask) :
    Settles (fun _ => promiseSlots env mask args) s Heap.HasPromises := by
  induction args generalizing s with
  | nil => exact .pure hs fun a ha => nomatch ha
  | cons slot rest ih =>
    refine .bind (promiseSlot hs hscope.left) fun here s₁ h₁ hl => ?_
    have hscope₁ := hscope.right.mono h₁.keeps.frames
    refine .bind (ih h₁.closed hscope₁) fun there s₂ h₂ hr => .pure h₂.closed ?_
    exact List.forall_mem_append.2
      ⟨fun a ha => Nat.lt_of_lt_of_le (hl a ha) h₂.keeps.promises, hr⟩

theorem applyClosure (h : ReadyAt eng d s) {c : Closure Tree} (hc : s.heap.HasValue (.closure c))
    {args : List Slot} (hscope : InScope s.heap.frames.size (Slot.reach args) env mask) :
    Settles (fun m => applyClosure eng (evaluate eng m) c args env mask) s Heap.HasValue := by
  refine .bind (promiseSlots h.closed hscope) fun supplied s₁ h₁ hsupplied => .heap ?_
  have hc₁ := Nat.le_trans hc h₁.keeps.frames
  refine .bind (openFrame_settles h₁.closed hc₁ hsupplied) fun frame s₂ h₂ hframe => .depth ?_
  refine .bind (.trace h₂.closed _ _) fun _ s₃ h₃ _ => ?_
  have hbody : c.body.reach ≤ c.reach := Nat.le_trans (Nat.le_max_right _ _) (Nat.le_max_left _ _)
  have hframes := Nat.le_trans h₂.keeps.frames h₃.keeps.frames
  have hscope₃ : InScope s₃.heap.frames.size c.body.reach frame none :=
    ⟨Nat.le_trans hbody (Nat.le_trans hc₁ hframes), Nat.lt_of_lt_of_le hframe h₃.keeps.frames,
      Mask.within_none⟩
  refine .bind ((((h.next h₁).next h₂).next h₃).eval hscope₃) fun v s₄ h₄ hv => .heap ?_
  split
  · exact .fail h₄.closed _
  · exact .pure h₄.closed hv

theorem answer (h : ReadyAt eng d s) {q : Demand}
    (hq : q.InScope s.heap.frames.size s.heap.promises.size) :
    Settles (fun m => answer eng (evaluate eng m) q) s
      fun h a => q.AnswerWithin h.frames.size a := by
  cases q with
  | evaluate t env mask => exact h.eval hq
  | force p => exact h.force hq
  | arguments args env mask => exact h.evalDynamicSlots hq
  | resolve t env mask => exact h.resolve hq
  | capture env name => exact captureParameter h.closed env name
  | captureDots env => exact captureDots h.closed env
  | perform name args => exact .onWorld h.closed (h.host.builtin _ (Nat.le_refl _) name args _ hq)

theorem runRoutine {α : Type} {good : Nat → α → Prop} {s₀ : State} (h : ReadyAt eng d s)
    (h₀ : Advances s₀ s) {r : Routine α}
    (hr : r.Scoped s₀.heap.frames.size good s.heap.frames.size s.heap.promises.size) :
    SettlesSince s₀ (fun m => runRoutine eng (evaluate eng m) r) s
      fun h a => good h.frames.size a := by
  induction r generalizing s with
  | done a => exact ⟨0, .inl ⟨a, s, fun _ _ => rfl, h₀, hr⟩⟩
  | fail e => exact ⟨0, .inr ⟨e, s, fun _ _ => rfl, h₀⟩⟩
  | ask q next ih =>
    refine .bind (h.answer hr.1).attempt (fun _ hs => h₀.trans hs) fun r s₁ h₁ ha => ?_
    exact ih r (h.next h₁) (h₀.trans h₁) (hr.2 _ _ r h₁.keeps.frames h₁.keeps.promises ha)
  | inspect next ih => exact ih s.heap h h₀ (hr s.heap h.closed rfl rfl)
  | newFrame parent isCall next ih =>
    have hstep : Advances s (s.mapHeap fun h => (h.newFrame parent isCall).2) :=
      ⟨.newFrame _ _ _, rfl, h.closed.newFrame hr.1 isCall⟩
    refine ih _ (h.next hstep) (h₀.trans hstep) ?_
    simpa [State.mapHeap] using hr.2
  | newPromise expr env mask next ih =>
    have hstep : Advances s (s.mapHeap fun h => (h.newPromise { expr, env, mask }).2) :=
      ⟨.newPromise _ _, rfl, h.closed.newPromise hr.1.promise⟩
    refine ih _ (h.next hstep) (h₀.trans hstep) ?_
    simpa [State.mapHeap] using hr.2
  | rebind env name b next ih =>
    have hclosed := h.closed.rebind env name fun b' hb => (hr.1 b' hb).1
    have hhost : eng.host.Scoped (s.heap.rebind env name b) :=
      h.host.mono (by simp) (by simp)
    have h₁ : ReadyAt eng d (s.mapHeap (·.rebind env name b)) := ⟨h.ready, h.depth, hclosed, hhost⟩
    refine ih h₁ ⟨h₀.keeps.rebind name fun b' hb => (hr.1 b' hb).2, h₀.depth, hclosed⟩ ?_
    simpa [State.mapHeap] using hr.2
  | identity next ih =>
    have hfresh : Settles (fun _ => Eval.freshIdentity) s fun h _ => h = s.heap :=
      .onWorld h.closed (.ok rfl)
    refine .bind hfresh (fun _ hs => h₀.trans hs) fun i s₁ h₁ hheap => ?_
    exact ih i (h.next h₁) (h₀.trans h₁) (hheap ▸ hr i)
  | depth next ih => exact ih _ h h₀ (hr _)

theorem apply (h : ReadyAt eng d s) {func : Value}
    (hfunc : s.heap.HasValue func) {args : List Slot}
    (hscope : InScope s.heap.frames.size (Slot.reach args) env mask) :
    Settles (fun m => apply eng (evaluate eng m) func args env mask) s Heap.HasValue := by
  unfold Quotation.apply
  cases func with
  | builtin b =>
    refine .bind (h.evalSlots hscope) fun items s₁ h₁ hitems => .onWorld h₁.closed ?_
    have hhost := (h.next h₁).host.builtin _ (Nat.le_refl _)
    exact b.op.run_reach (fun name args w => hhost name args w) s₁.world hitems
  | special sp =>
    have hcall : SpecialCall.InScope s.heap.frames.size ⟨args, env, mask⟩ := hscope
    have hhost := h.host.special _ (Nat.le_refl _) _ (Nat.le_refl _)
    exact h.runRoutine (.refl h.closed)
      (Special.Op.routine_scoped (fun name => hhost name _ hcall) sp.op hcall)
  | closure c => exact h.applyClosure hfunc hscope
  | _ => exact .fail h.closed _

theorem rejectMarkers (hs : s.heap.Closed) (func : Value) (t : Tree) :
    Settles (fun _ => rejectMarkers func t env mask) s fun _ _ => True := by
  unfold Quotation.rejectMarkers
  split
  · refine .heap ?_
    split
    · exact .fail hs _
    · exact .pure hs trivial
  · exact .pure hs trivial

theorem evaluateCall (h : ReadyAt eng d s) {head : Tree} {args : List Slot}
    (hscope : InScope s.heap.frames.size (Tree.call head args).reach env mask) :
    Settles (fun m => evaluateCall eng (evaluate eng m) head args env mask) s Heap.HasValue := by
  refine .depth (.bind (.trace h.closed _ _) fun _ s₁ h₁ _ => ?_)
  have hscope₁ := hscope.mono h₁.keeps.frames
  refine .bind ((h.next h₁).callHead args hscope₁.left)
    fun func s₂ h₂ hfunc => ?_
  refine .bind (rejectMarkers h₂.closed func _) fun _ s₃ h₃ _ => ?_
  have hscope₃ := (hscope₁.mono h₂.keeps.frames).mono h₃.keeps.frames
  exact (((h.next h₁).next h₂).next h₃).apply (Nat.le_trans hfunc h₃.keeps.frames) hscope₃.right

end ReadyAt

end Quotation
