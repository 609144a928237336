import Quotation.Proofs.Renaming
import Quotation.Proofs.SpecialCall
import Quotation.Proofs.Substitution.Level

namespace Quotation

/-- A closure that gives the tree of its only argument. -/
structure Closure.Captures (c : Closure Tree) : Prop where
  formals : c.formals = [⟨"a", none⟩]
  body : c.body = .callNamed "enexpr" [.reference "a"]

namespace Heap

def calling (h : Heap) (c : Closure Tree) (e : Tree) (env : FrameId) (mask : Option Mask) : Heap :=
  let g := (h.newPromise { expr := e, env, mask }).2
  ((g.newFrame (some c.env) true).2).bind h.frames.size "a" (.promise h.promises.size)

def capturing (h : Heap) (c : Closure Tree) (e : Tree) (env : FrameId) (mask : Option Mask) :
    Heap :=
  (h.calling c e env mask).markCaptured h.promises.size

variable {h h' : Heap} {c : Closure Tree} {e : Tree} {env f : FrameId} {mask : Option Mask}
  {name : String} {v : Value}

theorem functionIn?_congr {chain : List FrameId}
    (hbinding : ∀ f ∈ chain, h'.binding? f name = h.binding? f name)
    (hvalue : ∀ p, (h'.promise p).value? = (h.promise p).value?) :
    h'.functionIn? name chain = h.functionIn? name chain := by
  induction chain with
  | nil => rfl
  | cons f rest ih =>
    obtain ⟨hf, hrest⟩ := List.forall_mem_cons.1 hbinding
    simp only [functionIn?, hf, hvalue, ih hrest]

theorem frame_calling :
    (h.calling c e env mask).frame f =
      if f = h.frames.size then
        { bindings := ({} : NameTable Binding).insert "a" (.promise h.promises.size)
          enclosing := h.chain c.env
          isCall := true }
      else h.frame f := by
  rw [calling, bind, frame_modifyFrame, frame_newFrame, frame_newFrame]
  by_cases hf : f = h.frames.size
  · subst hf
    have hsize : h.frames.size < ((h.newPromise { expr := e, env, mask }).2.newFrame (some c.env)
      true).2.frames.size := by simp
    rw [if_pos ⟨rfl, hsize⟩, size_frames_newPromise, if_pos rfl, if_pos rfl]
    rfl
  · rw [if_neg fun hall => hf hall.1.symm, size_frames_newPromise, if_neg hf, if_neg hf]
    rfl

theorem promise_calling (p : PromiseId) :
    (h.calling c e env mask).promise p =
      if p = h.promises.size then { expr := e, env, mask } else h.promise p :=
  promise_newPromise h p _

theorem size_promises_calling :
    (h.calling c e env mask).promises.size = h.promises.size + 1 :=
  size_promises_newPromise h _

theorem binding?_calling (hname : name ≠ "a") :
    (h.calling c e env mask).binding? f name = h.binding? f name := by
  rw [binding?, frame_calling]
  split
  · rename_i hf
    rw [binding?, frame_of_size_le h f (Nat.le_of_eq hf.symm), NameTable.get?_insert, if_neg hname]
    rfl
  · rfl

theorem binding?_calling_self :
    (h.calling c e env mask).binding? h.frames.size "a" = some (.promise h.promises.size) := by
  rw [binding?, frame_calling, if_pos rfl, NameTable.get?_insert, if_pos rfl]

theorem callFrame?_calling :
    (h.calling c e env mask).callFrame? h.frames.size = some h.frames.size := by
  have hcall : ((h.calling c e env mask).frame h.frames.size).isCall = true := by
    rw [frame_calling, if_pos rfl]
  simp [callFrame?, chain, hcall]

theorem value?_calling (p : PromiseId) :
    ((h.calling c e env mask).promise p).value? = (h.promise p).value? := by
  rw [promise_calling]
  split
  · rename_i hp
    rw [promise_of_size_le (Nat.le_of_eq hp.symm)]
    rfl
  · rfl

theorem functionIn?_calling (hname : name ≠ "a") (chain : List FrameId) :
    (h.calling c e env mask).functionIn? name chain = h.functionIn? name chain :=
  functionIn?_congr (fun _ _ => binding?_calling hname) value?_calling

theorem function?_calling_self (hname : name ≠ "a") (hv : h.function? c.env none name = some v) :
    (h.calling c e env mask).function? h.frames.size none name = some v := by
  have hnone : h.binding? h.frames.size name = none := by
    rw [binding?, frame_of_size_le h _ (Nat.le_refl _)]
    rfl
  have hchain : (h.calling c e env mask).chain h.frames.size = h.frames.size :: h.chain c.env := by
    rw [chain, frame_calling, if_pos rfl]
  change (h.calling c e env mask).functionIn? name _ = some v
  rw [hchain, functionIn?_calling hname, functionIn?, hnone]
  exact hv

theorem extends_capturing : h.Extends (h.capturing c e env mask) where
  frame f hf := by
    change (h.calling c e env mask).frame f = _
    rw [frame_calling, if_neg (Nat.ne_of_lt hf)]
  promise p hp := by
    have hne : p ≠ h.promises.size := Nat.ne_of_lt hp
    rw [capturing, markCaptured, promise_modifyPromise, if_neg fun hall => hne hall.1.symm,
      promise_calling, if_neg hne]
  frames := by
    change h.frames.size ≤ (h.calling c e env mask).frames.size
    simp [calling]
  promises := by
    change h.promises.size ≤ ((h.calling c e env mask).modifyPromise _ _).promises.size
    rw [size_promises_modifyPromise]
    exact size_promises_calling ▸ Nat.le_succ _

theorem captured_capturing :
    ((h.capturing c e env mask).promise h.promises.size).captured = true := by
  have hsize : h.promises.size < (h.calling c e env mask).promises.size := by
    exact size_promises_calling ▸ Nat.lt_succ_self _
  rw [capturing, markCaptured, promise_modifyPromise, if_pos ⟨rfl, hsize⟩]

end Heap

section

variable {eng : Engine} {ev : Evaluator} {env : FrameId} {mask : Option Mask} {s : State}

theorem runSpecial_enexpr (id : Identity) (name : String) :
    runSpecial eng ev ⟨.enexpr, id⟩ ⟨[.positional (.reference name)], env, mask⟩ = do
      let c ← captureParameter env name
      let t ← resolve eng ev c.tree c.env none
      return Value.tree t := by
  change runRoutine eng ev (((Routine.capture env name).bind fun c =>
    (Routine.resolve c.tree c.env none).bind fun t =>
      .done (⟨t, c.env⟩ : Capture Tree)).bind fun c => .done (Value.tree c.tree)) = _
  rw [Routine.bind_assoc, runRoutine_bind]
  refine congr (congrArg bind (runRoutine_demand (.capture env name))) (funext fun c => ?_)
  rw [Routine.bind_assoc, runRoutine_bind]
  exact congrArg (· >>= _) (runRoutine_demand (.resolve c.tree c.env none))

theorem captureParameter_promise {name : String} {frame : FrameId} {p : PromiseId}
    (hframe : s.heap.callFrame? env = some frame)
    (hbound : s.heap.binding? frame name = some (.promise p)) :
    ∃ u : State, captureParameter env name s =
        .ok ⟨(s.heap.promise p).expr, (s.heap.promise p).env⟩ u ∧
      u.Deeper 0 (s.mapHeap (·.markCaptured p)) := by
  rw [captureParameter, Eval.debug_heap_apply]
  generalize hu : s.record _ = u
  have hsame : u.Deeper 0 s := hu ▸ ⟨rfl, rfl, rfl⟩
  refine ⟨u.mapHeap (·.markCaptured p), ?_, hsame.mapHeap _⟩
  simp only [hframe, hbound]
  rw [← hsame.heap]
  rfl

end

section

variable {eng : Engine} {ev : Evaluator} {fuel : Nat} {env : FrameId} {mask : Option Mask}
  {c : Closure Tree} {e : Tree} {s : State} {name : String}

theorem promiseSlots_single (he : e.isDots = false) :
    promiseSlots env mask [.positional e] s = .ok [⟨none, s.heap.promises.size⟩]
      (s.mapHeap fun h => (h.newPromise { expr := e, env, mask }).2) := by
  simp only [promiseSlots, promiseSlot, Named.positional, he]
  rfl

theorem openFrame_single (hc : c.Captures) {p : PromiseId} :
    openFrame c [⟨none, p⟩] s = .ok s.heap.frames.size (s.mapHeap fun h =>
      (h.newFrame (some c.env) true).2.bind h.frames.size "a" (.promise p)) := by
  rw [openFrame_apply, hc.formals]
  rfl

theorem evaluate_capturing_body (hc : c.Captures) (fuel : Nat) {t : State}
    (hdepth : t.depth < eng.maxDepth)
    (hheap : t.heap = s.heap.calling c e env mask) {j : Identity}
    (henexpr : s.heap.function? c.env none "enexpr" = some (.special ⟨.enexpr, j⟩)) :
    ∃ u : State, u.Deeper 1 (t.mapHeap (·.markCaptured s.heap.promises.size)) ∧
      evaluate eng (fuel + 1) c.body s.heap.frames.size none t = Outcome.leave
        ((resolve eng (evaluate eng fuel) e env none >>= fun t => pure (Value.tree t)) u) := by
  have hspecial : t.heap.function? s.heap.frames.size none "enexpr" =
      some (.special ⟨.enexpr, j⟩) := by
    rw [hheap]
    exact Heap.function?_calling_self (by decide) henexpr
  generalize ht' : t.entering eng.trace (.callNamed "enexpr" [.reference "a"]) = t'
  have hentered : t'.Deeper 0 (t.mapDepth (· + 1)) := ht' ▸ (t.deeper_entering _ _).symm_same
  have hheap' : t'.heap = s.heap.calling c e env mask := hentered.heap.trans hheap
  have hpromise : t'.heap.promise s.heap.promises.size = { expr := e, env, mask } := by
    rw [hheap', Heap.promise_calling, if_pos rfl]
  have hframe : t'.heap.callFrame? s.heap.frames.size = some s.heap.frames.size :=
    hheap' ▸ Heap.callFrame?_calling
  have hbound : t'.heap.binding? s.heap.frames.size "a" = some (.promise s.heap.promises.size) :=
    hheap' ▸ Heap.binding?_calling_self
  obtain ⟨u, hcaptured, hu⟩ := captureParameter_promise hframe hbound
  rw [hpromise] at hcaptured
  refine ⟨u, ⟨?_, ?_, ?_⟩, ?_⟩
  · exact hu.heap.trans (congrArg (Heap.markCaptured · _) hentered.heap)
  · exact hu.world.trans hentered.world
  · exact hu.depth.trans hentered.depth
  · have hcall : evaluate eng (fuel + 1) c.body s.heap.frames.size none t = Outcome.leave
        (runSpecial eng (evaluate eng fuel) ⟨.enexpr, j⟩
          ⟨[.positional (.reference "a")], s.heap.frames.size, none⟩ t') := by
      rw [← ht', hc.body]
      exact evaluate_namedCall hdepth hspecial nofun
    rw [hcall, runSpecial_enexpr, Eval.bind_apply, hcaptured, Outcome.follow_ok_eval]

def Outcome.examined (r : Outcome Value) (h : Heap) (e : Tree) (env : FrameId)
    (mask : Option Mask) : Outcome Value :=
  r.follow (fun v t =>
    match uncapturedMarker? t.heap (markedArguments (h.newPromise { expr := e, env, mask }).2
        [⟨none, h.promises.size⟩]) with
    | some m => .error (.failed (.unresolvedMarker m.kind)) t
    | none => .ok v t) id

theorem applyClosure_capturing (hc : c.Captures) (he : e.isDots = false) (eng : Engine)
    (ev : Evaluator) (env : FrameId) (mask : Option Mask) (s : State) :
    ∃ t : State, t.Deeper 0 (s.mapHeap (·.calling c e env mask)) ∧
      applyClosure eng ev c [.positional e] env mask s =
        Outcome.examined (ev c.body s.heap.frames.size none t) s.heap e env mask := by
  let p := s.heap.promises.size
  let s₁ := s.mapHeap fun h => (h.newPromise { expr := e, env, mask }).2
  let s₂ := s₁.mapHeap fun h =>
    (h.newFrame (some c.env) true).2.bind h.frames.size "a" (.promise p)
  have hsupplied : promiseSlots env mask [.positional e] s = .ok [⟨none, p⟩] s₁ :=
    promiseSlots_single he
  have hframe : openFrame c [⟨none, p⟩] s₁ = .ok s.heap.frames.size s₂ := openFrame_single hc
  have happly : applyClosure eng ev c [.positional e] env mask s = _ :=
    applyClosure_apply hsupplied hframe
  refine ⟨s₂.calling eng.trace c, ?_, happly⟩
  exact (State.Deeper.refl s₂).traced eng.trace false _ ""

theorem evaluate_capturing (hc : c.Captures) (he : e.isDots = false) (fuel : Nat)
    (hdepth : s.depth < eng.maxDepth)
    (hcapture : s.heap.function? env mask name = some (.closure c)) :
    ∃ t : State, t.Deeper 1 (s.mapHeap (·.calling c e env mask)) ∧
      evaluate eng (fuel + 1) (.callNamed name [e]) env mask s = Outcome.leave
        (Outcome.examined (evaluate eng fuel c.body s.heap.frames.size none t)
          s.heap e env mask) := by
  have hcall : evaluate eng (fuel + 1) (.callNamed name [e]) env mask s = Outcome.leave
      (applyClosure eng (evaluate eng fuel) c [.positional e] env mask
        (s.entering eng.trace (.callNamed name [e]))) :=
    evaluate_namedCall hdepth hcapture nofun
  generalize hs₁ : s.entering eng.trace (.callNamed name [e]) = s₁ at hcall
  have hentered : s₁.Deeper 0 (s.mapDepth (· + 1)) := hs₁ ▸ (s.deeper_entering _ _).symm_same
  have hheap : s₁.heap = s.heap := hentered.heap
  obtain ⟨t, ht, happly⟩ := applyClosure_capturing hc he eng (evaluate eng fuel) env mask s₁
  refine ⟨t, ⟨ht.heap.trans ?_, ht.world.trans hentered.world, ht.depth.trans hentered.depth⟩, ?_⟩
  · exact congrArg (Heap.calling · c e env mask) hheap
  · rw [hcall, happly, hheap]

theorem uncapturedMarker?_of_captured {h h' : Heap} {p : PromiseId}
    (hp : (h'.promise p).captured = true) :
    uncapturedMarker? h' (markedArguments h [⟨none, p⟩]) = none := by
  refine uncapturedMarker?_eq_none_iff.2 fun q hq _ => ?_
  obtain ⟨a, ha, rfl, -⟩ := mem_markedArguments.1 hq
  obtain rfl := List.mem_singleton.1 ha
  exact hp

theorem evaluate_capture (hc : c.Captures) (he : e.isDots = false)
    (hcapture : s.heap.function? env mask name = some (.closure c)) {j : Identity}
    (henexpr : s.heap.function? c.env none "enexpr" = some (.special ⟨.enexpr, j⟩))
    (hlimit : ¬ Outcome.HitsLimit (evaluate eng (fuel + 2) (.callNamed name [e]) env mask s)) :
    ∃ u : State, u.Deeper 2 (s.mapHeap (·.capturing c e env mask)) ∧
      evaluate eng (fuel + 2) (.callNamed name [e]) env mask s = Outcome.leave (Outcome.leave
        ((resolve eng (evaluate eng fuel) e env none >>= fun t => pure (Value.tree t)) u)) := by
  obtain ⟨t, ht, hcall⟩ :=
    evaluate_capturing hc he (fuel + 1) (depth_lt_of_not_hitsLimit hlimit) hcapture
  have hlimit : ¬ Outcome.HitsLimit (evaluate eng (fuel + 1)
      (.callNamed "enexpr" [.reference "a"]) s.heap.frames.size none t) := by
    rintro ⟨err, u, hbody, herr⟩
    refine hlimit ⟨err, u.mapDepth (· - 1), ?_, herr⟩
    rw [hcall, hc.body]
    exact congrArg (fun r => Outcome.leave (Outcome.examined r s.heap e env mask)) hbody
  have hdepth : t.depth < eng.maxDepth := depth_lt_of_not_hitsLimit hlimit
  obtain ⟨u, hu, hbody⟩ := evaluate_capturing_body hc fuel hdepth ht.heap henexpr
  have hheap : u.heap = s.heap.capturing c e env mask :=
    hu.heap.trans (congrArg (Heap.markCaptured · _) ht.heap)
  have hcaptured : (u.heap.promise s.heap.promises.size).captured = true :=
    hheap ▸ Heap.captured_capturing
  refine ⟨u, ⟨hheap, hu.world.trans ht.world, hu.depth.trans (congrArg (· + 1) ht.depth)⟩, ?_⟩
  rw [hcall, hbody, Eval.bind_apply]
  have hkept := resolve_keepsTrees eng fuel e env none u
  cases hr : resolve eng (evaluate eng fuel) e env none u with
  | error h w => rfl
  | ok tree w =>
    rw [hr] at hkept
    have hnone : uncapturedMarker? w.heap (markedArguments
        (s.heap.newPromise { expr := e, env, mask }).2 [⟨none, s.heap.promises.size⟩]) = none :=
      uncapturedMarker?_of_captured (hkept.captured hcaptured)
    change Outcome.leave (match uncapturedMarker? w.heap _ with
      | some m => .error (.failed (.unresolvedMarker m.kind)) (w.mapDepth (· - 1))
      | none => .ok (Value.tree tree) (w.mapDepth (· - 1))) = _
    rw [hnone]
    rfl

theorem leave_renamed {ρ : Renaming} {r₀ r₁ r₂ : Outcome Value}
    (hrenamed : Outcome.Renamed ρ (Value.rename ρ) r₁ r₀) (hdeeper : Outcome.Deeper 1 r₁ r₂) :
    Outcome.HitsLimit (Outcome.leave (Outcome.leave r₀)) ∨
      Outcome.Renamed ρ (Value.rename ρ) (Outcome.leave r₂) (Outcome.leave (Outcome.leave r₀)) := by
  have hleave : ∀ t₀ t₁ t₂ : State, t₁.Renamed ρ t₀ → t₁.Deeper 1 t₂ →
      (t₂.mapDepth (· - 1)).Renamed ρ ((t₀.mapDepth (· - 1)).mapDepth (· - 1)) := by
    intro t₀ t₁ t₂ hr hd
    refine ⟨hd.heap ▸ hr.heap, hr.world.trans hd.world, ?_⟩
    exact (congrArg (· - 1 - 1) hr.depth).trans (congrArg (· - 1 - 1) hd.depth)
  cases hrenamed with
  | ok hr =>
    cases hdeeper with
    | ok hd => exact .inr (.ok (hleave _ _ _ hr hd))
  | error hr =>
    cases hdeeper with
    | error hd => exact .inr (.error (hleave _ _ _ hr hd))
    | limit he => exact .inl ⟨_, _, rfl, he⟩

/-- To call a closure that captures its argument, under whatever mask, is to quote the argument
under none: from the same state the same tree or the same error, and the same final state, except for
the numbers of the frames and promises that are made. The operands lie one level deeper, which they
must not observe, and the call must not run into the limit. -/
theorem capture_quotes_unmasked {i j : Identity} (hhost : eng.host.UniformFrom s.heap)
    (hc : c.Captures) (he : e.isDots = false) (hclosed : s.heap.Closed)
    (hscope : InScope s.heap.frames.size e.reach env none)
    (hcapture : s.heap.function? env mask name = some (.closure c))
    (henexpr : s.heap.function? c.env none "enexpr" = some (.special ⟨.enexpr, j⟩))
    (hquote : s.heap.function? env none "quote" = some (.special ⟨.quote, i⟩))
    (hoperands : Unobserving eng (evaluate eng fuel) env none (e.requests 0) (s.mapDepth (· + 1)))
    (hlimit : ¬ Outcome.HitsLimit (evaluate eng (fuel + 2) (.callNamed name [e]) env mask s)) :
    ∃ ρ : Renaming, ρ.Fixes s.heap ∧
      Outcome.Renamed ρ (Value.rename ρ)
        (evaluate eng (fuel + 1) (.callNamed "quote" [e]) env none s)
        (evaluate eng (fuel + 2) (.callNamed name [e]) env mask s) := by
  have hdepth : s.depth < eng.maxDepth := depth_lt_of_not_hitsLimit hlimit
  obtain ⟨u, hu, hcall⟩ := evaluate_capture hc he hcapture henexpr hlimit
  -- The state two calls deep, without what the call has left in the heap.
  have hextends : (s.mapDepth (· + 2)).Extends u :=
    ⟨hclosed, hu.heap ▸ Heap.extends_capturing, hu.world, hu.depth⟩
  obtain ⟨ρ, hfixes, hrenamed⟩ := Eval.Renamed.extended (f := Value.rename)
    (s := s.mapDepth (· + 2))
    (fun ρ hρ t env mask => (resolve_renamed (evaluate_renamed (hhost ρ hρ) fuel) t env mask).bind
      fun t => .pure (a := Value.tree t) rfl) hextends hscope
  -- The state in which quoting substitutes, one call deep.
  generalize hw : s.entering eng.trace (.callNamed "quote" [e]) = w
  have hentered : w.Deeper 0 (s.mapDepth (· + 1)) := hw ▸ (s.deeper_entering _ _).symm_same
  have hdeeper : (s.mapDepth (· + 2)).Deeper 1 w :=
    ⟨hentered.heap.symm, hentered.world.symm, congrArg (· + 1) hentered.depth.symm⟩
  have hblind := (resolve_levelBlind (evaluate_related fuel) (evaluate_ignoresLog eng fuel)
    (hoperands.ofLog (evaluate_ignoresLog eng fuel) hentered.symm_same)).bind
      fun t _ _ => .pure (Value.tree t)
  have hends := leave_renamed hrenamed (hblind _ hdeeper)
  rw [← hcall] at hends
  rw [evaluate_quote hdepth hquote, hw]
  exact ⟨ρ, hfixes, hends.resolve_left hlimit⟩

end

theorem reference_levelBlind {eng : Engine} {fuel : Nat} {name : String} {env : FrameId} {s : State}
    {v : Value} (h : s.heap.lookup env name = some (.value v)) :
    (evaluate eng (fuel + 1) (.reference name) env none).LevelBlind s := by
  have hvalue : ∀ t : State, t.heap = s.heap →
      evaluate eng (fuel + 1) (.reference name) env none t = .ok v t := by
    intro t ht
    change lookupVariable (evaluate eng fuel) name env none t = _
    rw [lookupVariable]
    simp only [Mask.find?_none, Eval.heap_bind_apply, ht, h]
    rfl
  intro s₁ hs
  rw [hvalue s₁ hs.heap, hvalue s rfl]
  exact .ok hs

def Mask.hidingX : Mask := NameTable.empty.insert "x" (.int 5)

theorem State.withCallables_closed : State.withCallables.heap.Closed := by
  have hx := Heap.Closed.root.define 0 "x" (v := .int 1) (Nat.zero_le _)
  have hidentity := hx.define 0 "identity" (v := .builtin ⟨.identity, 3⟩) (Nat.zero_le _)
  have hquote := hidentity.define 0 "quote" (v := .special ⟨.quote, 4⟩) (Nat.zero_le _)
  have henexpr := hquote.define 0 "enexpr" (v := .special ⟨.enexpr, 5⟩) (Nat.zero_le _)
  exact henexpr.define 0 "capture" (v := .closure .capturing) (Nat.le_refl 1)

theorem capture_quotes_masked_reference :
    let eng : Engine := { host := Session.host }
    let e : Tree := .unquote (.reference "x")
    let s : State := .withCallables
    ∃ ρ : Renaming, ρ.Fixes s.heap ∧
      Outcome.Renamed ρ (Value.rename ρ) (evaluate eng 4 (.callNamed "quote" [e]) 0 none s)
        (evaluate eng 5 (.callNamed "capture" [e]) 0 (some .hidingX) s) := by
  intro eng e s
  have hoperands : Unobserving eng (evaluate eng 3) 0 none (e.requests 0) (s.mapDepth (· + 1)) := by
    refine ⟨?_, fun _ _ _ => trivial⟩
    rintro _ ⟨⟩
    exact reference_levelBlind (v := .int 1) rfl
  have hvalue : Outcome.value? (evaluate eng 5 (.callNamed "capture" [e]) 0 (some .hidingX) s) =
      some (.tree (.literal (.int 1))) := rfl
  refine capture_quotes_unmasked (fun ρ _ => Session.host_uniform ρ) ⟨rfl, rfl⟩ rfl
    State.withCallables_closed
    ⟨Nat.zero_le _, Nat.zero_lt_one, Mask.within_none⟩ rfl rfl rfl hoperands ?_
  rintro ⟨err, t, ht, -⟩
  rw [ht] at hvalue
  cases hvalue

/-- Under the mask, the argument that is captured is not what quoting it gives. -/
theorem capture_drops_mask :
    let eng : Engine := { host := Session.host }
    let e : Tree := .unquote (.reference "x")
    Outcome.value? (evaluate eng 5 (.callNamed "capture" [e]) 0 (some .hidingX) .withCallables) =
        some (.tree (.literal (.int 1))) ∧
      Outcome.value? (evaluate eng 5 (.callNamed "quote" [e]) 0 (some .hidingX) .withCallables) =
        some (.tree (.literal (.int 5))) :=
  ⟨rfl, rfl⟩

end Quotation
