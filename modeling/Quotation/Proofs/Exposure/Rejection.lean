import Quotation.Proofs.Exposure.Head
import Quotation.Proofs.Forcing
import Quotation.Proofs.Sparing
import Quotation.Proofs.Termination.Closed

/-! The check of a call of a built-in function. It reports the first marker that is in reach of
evaluation, and nothing of the arguments has run then. It does not know that the head has been looked
up, though: it asks once more whether the head is a special, and looking the head up may have bound
its name to one. Then the call is not checked at all. -/

namespace Quotation

mutual

/-- The markers of a tree in the order of its children, but for those in the calls of specials and
those in operands. -/
def Tree.openMarkers (special : Tree → Bool) : Tree → List Marker
  | .literal _ => []
  | .reference _ => []
  | .call head args =>
    if special head then [] else head.openMarkers special ++ Slot.openMarkers special args
  | .pairlist args => Slot.openMarkers special args
  | .unquote e => [.unquote e]
  | .splice e => [.splice e]
  | .define n v => [.define n v]
termination_by structural t => t

def Slot.openMarkers (special : Tree → Bool) : List Slot → List Marker
  | [] => []
  | ⟨_, t⟩ :: rest => t.openMarkers special ++ Slot.openMarkers special rest
termination_by structural l => l

end

theorem exposed?_parts_eq_head? (h : Heap) (env : FrameId) (mask : Option Mask) :
    (∀ t, h.exposed? env mask t = (t.openMarkers (h.isSpecialHead env mask)).head?) ∧
      ∀ l, h.exposedSlots? env mask l = (Slot.openMarkers (h.isSpecialHead env mask) l).head? := by
  refine Heap.exposed?.mutual_induct h env mask _ _ ?literal ?reference ?special ?call ?pairlist
    ?unquote ?splice ?define ?nil ?cons
  case literal => exact fun _ => rfl
  case reference => exact fun _ => rfl
  case special =>
    intro head args hs
    simp [Heap.exposed?, Tree.openMarkers, hs]
  case call =>
    intro head args hs hhead hargs
    simp [Heap.exposed?, Tree.openMarkers, hs, hhead, hargs, List.head?_append]
  case pairlist => exact fun _ hargs => hargs
  case unquote => exact fun _ => rfl
  case splice => exact fun _ => rfl
  case define => exact fun _ _ => rfl
  case nil => rfl
  case cons =>
    intro name t rest ht hrest
    simp [Heap.exposedSlots?, Slot.openMarkers, ht, hrest, List.head?_append]

section

variable {eng : Engine} {fuel : Nat} {stack : List PromiseId} {name : String} {env : FrameId}
  {mask : Option Mask} {v : Value} {s t : State}

structure Heap.Forced (h : Heap) (stack : List PromiseId) (name : String) (p : PromiseId) (v : Value)
    (h' : Heap) : Prop where
  under : h'.Under stack
  develops : h.Develops h'
  keeps : h.KeepsName name h'
  recorded : (h'.promise p).value? = some v

theorem force_forced (hhost : eng.host.Spares name) (hs : s.heap.Under stack) {p : PromiseId}
    (hp : p < s.heap.promises.size) (hv : force (evaluate eng fuel) p s = .ok v t) :
    s.heap.Forced stack name p v t.heap := by
  have hdevelops := (Lockstep.related_ofInvariant_iff.1
    ((evaluateTracked_related eng (evaluate eng fuel) fuel stack s.heap).right.force p)
      s ⟨hs, .refl _⟩).2
  have hkeeps := force_keepsName hhost fuel p s
  rw [hv] at hdevelops hkeeps
  exact ⟨hdevelops.1, hdevelops.2, hkeeps, force_records hs hp hv⟩

structure Heap.HasBindings (h : Heap) (name : String) (chain : List FrameId) : Prop where
  frame : ∀ f ∈ chain, f < h.frames.size
  promise : ∀ f ∈ chain, ∀ p, h.binding? f name = some (.promise p) → p < h.promises.size

theorem Heap.HasBindings.tail {h : Heap} {f : FrameId} {rest : List FrameId}
    (hc : h.HasBindings name (f :: rest)) : h.HasBindings name rest where
  frame g hg := hc.frame g (List.mem_cons_of_mem f hg)
  promise g hg := hc.promise g (List.mem_cons_of_mem f hg)

theorem Heap.Closed.hasBindings {h : Heap} (hc : h.Closed) (henv : env < h.frames.size) :
    h.HasBindings name (h.chain env) where
  frame := hc.chain henv
  promise f _ _ hp := (hc.bindings f name _ hp).1

theorem findFunction_stays (hhost : eng.host.Spares name) {h₀ : Heap} {chain : List FrameId}
    (hchain : h₀.HasBindings name chain) (hs : s.heap.Under stack)
    (hkeeps : h₀.KeepsName name s.heap) (hsize : h₀.promises.size ≤ s.heap.promises.size)
    (hv : findFunction (evaluate eng fuel) name chain s = .ok v t) :
    h₀.KeepsName name t.heap ∧ s.heap.Develops t.heap ∧ t.heap.functionIn? name chain = some v := by
  induction chain generalizing s with
  | nil => cases hv
  | cons f rest ih =>
    have hf := hchain.frame f List.mem_cons_self
    simp only [findFunction, Eval.heap_bind_apply, hkeeps.binding f hf] at hv
    cases hb : h₀.binding? f name with
    | none =>
      rw [hb] at hv
      obtain ⟨hkeeps, hdevelops, hfound⟩ := ih hchain.tail hs hkeeps hsize hv
      exact ⟨hkeeps, hdevelops, by simp [Heap.functionIn?, hkeeps.binding f hf, hb, hfound]⟩
    | some b =>
      rw [hb] at hv
      cases b with
      | dots _ | missing =>
        obtain ⟨hkeeps, hdevelops, hfound⟩ := ih hchain.tail hs hkeeps hsize hv
        exact ⟨hkeeps, hdevelops, by simp [Heap.functionIn?, hkeeps.binding f hf, hb, hfound]⟩
      | value w =>
        dsimp only at hv
        split at hv
        · rename_i hw
          cases hv
          exact ⟨hkeeps, .refl _, by simp [Heap.functionIn?, hkeeps.binding f hf, hb, hw]⟩
        · rename_i hw
          obtain ⟨hkeeps, hdevelops, hfound⟩ := ih hchain.tail hs hkeeps hsize hv
          exact ⟨hkeeps, hdevelops,
            by simp [Heap.functionIn?, hkeeps.binding f hf, hb, hw, hfound]⟩
      | promise p =>
        obtain ⟨w, u, hw, hv⟩ := Eval.bind_eq_ok.1 hv
        have hp := Nat.lt_of_lt_of_le (hchain.promise f List.mem_cons_self p hb) hsize
        have hforced := force_forced hhost hs hp hw
        have hkeeps := hkeeps.trans hforced.keeps
        split at hv
        · rename_i hcallable
          cases hv
          refine ⟨hkeeps, hforced.develops, ?_⟩
          simp [Heap.functionIn?, hkeeps.binding f hf, hb, hforced.recorded, hcallable]
        · rename_i hcallable
          have hsize := Nat.le_trans hsize hforced.develops.promises
          obtain ⟨hkeeps, hdevelops, hfound⟩ := ih hchain.tail hforced.under hkeeps hsize hv
          refine ⟨hkeeps, hforced.develops.trans hdevelops, ?_⟩
          simp [Heap.functionIn?, hkeeps.binding f hf, hb, hdevelops.value hforced.recorded,
            hcallable, hfound]

/-- To look a head up cannot bind its name anew: no promise that the name is bound to is pending, or
the specials of the host spare the name. -/
def Engine.KeepsHead (eng : Engine) (h : Heap) (env : FrameId) (head : Tree) : Prop :=
  ∀ name, head = .reference name → h.Settled name (h.chain env) ∨
    eng.host.Spares name ∧ h.Closed ∧ env < h.frames.size ∧ ∃ stack, h.Under stack

theorem lookupFunction_stays (hhost : eng.host.Spares name) (hc : s.heap.Closed)
    (henv : env < s.heap.frames.size) (hs : s.heap.Under stack)
    (hv : lookupFunction (evaluate eng fuel) name env mask s = .ok v t) :
    t.heap.function? env mask name = some v := by
  rw [lookupFunction] at hv
  rw [Heap.function?]
  cases hm : (Mask.find? mask name).filter Value.isCallable with
  | some w =>
    rw [hm] at hv
    cases hv
    rfl
  | none =>
    rw [hm] at hv
    obtain ⟨hkeeps, -, hfound⟩ := findFunction_stays hhost (hc.hasBindings henv) hs (.refl s.heap)
      (Nat.le_refl _) hv
    rw [hkeeps.chain henv]
    exact hfound

theorem isSpecialHead_of_builtin {head : Tree} {b : Builtin} (hkeeps : eng.KeepsHead s.heap env head)
    (hhead : resolveHead (evaluate eng fuel) head env mask s = .ok (.builtin b) t) :
    t.heap.isSpecialHead env mask head = false := by
  cases head with
  | literal w =>
    cases fuel with
    | zero => cases hhead
    | succ fuel =>
      rw [resolveHead_literal] at hhead
      split at hhead
      · cases hhead
        rfl
      · cases hhead
  | reference name =>
    rw [Heap.isSpecialHead_reference]
    suffices hfound : t.heap.function? env mask name = some (.builtin b) by
      rw [hfound]
      rfl
    rcases hkeeps name rfl with hsettled | ⟨hhost, hc, henv, stack, hs⟩
    · rw [resolveHead_of_settled hsettled] at hhead
      split at hhead
      · rename_i hfound
        cases hhead
        exact hfound
      · cases hhead
    · exact lookupFunction_stays hhost hc henv hs hhead
  | _ => rfl

/-- A call of a built-in function in which no marker is in reach hands over the values of its
arguments. Where one is, the call fails with the first of them in the state in which the head was
looked up, unless the head is known to be a special by then: in that case the arguments are evaluated
all the same. That cannot be if looking the head up does not bind its name anew. -/
theorem builtinCall_reports_first_marker {head : Tree} {args : List Slot} {b : Builtin} {s₁ : State}
    (hdepth : s.depth < eng.maxDepth)
    (hhead : resolveHead (evaluate eng fuel) head env mask
      (s.entering eng.trace (.call head args)) = .ok (.builtin b) s₁) :
    let special := s₁.heap.isSpecialHead env mask
    let reachable := head.openMarkers special ++ Slot.openMarkers special args
    let call := evaluate eng (fuel + 1) (.call head args) env mask s
    let applied := Outcome.leave
      (Outcome.follow (evalSlots (evaluate eng fuel) env mask args s₁) (runBuiltin eng b) id)
    (reachable = [] → call = applied) ∧
      (∀ m, reachable.head? = some m → special head = false →
        call = .error (.failed (.unresolvedMarker m.kind)) (s₁.mapDepth (· - 1))) ∧
      (special head = true → call = applied) ∧
      (eng.KeepsHead s.heap env head → special head = false) := by
  intro special reachable call applied
  have hcall : call = _ := evaluate_builtinCall hdepth hhead
  have hopen : (Tree.call head args).openMarkers special =
      if special head then [] else reachable := rfl
  rw [(exposed?_parts_eq_head? s₁.heap env mask).1, hopen] at hcall
  refine ⟨?silent, ?rejected, ?unchecked, ?kept⟩
  case silent =>
    intro hnone
    rw [hcall, hnone, ite_self]
    rfl
  case rejected =>
    intro m hm hspecial
    rw [hcall, hspecial, if_neg Bool.false_ne_true, hm]
    rfl
  case unchecked =>
    intro hspecial
    rw [hcall, hspecial, if_pos rfl]
    rfl
  case kept =>
    intro hkeeps
    refine isSpecialHead_of_builtin ?_ hhead
    rw [State.heap_entering]
    exact hkeeps

end

theorem builtinCall_reports_splice :
    let eng : Engine := { host := Session.host }
    let call : Tree := .callNamed "identity"
      [.callNamed "quote" [.unquote (.reference "x")], .callNamed "capture" [.splice (.reference "x")]]
    let s₁ := State.withCallables.entering eng.trace call
    resolveHead (evaluate eng 6) (.reference "identity") 0 none s₁ =
        .ok (.builtin ⟨.identity, 3⟩) s₁ ∧
      evaluate eng 7 call 0 none .withCallables =
        .error (.failed (.unresolvedMarker .splice)) (s₁.mapDepth (· - 1)) := by
  intro eng call s₁
  have hhead : resolveHead (evaluate eng 6) (.reference "identity") 0 none s₁ =
      .ok (.builtin ⟨.identity, 3⟩) s₁ := rfl
  have hdepth : State.withCallables.depth < eng.maxDepth := by decide
  have hsettled : State.withCallables.heap.Settled "identity" [0] := by
    rintro f (_ | ⟨_, ⟨⟩⟩) p hp
    cases hp
  obtain ⟨-, hrejected, -, hkept⟩ := builtinCall_reports_first_marker hdepth hhead
  have hkept := hkept fun name hname => .inl (by cases hname; exact hsettled)
  exact ⟨hhead, hrejected (.splice (.reference "x")) rfl hkept⟩

def State.withRebinding : State where
  heap :=
    let rebinding : Tree := .callNamed "list"
      [.callNamed "assign" [.reference "identity", .reference "quote"]]
    let h := (({} : Heap).newFrame none false).2
    let h := h.define 0 "list" (.builtin ⟨.list, 1⟩)
    let h := h.define 0 "identity" (.builtin ⟨.identity, 2⟩)
    let h := h.define 0 "quote" (.special ⟨.quote, 3⟩)
    let h := h.define 0 "tick" (.builtin ⟨.host "tick", 4⟩)
    let h := h.define 0 "assign" (.special ⟨.host "assign", 5⟩)
    let h := (h.newFrame (some 0) false).2
    let h := (h.newPromise { expr := rebinding, env := 1, mask := none }).2
    h.bind 1 "identity" (.promise 0)

/-- The head stands for a built-in function and a marker is in reach, but an argument before it has
run when the call fails. -/
theorem rebound_head_unchecked :
    let eng : Engine := { host := Session.host }
    let args := [Named.positional (.callNamed "tick" []), .positional (.unquote (.reference "x"))]
    let call : Tree := .call (.reference "identity") args
    ∃ s₁ t, resolveHead (evaluate eng 8) (.reference "identity") 1 none
        (State.withRebinding.entering eng.trace call) = .ok (.builtin ⟨.identity, 2⟩) s₁ ∧
      (Slot.openMarkers (s₁.heap.isSpecialHead 1 none) args).head? =
        some (.unquote (.reference "x")) ∧
      s₁.world.ticks = 0 ∧
      evaluate eng 9 call 1 none .withRebinding = .error (.failed (.unresolvedMarker .unquote)) t ∧
      t.world.ticks = 1 := by
  intro eng args call
  let r : Outcome Value := resolveHead (evaluate eng 8) (.reference "identity") 1 none
    (State.withRebinding.entering eng.trace call)
  let r' : Outcome Value := evaluate eng 9 call 1 none .withRebinding
  have hvalue : r.value? = some (.builtin ⟨.identity, 2⟩) := rfl
  have hhalt : r'.halt? = some (.failed (.unresolvedMarker .unquote)) := by decide +kernel
  refine ⟨r.state, r'.state, Outcome.eq_ok_of_value? hvalue, ?_, ?_, Outcome.eq_error_of_halt? hhalt,
    ?_⟩
  · simp [args, Slot.openMarkers, Tree.openMarkers, Tree.callNamed, Named.positional]
  · decide +kernel
  · decide +kernel

end Quotation
