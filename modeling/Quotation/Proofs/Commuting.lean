import Mathlib.Data.List.Induction
import Quotation.Proofs.Commuting.Marks

/-! Captures and evaluation change places. A capture reads what an argument was written as, and that
nothing changes; and but for its record in the log, all that a capture leaves behind are marks, which
only a special of the host could take notice of where the arguments have no markers. So captures that
are spread over a run give what they would have given before it, and the run is what it would have
been without them. -/

namespace Quotation

def Demand.asks? : Demand → Option (FrameId × String)
  | .capture env name => some (env, name)
  | .captureDots env => some (env, dotsName)
  | _ => none

def Demand.isCapture (d : Demand) : Bool := d.asks?.isSome

def Demand.captures : (d : Demand) → d.Answer → List (Capture Tree)
  | .capture _ _, c => [c]
  | .captureDots _, cs => cs.map Named.val
  | .evaluate _ _ _, _ => []
  | .force _, _ => []
  | .arguments _ _ _, _ => []
  | .resolve _ _ _, _ => []
  | .perform _ _, _ => []

def Heap.argument? (h : Heap) (env : FrameId) (name : String) : Option Binding :=
  (h.callFrame? env).bind fun f => h.binding? f name

theorem Heap.argument?_eq {h : Heap} {env f : FrameId} {name : String}
    (hf : h.callFrame? env = some f) : h.argument? env name = h.binding? f name := by
  rw [argument?, hf]
  rfl

theorem Heap.argument?_eq_none {h : Heap} {env : FrameId} {name : String}
    (hf : h.callFrame? env = none) : h.argument? env name = none := by
  rw [argument?, hf]
  rfl

/-- The promises that a capture takes. -/
def Demand.captives (h : Heap) : Demand → List PromiseId
  | .capture env name =>
    match h.argument? env name with
    | some (.promise p) => [p]
    | _ => []
  | .captureDots env =>
    match h.argument? env dotsName with
    | some (.dots args) => args.map Named.val
    | _ => []
  | _ => []

def Heap.capture (h : Heap) (p : PromiseId) : Capture Tree := ⟨(h.promise p).expr, (h.promise p).env⟩

/-- A capture gives the trees of the promises that it takes, or it fails and takes none. It marks
those promises as captured, and but for its record in the log it leaves the state as it was. -/
structure Demand.Captures (d : Demand) (name : String) (s : State) (r : Outcome d.Answer) : Prop where
  returned : ∀ a, Outcome.value? r = some a →
    d.captures a = (d.captives s.heap).map s.heap.capture
  failed : Outcome.value? r = none → d.captives s.heap = []
  state : Outcome.state r = (s.record ⟨.debug, "deferred capture of `" ++ name ++ "`"⟩).mapHeap
    (·.markAll (d.captives s.heap))

section

variable {eng : Engine} {ev : Evaluator} {s s' : State} {d : Demand} {env f : FrameId}
  {name : String}

@[simp] theorem State.heap_record (s : State) (r : Log.Record) : (s.record r).heap = s.heap := rfl

theorem captureAll_apply (args : List (Named PromiseId)) (s : State) :
    captureAll args s = .ok (args.map (Named.map s.heap.capture))
      (s.mapHeap (·.markAll (args.map Named.val))) := by
  induction args generalizing s with
  | nil => rfl
  | cons a rest ih =>
    have hkept : (s.heap.markCaptured a.val).capture = s.heap.capture := by
      funext p
      simp only [Heap.capture, Heap.markCaptured, Heap.promise_modifyPromise]
      split
      · rename_i hp
        rw [hp.1]
      · rfl
    rw [captureAll, Eval.bind_apply, capturePromise, Eval.onHeap_apply, Outcome.follow_ok_eval,
      Eval.bind_apply, ih]
    simp only [State.mapHeap, hkept]
    rfl

theorem Demand.Captures.fail (hnone : d.captives s.heap = []) (e : Error) :
    d.Captures name s
      (.error (.failed e) (s.record ⟨.debug, "deferred capture of `" ++ name ++ "`"⟩)) :=
  ⟨nofun, fun _ => hnone, by rw [hnone]; rfl⟩

theorem captureParameter_captures (env : FrameId) (name : String) (s : State) :
    (Demand.capture env name).Captures name s (captureParameter env name s) := by
  rw [captureParameter, Eval.debug_heap_apply]
  cases hframe : s.heap.callFrame? env with
  | none => exact .fail (by rw [Demand.captives, Heap.argument?_eq_none hframe]) _
  | some f =>
    dsimp only
    cases hb : s.heap.binding? f name with
    | none => exact .fail (by rw [Demand.captives, Heap.argument?_eq hframe, hb]) _
    | some b =>
      cases b with
      | promise p =>
        have hcaptives : (Demand.capture env name).captives s.heap = [p] := by
          rw [Demand.captives, Heap.argument?_eq hframe, hb]
        refine ⟨fun a ha => ?_, nofun, ?_⟩
        · cases ha
          rw [hcaptives]
          rfl
        · rw [hcaptives]
          rfl
      | value _ | dots _ | missing =>
        exact .fail (by rw [Demand.captives, Heap.argument?_eq hframe, hb]) _

theorem captureDots_captures (env : FrameId) (s : State) :
    (Demand.captureDots env).Captures dotsName s (captureDots env s) := by
  rw [captureDots, Eval.debug_heap_apply]
  cases hframe : s.heap.callFrame? env with
  | none => exact .fail (by rw [Demand.captives, Heap.argument?_eq_none hframe]) _
  | some f =>
    dsimp only
    cases hb : s.heap.binding? f dotsName with
    | none => exact .fail (by rw [Demand.captives, Heap.argument?_eq hframe, hb]) _
    | some b =>
      cases b with
      | dots args =>
        have hcaptives : (Demand.captureDots env).captives s.heap = args.map Named.val := by
          rw [Demand.captives, Heap.argument?_eq hframe, hb]
        dsimp only
        rw [captureAll_apply]
        refine ⟨fun a ha => ?_, nofun, ?_⟩
        · cases ha
          simp [Demand.captures, hcaptives, Named.map]
        · rw [hcaptives]
          rfl
      | value _ | promise _ | missing =>
        exact .fail (by rw [Demand.captives, Heap.argument?_eq hframe, hb]) _

theorem answer_captures (hd : d.asks? = some (env, name)) :
    d.Captures name s (answer eng ev d s) := by
  cases d with
  | capture env name =>
    cases hd
    exact captureParameter_captures env name s
  | captureDots env =>
    cases hd
    exact captureDots_captures env s
  | _ => cases hd

theorem answer_sameCapture (hd : d.asks? = some (env, name))
    (hframe : s'.heap.callFrame? env = s.heap.callFrame? env)
    (hbinding : ∀ f, s.heap.callFrame? env = some f →
      s'.heap.binding? f name = s.heap.binding? f name)
    (hcapture : ∀ p ∈ d.captives s.heap, s'.heap.capture p = s.heap.capture p) :
    Outcome.value? (answer eng ev d s') = Outcome.value? (answer eng ev d s) ∧
      Outcome.halt? (answer eng ev d s') = Outcome.halt? (answer eng ev d s) := by
  cases d with
  | capture env name =>
    cases hd
    rw [answer, captureParameter, Eval.debug_heap_apply, Eval.debug_heap_apply, hframe]
    cases hf : s.heap.callFrame? env with
    | none => exact ⟨rfl, rfl⟩
    | some f =>
      dsimp only
      rw [hbinding f hf]
      cases hb : s.heap.binding? f name with
      | none => exact ⟨rfl, rfl⟩
      | some b =>
        cases b with
        | promise p =>
          have hp : p ∈ (Demand.capture env name).captives s.heap := by
            rw [Demand.captives, Heap.argument?_eq hf, hb]
            exact List.mem_singleton_self p
          exact ⟨congrArg some (hcapture p hp), rfl⟩
        | value _ | dots _ | missing => exact ⟨rfl, rfl⟩
  | captureDots env =>
    cases hd
    rw [answer, captureDots, Eval.debug_heap_apply, Eval.debug_heap_apply, hframe]
    cases hf : s.heap.callFrame? env with
    | none => exact ⟨rfl, rfl⟩
    | some f =>
      dsimp only
      rw [hbinding f hf]
      cases hb : s.heap.binding? f dotsName with
      | none => exact ⟨rfl, rfl⟩
      | some b =>
        cases b with
        | dots args =>
          have hcaptives : (Demand.captureDots env).captives s.heap = args.map Named.val := by
            rw [Demand.captives, Heap.argument?_eq hf, hb]
          have hargs : ∀ a ∈ args, s'.heap.capture a.val = s.heap.capture a.val := fun a ha =>
            hcapture a.val (hcaptives ▸ List.mem_map_of_mem ha)
          dsimp only
          rw [captureAll_apply, captureAll_apply]
          refine ⟨congrArg some (List.map_congr_left fun a ha => ?_), rfl⟩
          simp only [Named.map, State.heap_record, hargs a ha]
        | value _ | promise _ | missing => exact ⟨rfl, rfl⟩
  | _ => cases hd

end

structure Heap.KeepsFrames (h h' : Heap) : Prop where
  frames : h.frames.size ≤ h'.frames.size
  enclosing : ∀ f < h.frames.size, (h'.frame f).enclosing = (h.frame f).enclosing
  isCall : ∀ f < h.frames.size, (h'.frame f).isCall = (h.frame f).isCall

namespace Heap

variable {h h' : Heap} {f env : FrameId} {name : String}

theorem isCall_rebind (b : Option Binding) :
    ((h.rebind f name b).frame env).isCall = (h.frame env).isCall := by
  have hmodify : ∀ k : Frame → Frame, (∀ fr, (k fr).isCall = fr.isCall) →
      ((h.modifyFrame f k).frame env).isCall = (h.frame env).isCall := by
    intro k hk
    rw [frame_modifyFrame]
    split
    · rename_i hf
      rw [hk, hf.1]
    · rfl
  cases b <;> exact hmodify _ fun _ => rfl

theorem keepsFrames_invariant (h₀ : Heap) : HeapInvariant h₀.KeepsFrames where
  capture hh _ := ⟨hh.frames, hh.enclosing, hh.isCall⟩
  promise hh _ _ _ := ⟨hh.frames, hh.enclosing, hh.isCall⟩
  frame {h} hh parent isCall := by
    have hframe : ∀ f < h₀.frames.size, (h.newFrame parent isCall).2.frame f = h.frame f := by
      intro f hf
      rw [frame_newFrame, if_neg (Nat.ne_of_lt (Nat.lt_of_lt_of_le hf hh.frames))]
    refine ⟨?_, fun f hf => ?_, fun f hf => ?_⟩
    · rw [size_frames_newFrame]
      exact Nat.le_succ_of_le hh.frames
    · rw [hframe f hf, hh.enclosing f hf]
    · rw [hframe f hf, hh.isCall f hf]
  rebind hh f name b := by
    refine ⟨?_, fun g hg => ?_, fun g hg => ?_⟩
    · rw [size_frames_rebind]
      exact hh.frames
    · rw [enclosing_rebind, hh.enclosing g hg]
    · rw [isCall_rebind, hh.isCall g hg]

instance (eng : Engine) (h₀ : Heap) :
    (Lockstep.ofInvariant eng (keepsFrames_invariant h₀)).Forces :=
  Lockstep.forces_ofInvariant fun hh _ =>
    ⟨⟨hh.frames, hh.enclosing, hh.isCall⟩, fun _ => ⟨hh.frames, hh.enclosing, hh.isCall⟩,
      ⟨hh.frames, hh.enclosing, hh.isCall⟩⟩

theorem lt_of_callFrame? (hf : h.callFrame? env = some f) : env < h.frames.size := by
  by_cases henv : env < h.frames.size
  · exact henv
  · have hdefault := h.frame_of_size_le env (Nat.le_of_not_lt henv)
    have hcall : (default : Frame).isCall = false := rfl
    have henclosing : (default : Frame).enclosing = [] := rfl
    simp [callFrame?, chain, hdefault, hcall, henclosing] at hf

theorem KeepsFrames.callFrame? (hk : h.KeepsFrames h') (hclosed : h.Closed)
    (hf : h.callFrame? env = some f) : h'.callFrame? env = h.callFrame? env := by
  have henv := lt_of_callFrame? hf
  have hchain : h'.chain env = h.chain env := congrArg (env :: ·) (hk.enclosing env henv)
  rw [Heap.callFrame?, Heap.callFrame?, hchain]
  have hsame : ∀ l : List FrameId, (∀ g ∈ l, g < h.frames.size) →
      l.find? (fun g => (h'.frame g).isCall) = l.find? fun g => (h.frame g).isCall := by
    intro l hl
    induction l with
    | nil => rfl
    | cons g rest ih =>
      obtain ⟨hg, hrest⟩ := List.forall_mem_cons.1 hl
      rw [List.find?_cons, List.find?_cons, hk.isCall g hg, ih hrest]
  exact hsame _ (hclosed.chain henv)

end Heap

/-- The state after some demands, each made in the state that the one before has left, whether it
succeeded or not. -/
def State.after (eng : Engine) (fuel : Nat) (s : State) (demands : List Demand) : State :=
  demands.foldl (fun t d => Outcome.state (answer eng (evaluate eng fuel) d t)) s

section

variable {eng : Engine} {fuel : Nat} {s : State} {f : FrameId} {demands : List Demand}

theorem State.after_snoc (before : List Demand) (d : Demand) :
    s.after eng fuel (before ++ [d]) =
      Outcome.state (answer eng (evaluate eng fuel) d (s.after eng fuel before)) := by
  rw [State.after, List.foldl_append]
  rfl

theorem State.after_invariant {I : Heap → Prop} (hI : HeapInvariant I)
    [(Lockstep.ofInvariant eng hI).Forces] (hs : I s.heap) (demands : List Demand) :
    I (s.after eng fuel demands).heap := by
  have hev : (Lockstep.ofInvariant eng hI).RelatedEvaluators _ _ := evaluate_related fuel
  induction demands using List.reverseRecOn with
  | nil => exact hs
  | append_singleton before d ih =>
    rw [State.after_snoc]
    exact (Lockstep.related_ofInvariant_iff.1 (answer_related hev d) _ ih).2

theorem State.after_keepsTrees (demands : List Demand) :
    s.heap.KeepsTrees (s.after eng fuel demands).heap :=
  State.after_invariant (Heap.keepsTrees_invariant s.heap) (.refl _) demands

theorem State.after_keepsFrames (demands : List Demand) :
    s.heap.KeepsFrames (s.after eng fuel demands).heap :=
  State.after_invariant (Heap.keepsFrames_invariant s.heap)
    ⟨Nat.le_refl _, fun _ _ => rfl, fun _ _ => rfl⟩ demands

/-- The captures among some demands are made in places that the call of the frame is around, and
each finds the name that it asks for bound in the frame to what it was bound to at first. -/
structure State.Undisturbed (eng : Engine) (fuel : Nat) (s : State) (f : FrameId)
    (demands : List Demand) : Prop where
  call : ∀ d ∈ demands, ∀ env name, d.asks? = some (env, name) → s.heap.callFrame? env = some f
  names : ∀ before d after, demands = before ++ d :: after →
    ∀ env name, d.asks? = some (env, name) →
      (s.after eng fuel before).heap.binding? f name = s.heap.binding? f name

def Binding.promises : Binding → List PromiseId
  | .promise p => [p]
  | .dots args => args.map Named.val
  | .value _ => []
  | .missing => []

/-- What was supplied to the call of a frame has no markers. -/
def Heap.SuppliesUnmarked (h : Heap) (f : FrameId) : Prop :=
  ∀ name b, h.binding? f name = some b → ∀ p ∈ b.promises, (h.promise p).expr.hasMarkers = false

theorem Demand.mem_captives {h : Heap} {d : Demand} {p : PromiseId} (hp : p ∈ d.captives h) :
    ∃ env name g b, d.asks? = some (env, name) ∧ h.callFrame? env = some g ∧
      h.binding? g name = some b ∧ p ∈ b.promises := by
  have hfound : ∀ env name b, h.argument? env name = some b →
      ∃ g, h.callFrame? env = some g ∧ h.binding? g name = some b := fun env name b hb =>
    Option.bind_eq_some_iff.1 hb
  cases d with
  | capture env name =>
    simp only [captives] at hp
    split at hp
    · rename_i q hb
      obtain ⟨g, hframe, hb⟩ := hfound env name _ hb
      exact ⟨env, name, g, _, rfl, hframe, hb, hp⟩
    · cases hp
  | captureDots env =>
    simp only [captives] at hp
    split at hp
    · rename_i args hb
      obtain ⟨g, hframe, hb⟩ := hfound env dotsName _ hb
      exact ⟨env, dotsName, g, _, rfl, hframe, hb, hp⟩
    · cases hp
  | _ => cases hp

theorem Demand.captives_of_not_capture {h : Heap} {d : Demand} (hd : d.isCapture = false) :
    d.captives h = [] := by
  cases d with
  | capture env name => cases hd
  | captureDots env => cases hd
  | _ => rfl

theorem Demand.captives_congr {h h' : Heap} {d : Demand}
    (hsame : ∀ env name, d.asks? = some (env, name) → h'.argument? env name = h.argument? env name) :
    d.captives h' = d.captives h := by
  cases d with
  | capture env name => rw [captives, captives, hsame env name rfl]
  | captureDots env => rw [captives, captives, hsame env dotsName rfl]
  | _ => rfl

namespace State.Undisturbed

variable (hrun : s.Undisturbed eng fuel f demands) (hclosed : s.heap.Closed)
  {before after : List Demand} {d : Demand}

include hrun hclosed

theorem captives (hdemands : demands = before ++ d :: after) :
    d.captives (s.after eng fuel before).heap = d.captives s.heap := by
  refine Demand.captives_congr fun env name hd => ?_
  have hcall := hrun.call d (by simp [hdemands]) env name hd
  rw [Heap.argument?, Heap.argument?, (after_keepsFrames before).callFrame? hclosed hcall, hcall]
  exact hrun.names before d after hdemands env name hd

omit hrun in
theorem captive_lt {d : Demand} {p : PromiseId} (hp : p ∈ d.captives s.heap) :
    p < s.heap.promises.size := by
  obtain ⟨env, name, g, b, -, -, hb, hp⟩ := Demand.mem_captives hp
  have hwithin := (hclosed.bindings g name b hb).1
  cases b with
  | promise q => exact List.mem_singleton.1 hp ▸ hwithin
  | dots args =>
    obtain ⟨a, ha, rfl⟩ := List.mem_map.1 hp
    exact hwithin a ha
  | value _ | missing => cases hp

theorem unmarked (hmarkers : s.heap.SuppliesUnmarked f) (hdemands : demands = before ++ after)
    (others : List Demand) :
    (s.after eng fuel others).heap.Unmarked (before.flatMap (·.captives s.heap)) := by
  intro p hp
  obtain ⟨d, hmem, hp⟩ := List.mem_flatMap.1 hp
  have hsize := captive_lt hclosed hp
  obtain ⟨env, name, g, b, hd, hframe, hb, hp⟩ := Demand.mem_captives hp
  have hcall := hrun.call d (by simp [hdemands, hmem]) env name hd
  obtain rfl : f = g := Option.some.inj (hcall.symm.trans hframe)
  have hkept : s.heap.KeepsTrees (s.after eng fuel others).heap := after_keepsTrees others
  refine ⟨Nat.lt_of_lt_of_le hsize hkept.promises, ?_⟩
  rw [(hkept.promise p hsize).expr]
  exact hmarkers name b hb p hp

theorem marked (hhost : eng.host.IgnoresCaptures) (hmarkers : s.heap.SuppliesUnmarked f)
    (hdemands : demands = before ++ after) :
    State.Marked (before.flatMap (·.captives s.heap))
      (s.after eng fuel (before.filter fun d => !d.isCapture)) (s.after eng fuel before) := by
  induction before using List.reverseRecOn generalizing after with
  | nil => exact ⟨rfl, rfl, rfl⟩
  | append_singleton before d ih =>
    rw [List.append_assoc] at hdemands
    have hbefore := ih hdemands
    rw [State.after_snoc, List.flatMap_append, List.flatMap_singleton, List.filter_append]
    cases hd : d.isCapture with
    | true =>
      obtain ⟨⟨env, name⟩, hasks⟩ := Option.isSome_iff_exists.1 hd
      have hstate : Outcome.state (answer eng (evaluate eng fuel) d (s.after eng fuel before)) = _ :=
        (answer_captures hasks).state
      rw [hrun.captives hclosed hdemands] at hstate
      rw [List.filter_singleton, hd, Bool.not_true, cond_false, List.append_nil, hstate]
      refine ⟨?_, hbefore.depth, hbefore.world⟩
      rw [Heap.markAll_append, ← hbefore.heap]
      rfl
    | false =>
      rw [Demand.captives_of_not_capture hd, List.append_nil, List.filter_singleton, hd,
        Bool.not_false, cond_true, State.after_snoc]
      exact (answer_marked hhost hbefore (hrun.unmarked hclosed hmarkers hdemands _) d).state

end State.Undisturbed

/-- Captures and other demands commute. What was supplied to a call has no markers, and captures of
it are made in the course of a run in which the names asked for stay bound to it. Then each capture
gives what it would have given at first, and every other demand, such as forcing one of the
arguments, comes to the same as in the run without the captures: the same value or the same error,
the same effects, and the same records. For that the specials of the host must not look for what is
captured; those of the engine do not. A capture that succeeds marks the promises that it returns,
one that fails marks none, and it does nothing else but for its record in the log. -/
theorem captures_commute (hhost : eng.host.IgnoresCaptures) (hclosed : s.heap.Closed)
    (hmarkers : s.heap.SuppliesUnmarked f) (hrun : s.Undisturbed eng fuel f demands)
    {before after : List Demand} {d : Demand} (hdemands : demands = before ++ d :: after) :
    let act : Eval d.Answer := answer eng (evaluate eng fuel) d
    let now : State := s.after eng fuel before
    let uncaptured : State := s.after eng fuel (before.filter fun d => !d.isCapture)
    Outcome.MarkedSince (before.flatMap (·.captives s.heap)) uncaptured.log now.log
        (act uncaptured) (act now) ∧
    ∀ env name, d.asks? = some (env, name) →
      Outcome.value? (act now) = Outcome.value? (act s) ∧
        Outcome.halt? (act now) = Outcome.halt? (act s) ∧ d.Captures name now (act now) := by
  intro act now uncaptured
  constructor
  · exact answer_marked hhost (hrun.marked hclosed hhost hmarkers hdemands)
      (hrun.unmarked hclosed hmarkers hdemands _) d
  · intro env name hd
    have hcall := hrun.call d (by simp [hdemands]) env name hd
    have hcapture : ∀ p ∈ d.captives s.heap, now.heap.capture p = s.heap.capture p := by
      intro p hp
      have hkept : s.heap.KeepsTrees now.heap := State.after_keepsTrees before
      have htree := hkept.promise p (State.Undisturbed.captive_lt hclosed hp)
      rw [Heap.capture, Heap.capture, htree.expr, htree.env]
    have hbinding : ∀ g, s.heap.callFrame? env = some g →
        now.heap.binding? g name = s.heap.binding? g name := by
      intro g hg
      obtain rfl : f = g := Option.some.inj (hcall.symm.trans hg)
      exact hrun.names before d after hdemands env name hd
    have hframe : now.heap.callFrame? env = s.heap.callFrame? env :=
      (State.after_keepsFrames before).callFrame? hclosed hcall
    obtain ⟨hvalue, hhalt⟩ := answer_sameCapture hd hframe hbinding hcapture
    exact ⟨hvalue, hhalt, answer_captures hd⟩

end

def State.withArguments : State where
  heap :=
    let h := (({} : Heap).newFrame none false).2
    let h := h.define 0 "enexpr" (.special ⟨.enexpr, 5⟩)
    let h := h.define 0 "tick" (.builtin ⟨.host "tick", 7⟩)
    let h := (h.newFrame (some 0) true).2
    let h := (h.newPromise { expr := .callNamed "tick" [], env := 0, mask := none }).2
    let capturing : Tree := .callNamed "enexpr" [.reference "a"]
    let h := (h.newPromise { expr := capturing, env := 1, mask := none }).2
    let h := h.bind 1 "a" (.promise 0)
    h.bind 1 dotsName (.dots [⟨some "b", 1⟩, ⟨none, 0⟩])

theorem State.withArguments_closed : State.withArguments.heap.Closed := by
  have henexpr := Heap.Closed.root.define 0 "enexpr" (v := .special ⟨.enexpr, 5⟩) (Nat.zero_le _)
  have htick := henexpr.define 0 "tick" (v := .builtin ⟨.host "tick", 7⟩) (Nat.zero_le _)
  have hcall := htick.newFrame
    (fun f (h : some 0 = some f) => Option.some.inj h ▸ Nat.zero_lt_one) true
  have hcounting : Promise.Within 2 { expr := .callNamed "tick" [], env := 0, mask := none } :=
    ⟨Nat.zero_lt_two, Nat.zero_le _, Mask.within_none, nofun⟩
  have hcapturing :
      Promise.Within 2 { expr := .callNamed "enexpr" [.reference "a"], env := 1, mask := none } :=
    ⟨Nat.one_lt_two, Nat.zero_le _, Mask.within_none, nofun⟩
  have hpromises := (hcall.newPromise hcounting).newPromise hcapturing
  have ha := hpromises.rebind 1 "a" (b := some (.promise 0)) fun _ h =>
    Option.some.inj h ▸ ⟨Nat.zero_lt_two, nofun⟩
  refine ha.rebind 1 dotsName (b := some (.dots [⟨some "b", 1⟩, ⟨none, 0⟩])) fun _ h => ?_
  cases h
  exact ⟨List.forall_mem_cons.2 ⟨Nat.one_lt_two, List.forall_mem_singleton.2 Nat.zero_lt_two⟩,
    nofun⟩

theorem State.withArguments_unmarked (p : PromiseId) :
    (State.withArguments.heap.promise p).expr.hasMarkers = false := by
  rcases p with _ | _ | p
  · rfl
  · rfl
  · rw [Heap.promise_of_size_le (Nat.le_add_left 2 p)]
    rfl

def Demand.interleaved : List Demand :=
  [.capture 1 "a", .force 1, .captureDots 1, .force 0, .capture 1 "a"]

theorem State.withArguments_undisturbed :
    State.Undisturbed { host := Session.host } 8 .withArguments 1 Demand.interleaved where
  call d hd env name hasks := by
    simp only [Demand.interleaved, List.mem_cons, List.not_mem_nil, or_false] at hd
    rcases hd with rfl | rfl | rfl | rfl | rfl <;> cases hasks <;> rfl
  names before d after h env name hasks := by
    rcases before with _ | ⟨_, _ | ⟨_, _ | ⟨_, _ | ⟨_, _ | ⟨_, rest⟩⟩⟩⟩⟩ <;>
      simp only [Demand.interleaved, List.nil_append, List.cons_append, List.cons.injEq] at h
    · obtain ⟨rfl, -⟩ := h
      cases hasks
      rfl
    · obtain ⟨-, rfl, -⟩ := h
      cases hasks
    · obtain ⟨rfl, rfl, rfl, -⟩ := h
      cases hasks
      rfl
    · obtain ⟨-, -, -, rfl, -⟩ := h
      cases hasks
    · obtain ⟨rfl, rfl, rfl, rfl, rfl, -⟩ := h
      cases hasks
      rfl
    · simp at h

theorem captured_between_forces :
    let eng : Engine := { host := Session.host }
    let run : List Demand → State := State.after eng 8 .withArguments
    let dots : Eval (List (Named (Capture Tree))) := answer eng (evaluate eng 8) (.captureDots 1)
    let force : Eval Value := answer eng (evaluate eng 8) (.force 0)
    Outcome.value? (dots (run [.capture 1 "a", .force 1])) = Outcome.value? (dots .withArguments) ∧
      Outcome.value? (dots .withArguments) = some [
        ⟨some "b", ⟨.callNamed "enexpr" [.reference "a"], 1⟩⟩, ⟨none, ⟨.callNamed "tick" [], 0⟩⟩] ∧
      Outcome.MarkedSince [0, 1, 0] (run [.force 1]).log
        (run [.capture 1 "a", .force 1, .captureDots 1]).log (force (run [.force 1]))
        (force (run [.capture 1 "a", .force 1, .captureDots 1])) ∧
      (run Demand.interleaved).world.ticks = 1 := by
  intro eng run dots force
  have hcommute := @captures_commute eng 8 .withArguments 1 Demand.interleaved
    Session.host_ignoresCaptures State.withArguments_closed
    (fun _ _ _ p _ => State.withArguments_unmarked p) State.withArguments_undisturbed
  have hdots := @hcommute [.capture 1 "a", .force 1] _ (.captureDots 1) rfl
  have hforce := @hcommute [.capture 1 "a", .force 1, .captureDots 1] _ (.force 0) rfl
  exact ⟨(hdots.2 1 dotsName rfl).1, rfl, hforce.1, by decide +kernel⟩

/-- The host of a session with one special more, which looks whether the first promise is
captured. -/
def Session.watching : Host where
  builtin := Session.host.builtin
  special name call :=
    match name with
    | "captured" => .inspect fun h => .done (.bool (h.promise 0).captured)
    | _ => Session.host.special name call

def State.withWatcher : State :=
  State.withArguments.mapHeap (·.define 0 "tick" (.special ⟨.host "captured", 7⟩))

/-- A special that looks for captures notices that one has been made: forcing the argument gives
another value than without the capture. And a capture leaves a record in the log, whatever the
host. -/
theorem capture_noticed_by_special :
    let eng : Engine := { host := Session.watching }
    let demands : List Demand := [.capture 1 "a", .force 0]
    let force : Eval Value := answer eng (evaluate eng 8) (.force 0)
    let run : List Demand → State := State.after eng 8 .withWatcher
    let plain : Engine := { host := Session.host }
    State.withWatcher.heap.SuppliesUnmarked 1 ∧
      State.Undisturbed eng 8 .withWatcher 1 demands ∧
      Outcome.value? (force (run (([.capture 1 "a"] : List Demand).filter fun d => !d.isCapture))) =
        some (.bool false) ∧
      Outcome.value? (force (run [.capture 1 "a"])) = some (.bool true) ∧
      State.withArguments.log = [] ∧
      (Outcome.state (answer plain (evaluate plain 8) (.capture 1 "a") .withArguments)).log =
        [⟨.debug, "deferred capture of `a`"⟩] := by
  intro eng demands force run plain
  have hrun : State.Undisturbed eng 8 .withWatcher 1 demands := by
    constructor
    case call =>
      intro d hd env name hasks
      simp only [demands, List.mem_cons, List.not_mem_nil, or_false] at hd
      rcases hd with rfl | rfl <;> cases hasks
      rfl
    case names =>
      intro before d after h env name hasks
      rcases before with _ | ⟨_, _ | ⟨_, rest⟩⟩ <;>
        simp only [demands, List.nil_append, List.cons_append, List.cons.injEq] at h
      · obtain ⟨rfl, -⟩ := h
        cases hasks
        rfl
      · obtain ⟨-, rfl, -⟩ := h
        cases hasks
      · simp at h
  exact ⟨fun _ _ _ p _ => State.withArguments_unmarked p, hrun, rfl, rfl, rfl, by decide +kernel⟩

end Quotation
