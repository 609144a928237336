import Quotation.Proofs.Relocation.Steady
import Quotation.Session.Host

/-! Masks that a tree cannot tell apart. A tree without markers reads of a mask no more than the
entries of the names that are written in it. So two masks are alike for a tree if they agree on those
names, and heaps are alike if they differ only in masks of promises that their trees cannot tell
apart. A special is blind to masks if it does nothing with the mask of its call but hand it on with
the trees that it was called with. -/

namespace Quotation

mutual

def Tree.references : Tree → List String
  | .literal _ => []
  | .reference name => [name]
  | .call head args => head.references ++ Slot.references args
  | .pairlist args => Slot.references args
  | .unquote e => e.references
  | .splice e => e.references
  | .define n v => n.references ++ v.references
termination_by structural t => t

def Slot.references : List Slot → List String
  | [] => []
  | ⟨_, t⟩ :: rest => t.references ++ Slot.references rest
termination_by structural l => l

end

theorem Slot.references_subset {l : List Slot} {slot : Slot} (h : slot ∈ l) :
    slot.val.references ⊆ Slot.references l := by
  induction l with
  | nil => cases h
  | cons s rest ih =>
    cases h with
    | head => exact List.subset_append_left _ _
    | tail _ h => exact fun _ hn => List.mem_append_right _ (ih h hn)

theorem Slot.noMarkers_of_mem {l : List Slot} (hl : Slot.anyMarkers l = false) {slot : Slot}
    (h : slot ∈ l) : slot.val.hasMarkers = false := by
  rw [Slot.anyMarkers_eq_any, List.any_eq_false] at hl
  exact Bool.eq_false_iff.2 (hl slot h)

/-- Masks that a tree cannot tell apart: the same one, or, if the tree has no markers, any that have
the same entries for the names in it. -/
inductive Mask.Alike (t : Tree) (m m' : Option Mask) : Prop
  | same : m' = m → Alike t m m'
  | agree : t.hasMarkers = false →
      (∀ name ∈ t.references, Mask.find? m' name = Mask.find? m name) → Alike t m m'

namespace Mask.Alike

variable {t u : Tree} {m m' : Option Mask} {name : String} {args : List Slot}

theorem refl (t : Tree) (m : Option Mask) : Mask.Alike t m m := .same rfl

theorem find? (h : Mask.Alike (.reference name) m m') :
    Mask.find? m' name = Mask.find? m name := by
  cases h with
  | same h => rw [h]
  | agree _ h => exact h name List.mem_cons_self

theorem part (h : Mask.Alike t m m') (hmarkers : t.hasMarkers = false → u.hasMarkers = false)
    (hnames : u.references ⊆ t.references) : Mask.Alike u m m' := by
  cases h with
  | same h => exact .same h
  | agree hm h => exact .agree (hmarkers hm) fun name hn => h name (hnames hn)

theorem callee (h : Mask.Alike (.call t args) m m') : Mask.Alike t m m' :=
  h.part (fun hm => (Bool.or_eq_false_iff.1 hm).1) (List.subset_append_left _ _)

theorem argument (h : Mask.Alike (.call t args) m m') :
    ∀ slot ∈ args, Mask.Alike slot.val m m' := fun _ hslot =>
  h.part (fun hm => Slot.noMarkers_of_mem (Bool.or_eq_false_iff.1 hm).2 hslot)
    fun _ hn => List.mem_append_right _ (Slot.references_subset hslot hn)

theorem element (h : Mask.Alike (.pairlist args) m m') :
    ∀ slot ∈ args, Mask.Alike slot.val m m' := fun _ hslot =>
  h.part (fun hm => Slot.noMarkers_of_mem hm hslot) (Slot.references_subset hslot)

theorem eq_of_hasMarkers (h : Mask.Alike t m m') (ht : t.hasMarkers = true) : m' = m := by
  cases h with
  | same h => exact h
  | agree hm _ => rw [ht] at hm; cases hm

end Mask.Alike

structure Promise.SameButMask (p p' : Promise) : Prop where
  expr : p'.expr = p.expr
  env : p'.env = p.env
  mask : Mask.Alike p.expr p.mask p'.mask
  value? : p'.value? = p.value?
  forcing : p'.forcing = p.forcing
  captured : p'.captured = p.captured

structure Heap.SameButMasks (h h' : Heap) : Prop where
  frames : h'.frames.size = h.frames.size
  frame : ∀ f, h'.frame f = h.frame f
  promises : h'.promises.size = h.promises.size
  promise : ∀ p, (h.promise p).SameButMask (h'.promise p)

structure State.SameButMasks (s s' : State) : Prop where
  heap : s.heap.SameButMasks s'.heap
  depth : s'.depth = s.depth
  world : s'.world = s.world
  log : s'.log = s.log

inductive Outcome.SameButMasks {α : Type} : Outcome α → Outcome α → Prop
  | ok {a s s'} : s.SameButMasks s' → SameButMasks (.ok a s) (.ok a s')
  | error {h s s'} : s.SameButMasks s' → SameButMasks (.error h s) (.error h s')

def Relocation.masking (eng : Engine) : Relocation eng where
  up f := f
  frame _ := True
  promise _ := True
  value _ := True
  tree _ := True
  place t f m f' m' := f' = f ∧ Mask.Alike t m m'
  aside _ _ _ := False
  injective _ _ h := h
  aside_ne h := h.elim
  literal _ := trivial
  sight := by
    rintro name f m f' m' ⟨rfl, hm⟩
    exact ⟨.same trivial hm.find?, fun _ _ => trivial⟩
  head h := ⟨h.1, h.2.callee⟩
  argument h slot hslot := ⟨h.1, h.2.argument slot hslot⟩
  element h slot hslot := ⟨h.1, h.2.element slot hslot⟩
  body _ _ := ⟨rfl, .refl _ _⟩
  closure _ := ⟨trivial, rfl, trivial, fun _ _ _ _ => trivial⟩
  list _ := trivial
  builtin _ _ _ := trivial

namespace Relocation

variable {eng : Engine} {h h' : Heap}

instance : (masking eng).Steady where
  up _ := rfl
  frame _ := trivial
  promise _ := trivial
  value _ := trivial
  refl t _ m := ⟨rfl, .refl t m⟩
  env h := h.1
  mask h := h.2.eq_of_hasMarkers
  aside h := h

theorem masking_alike_iff : (masking eng).Alike h h' ↔ h.SameButMasks h' := by
  constructor
  · intro ha
    obtain ⟨⟨hframes, hframe⟩, hpromises, hpromise, -⟩ := Steady.alike_iff.1 ha
    refine ⟨hframes, hframe, hpromises, fun p => ?_⟩
    have hp := hpromise p
    exact ⟨hp.expr, hp.place.1, hp.place.2, hp.value?, hp.forcing, hp.captured id⟩
  · intro hs
    refine Steady.alike_iff.2 ⟨⟨hs.frames, hs.frame⟩, hs.promises, fun p => ?_, fun _ => False.elim⟩
    have hp := hs.promise p
    exact ⟨hp.expr, ⟨hp.env, hp.mask⟩, hp.value?, fun _ _ => trivial, hp.forcing,
      fun _ => hp.captured, False.elim⟩

end Relocation

namespace Routine

inductive Alike {α : Type} : Routine α → Routine α → Prop
  | done (a : α) : Alike (.done a) (.done a)
  | fail (e : Error) : Alike (.fail e) (.fail e)
  | ask (d : Demand) {next next'} : (∀ r, Alike (next r) (next' r)) →
      Alike (.ask d next) (.ask d next')
  | evaluate {t f m m'} {next next' : Except Error Value → Routine α} : Mask.Alike t m m' →
      (∀ r, Alike (next r) (next' r)) →
        Alike (.ask (.evaluate t f m) next) (.ask (.evaluate t f m') next')
  | arguments {args f m m'} {next next' : Except Error (List Item) → Routine α} :
      (∀ slot ∈ args, Mask.Alike slot.val m m') → (∀ r, Alike (next r) (next' r)) →
        Alike (.ask (.arguments args f m) next) (.ask (.arguments args f m') next')
  | resolve {t f m m'} {next next' : Except Error Tree → Routine α} : Mask.Alike t m m' →
      (∀ r, Alike (next r) (next' r)) →
        Alike (.ask (.resolve t f m) next) (.ask (.resolve t f m') next')
  | inspect {next next'} : (∀ h h' : Heap, h.SameButMasks h' → Alike (next h) (next' h')) →
      Alike (.inspect next) (.inspect next')
  | newFrame (parent isCall) {next next'} : (∀ f, Alike (next f) (next' f)) →
      Alike (.newFrame parent isCall next) (.newFrame parent isCall next')
  | newPromise {expr f m m'} {next next'} : Mask.Alike expr m m' →
      (∀ p, Alike (next p) (next' p)) →
        Alike (.newPromise expr f m next) (.newPromise expr f m' next')
  | rebind (f name b) {next next'} : Alike next next' →
      Alike (.rebind f name b next) (.rebind f name b next')
  | identity {next next'} : (∀ i, Alike (next i) (next' i)) →
      Alike (.identity next) (.identity next')
  | depth {next next'} : (∀ n, Alike (next n) (next' n)) → Alike (.depth next) (.depth next')

namespace Alike

variable {α β : Type} {r r' : Routine α} {k k' : α → Routine β}

theorem bind (hr : r.Alike r') (hk : ∀ a, (k a).Alike (k' a)) : (r.bind k).Alike (r'.bind k') := by
  induction hr with
  | done a => exact hk a
  | fail e => exact .fail e
  | ask d _ ih => exact .ask d ih
  | evaluate h _ ih => exact .evaluate h ih
  | arguments h _ ih => exact .arguments h ih
  | resolve h _ ih => exact .resolve h ih
  | inspect _ ih => exact .inspect ih
  | newFrame parent isCall _ ih => exact .newFrame parent isCall ih
  | newPromise h _ ih => exact .newPromise h ih
  | rebind f name b _ ih => exact .rebind f name b ih
  | identity _ ih => exact .identity ih
  | depth _ ih => exact .depth ih

theorem ofExcept (x : Except Error α) : (Routine.ofExcept x).Alike (.ofExcept x) := by
  cases x with
  | error e => exact .fail e
  | ok a => exact .done a

theorem demand (d : Demand) : (Routine.demand d).Alike (.demand d) := .ask d fun _ => .ofExcept _

variable {t : Tree} {args : List Slot} {f : FrameId} {m m' : Option Mask}

theorem value (h : Mask.Alike t m m') : (Routine.evaluate t f m).Alike (.evaluate t f m') :=
  .evaluate h fun _ => .ofExcept _

theorem items (h : ∀ slot ∈ args, Mask.Alike slot.val m m') :
    (Routine.arguments args f m).Alike (.arguments args f m') :=
  .arguments h fun _ => .ofExcept _

theorem tree (h : Mask.Alike t m m') : (Routine.resolve t f m).Alike (.resolve t f m') :=
  .resolve h fun _ => .ofExcept _

end Alike

end Routine

/-- The specials of a host do nothing with the mask of a call but hand it on with the trees that they
were called with. -/
def Host.IgnoresMasks (host : Host) : Prop :=
  ∀ name args f m m', (∀ slot ∈ args, Mask.Alike slot.val m m') →
    (host.special name ⟨args, f, m⟩).Alike (host.special name ⟨args, f, m'⟩)

namespace Special

variable {args : List Slot} {f : FrameId} {m m' : Option Mask}

theorem single_alike {α : Type} {name : String} {k k' : Slot → Routine α}
    (hk : ∀ slot ∈ args, (k slot).Alike (k' slot)) :
    ((Routine.ofExcept ((⟨args, f, m⟩ : SpecialCall).single name)).bind k).Alike
      ((Routine.ofExcept ((⟨args, f, m'⟩ : SpecialCall).single name)).bind k') := by
  have hsame : (⟨args, f, m'⟩ : SpecialCall).single name =
      (⟨args, f, m⟩ : SpecialCall).single name := rfl
  rw [hsame]
  cases hs : (⟨args, f, m⟩ : SpecialCall).single name with
  | error e => exact .fail e
  | ok slot => exact hk slot (SpecialCall.single_mem _ name slot hs)

theorem capturedParameter_alike :
    (capturedParameter ⟨args, f, m⟩).Alike (capturedParameter ⟨args, f, m'⟩) := by
  refine single_alike fun slot _ => ?_
  cases slot.val.asReference? with
  | none => exact .fail _
  | some name =>
    exact (Routine.Alike.demand _).bind fun c => (Routine.Alike.demand _).bind fun t => .done _

theorem resolveCaptures_alike (captures : List (Named (Capture Tree))) :
    (resolveCaptures captures).Alike (resolveCaptures captures) := by
  induction captures with
  | nil => exact .done _
  | cons c rest ih => exact (Routine.Alike.demand _).bind fun t => ih.bind fun more => .done _

theorem capturedDots_alike :
    (capturedDots ⟨args, f, m⟩).Alike (capturedDots ⟨args, f, m'⟩) := by
  unfold capturedDots
  dsimp only
  split
  · exact .fail _
  · exact (Routine.Alike.demand (.captureDots f)).bind resolveCaptures_alike

theorem tidyMask_alike {data : Option Slot} (h : ∀ slot, data = some slot → Mask.Alike slot.val m m') :
    (tidyMask ⟨args, f, m⟩ data).Alike (tidyMask ⟨args, f, m'⟩ data) := by
  cases data with
  | none => exact .done _
  | some slot => exact (Routine.Alike.value (h slot rfl)).bind fun v => .ofExcept _

theorem Op.routine_alike {host : Host} (hhost : host.IgnoresMasks) (op : Op)
    (hargs : ∀ slot ∈ args, Mask.Alike slot.val m m') :
    (op.routine host.special ⟨args, f, m⟩).Alike (op.routine host.special ⟨args, f, m'⟩) := by
  cases op with
  | quote | expr | quo =>
    exact single_alike fun slot hslot => (Routine.Alike.tree (hargs slot hslot)).bind fun t =>
      .done _
  | enexpr | enquo => exact capturedParameter_alike.bind fun c => .done _
  | ensym =>
    refine capturedParameter_alike.bind fun c => ?_
    split
    · exact .done _
    · exact .fail _
  | enexprs | enquos => exact capturedDots_alike.bind fun captures => .done _
  | evalTidy =>
    have hsame : tidyArguments ⟨args, f, m'⟩ = tidyArguments ⟨args, f, m⟩ := rfl
    change (Special.evalTidy ⟨args, f, m⟩).Alike (Special.evalTidy ⟨args, f, m'⟩)
    unfold Special.evalTidy
    rw [hsame]
    cases htidy : tidyArguments ⟨args, f, m⟩ with
    | error e => exact .fail e
    | ok r =>
      obtain ⟨expr, data⟩ := r
      obtain ⟨hexpr, hdata⟩ := tidyArguments_mem _ (expr, data) htidy
      refine (tidyMask_alike fun slot hs => hargs slot (hdata slot hs)).bind fun mask => ?_
      refine (Routine.Alike.value (hargs expr hexpr)).bind fun v => ?_
      cases v with
      | tree t => exact .demand _
      | capture c => exact .demand _
      | _ => exact .done _
  | call2 =>
    refine (Routine.Alike.items hargs).bind fun items => ?_
    cases items with
    | nil => exact .fail _
    | cons first rest =>
      exact (Routine.Alike.ofExcept _).bind fun head =>
        (Routine.Alike.demand _).bind fun t => .done _
  | list2 => exact (Routine.Alike.items hargs).bind fun items => .done _
  | host name => exact hhost name args f m m' hargs

end Special

namespace Session

variable {args : List Slot} {f : FrameId} {m m' : Option Mask}

theorem HostSpecial.cond_alike (hargs : ∀ slot ∈ args, Mask.Alike slot.val m m') :
    (cond ⟨args, f, m⟩).Alike (cond ⟨args, f, m'⟩) := by
  obtain _ | ⟨test, _ | ⟨yes, _ | ⟨no, _ | ⟨extra, rest⟩⟩⟩⟩ := args
  case cons.cons.cons.nil =>
    simp only [List.forall_mem_cons] at hargs
    obtain ⟨htest, hyes, hno, -⟩ := hargs
    refine (Routine.Alike.value htest).bind fun v => ?_
    dsimp only
    split
    · exact .value hyes
    · exact .value hno
  all_goals exact .fail _

theorem HostSpecial.lambda_alike : (lambda ⟨args, f, m⟩).Alike (lambda ⟨args, f, m'⟩) := by
  unfold lambda
  dsimp only
  split
  · exact .fail _
  · exact (Routine.Alike.ofExcept _).bind fun formals => .identity fun i => .done _

theorem HostSpecial.assign_alike (hargs : ∀ slot ∈ args, Mask.Alike slot.val m m') :
    (assign ⟨args, f, m⟩).Alike (assign ⟨args, f, m'⟩) := by
  unfold assign
  dsimp only
  split
  · have hvalue := hargs _ (.tail _ List.mem_cons_self)
    exact (Routine.Alike.value hvalue).bind fun v => .rebind f _ _ (.done _)
  · exact .fail _
  · exact .fail _

theorem HostSpecial.run_alike {name : String} (hname : name ≠ "masked")
    (hargs : ∀ slot ∈ args, Mask.Alike slot.val m m') :
    (run name ⟨args, f, m⟩).Alike (run name ⟨args, f, m'⟩) := by
  unfold run
  split
  · exact cond_alike hargs
  · exact lambda_alike
  · exact assign_alike hargs
  · exact (Routine.Alike.demand (.captureDots f)).bind fun captures => .done _
  · exact .depth fun n => .done _
  · exact Special.single_alike fun slot _ => .done _
  · exact .done _
  · exact absurd rfl hname
  · exact .done _
  · exact .done _

def blindHost : Host where
  builtin := HostBuiltin.run
  special name call := if name = "masked" then .done .null else HostSpecial.run name call

theorem blindHost_ignoresMasks : blindHost.IgnoresMasks := by
  intro name args f m m' hargs
  simp only [blindHost]
  split
  · exact .done _
  · rename_i hname
    exact HostSpecial.run_alike hname hargs

end Session

end Quotation
