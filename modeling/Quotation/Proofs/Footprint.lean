import Quotation.Proofs.Exposure.Closure
import Quotation.Proofs.Footprint.Engine

namespace Quotation

variable {R : Territory} {s : State}

/-- Whether it succeeds or fails, a run in a closed territory leaves the frames that were there as
they were: their names in order, what these are bound to, the frames around them and whether they
are frames of calls. Promises that were there may be captured, and pending ones may be forced. What
a tree, a frame and a mask lead to is a closed territory as long as no callable of the host is
among it. -/
theorem run_conserves_heap (eng : Engine) (hR : R.Closed s.heap) :
    (∀ fuel t env mask, t.Native R.frame → R.frame env → Mask.Native R.frame mask →
      s.heap.Conserves (Outcome.state (evaluate eng fuel t env mask s)).heap ∧
        s.heap.Conserves (Outcome.state (resolve eng (evaluate eng fuel) t env mask s)).heap) ∧
      ∀ fuel p, R.promise p → p < s.heap.promises.size →
        s.heap.Conserves (Outcome.state (force (evaluate eng fuel) p s)).heap := by
  have howns : (R.widen s.heap).Owns s.heap := hR.widen
  have hwider : ∀ f, R.frame f → (R.widen s.heap).frame f := fun _ => Or.inl
  constructor
  · intro fuel t env mask ht henv hmask
    have ht := ht.mono hwider t
    have hplace : Located (R.widen s.heap).frame env mask := ⟨hwider env henv, hmask.mono hwider⟩
    have hev := (R.widen s.heap).evaluates eng fuel
    exact ⟨(hev s t env mask howns ht hplace).state.conserves,
      (Territory.resolve hev howns ht hplace).state.conserves⟩
  · intro fuel p hp hsize
    have hev := (R.widen s.heap).evaluates eng fuel
    exact (Territory.force hev howns (.inl hp) hsize).state.conserves

def State.withPending : State where
  heap :=
    let h := (({} : Heap).newFrame none false).2
    let h := h.define 0 "list" (.builtin ⟨.list, 3⟩)
    let h := h.define 0 "enexpr" (.special ⟨.enexpr, 4⟩)
    let h := h.define 0 "f" (.closure .forcing)
    let h := (h.newPromise ⟨.callNamed "f" [.literal (.int 7)], 0, none, none, false, false⟩).2
    let h := (h.newFrame (some 0) true).2
    let h := h.bind 1 "a" (.promise 0)
    let h := (h.newFrame none false).2
    h.define 2 "assign" (.special ⟨.host "assign", 5⟩)

def Territory.withoutHost : Territory := ⟨(· ≠ 2), fun _ => True⟩

theorem Territory.withoutHost_closed : Territory.withoutHost.Closed State.withPending.heap := by
  have hzero : Territory.withoutHost.frame 0 := show (0 : Nat) ≠ 2 by decide
  have hempty : Territory.withoutHost.Closed {} := ⟨nofun, nofun, nofun⟩
  have hroot := hempty.newFrame none false nofun
  have hlist := hroot.rebind 0 "list" (b := .value (.builtin ⟨.list, 3⟩)) fun _ =>
    Prelude.mem_builtins_iff.2 nofun
  have henexpr := hlist.rebind 0 "enexpr" (b := .value (.special ⟨.enexpr, 4⟩)) fun _ =>
    Prelude.mem_specials_iff.2 nofun
  have hf := henexpr.rebind 0 "f" (b := .value (.closure .forcing)) fun _ =>
    ⟨trivial, trivial, hzero⟩
  have hpending : Promise.Native Territory.withoutHost.frame
      ⟨.callNamed "f" [.literal (.int 7)], 0, none, none, false, false⟩ :=
    ⟨⟨trivial, trivial, trivial⟩, hzero, Mask.native_none, nofun⟩
  have hcall := (hf.newPromise hpending).newFrame (some 0) true fun _ h =>
    Option.some.inj h ▸ hzero
  have ha := hcall.rebind 1 "a" (b := .promise 0) fun _ => ⟨trivial, Nat.zero_lt_one⟩
  have haside := ha.newFrame none false nofun
  exact haside.rebind 2 "assign" (b := .value (.special ⟨.host "assign", 5⟩)) fun h =>
    absurd rfl h

theorem captured_and_forced_in_place :
    let eng : Engine := { host := Session.host }
    let s : State := .withPending
    let t : Tree := .callNamed "list"
      [.callNamed "enexpr" [.reference "a"], .callNamed "f" [.reference "a"]]
    let evaluated : Heap := (Outcome.state (evaluate eng 8 t 1 none s)).heap
    let resolved : Heap :=
      (Outcome.state (resolve eng (evaluate eng 8) (.unquote t) 1 none s)).heap
    let forced : Heap := (Outcome.state (force (evaluate eng 8) 0 s)).heap
    Territory.withoutHost.Closed s.heap ∧ s.heap.Conserves evaluated ∧
      s.heap.Conserves resolved ∧ s.heap.Conserves forced ∧ (s.heap.promise 0).Pending ∧
        (evaluated.promise 0).isForced = true ∧ (evaluated.promise 0).captured = true ∧
          evaluated.frames.size = 5 := by
  intro eng s t evaluated resolved forced
  have hclosed : Territory.withoutHost.Closed s.heap := Territory.withoutHost_closed
  have ht : t.Native Territory.withoutHost.frame := by
    refine ⟨trivial, ⟨trivial, trivial, trivial⟩, ⟨trivial, trivial, trivial⟩, trivial⟩
  have hframe : Territory.withoutHost.frame 1 := show (1 : Nat) ≠ 2 by decide
  have hend : (evaluated.promise 0).isForced = true ∧ (evaluated.promise 0).captured = true ∧
      evaluated.frames.size = 5 := by
    decide +kernel
  obtain ⟨hrun, hforce⟩ := run_conserves_heap eng hclosed
  exact ⟨hclosed, (hrun 8 t 1 none ht hframe Mask.native_none).1,
    (hrun 8 (.unquote t) 1 none ht hframe Mask.native_none).2,
    hforce 8 0 trivial Nat.zero_lt_one, ⟨rfl, rfl⟩, hend⟩

end Quotation
