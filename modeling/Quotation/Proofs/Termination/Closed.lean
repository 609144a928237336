import Mathlib.Data.Finset.Card
import Quotation.Proofs.Heap
import Quotation.Proofs.Outcome
import Quotation.Proofs.Termination.Reach

namespace Quotation

def Binding.PromisesBelow (m : Nat) : Binding → Prop
  | .promise p => p < m
  | .dots args => ∀ a ∈ args, a.val < m
  | .value _ => True
  | .missing => True

def Binding.Within (n m : Nat) (b : Binding) : Prop :=
  b.PromisesBelow m ∧ ∀ v, b = .value v → v.reach ≤ n

structure Promise.Within (n : Nat) (p : Promise) : Prop where
  env : p.env < n
  expr : p.expr.reach ≤ n
  mask : Mask.Within n p.mask
  value : ∀ v, p.value? = some v → v.reach ≤ n

structure Heap.Closed (h : Heap) : Prop where
  enclosing : ∀ f, ∀ g ∈ (h.frame f).enclosing, g < h.frames.size
  bindings : ∀ f name b, h.binding? f name = some b → b.Within h.frames.size h.promises.size
  promises : ∀ p < h.promises.size, (h.promise p).Within h.frames.size

theorem Binding.PromisesBelow.mono {m m' : Nat} {b : Binding} (h : b.PromisesBelow m)
    (hm : m ≤ m') : b.PromisesBelow m' := by
  cases b with
  | promise p => exact Nat.lt_of_lt_of_le h hm
  | dots args => exact fun a ha => Nat.lt_of_lt_of_le (h a ha) hm
  | value v => trivial
  | missing => trivial

theorem Binding.Within.mono {n n' m m' : Nat} {b : Binding} (h : b.Within n m) (hn : n ≤ n')
    (hm : m ≤ m') : b.Within n' m' :=
  ⟨h.1.mono hm, fun v hv => Nat.le_trans (h.2 v hv) hn⟩

theorem Promise.Within.mono {n n' : Nat} {p : Promise} (h : p.Within n) (hn : n ≤ n') :
    p.Within n' where
  env := Nat.lt_of_lt_of_le h.env hn
  expr := Nat.le_trans h.expr hn
  mask := h.mask.mono hn
  value v hv := Nat.le_trans (h.value v hv) hn

namespace Heap.Closed

variable {h : Heap}

theorem chain (hc : h.Closed) {f : FrameId} (hf : f < h.frames.size) :
    ∀ g ∈ h.chain f, g < h.frames.size := by
  intro g hg
  rcases List.mem_cons.1 hg with rfl | hg
  · exact hf
  · exact hc.enclosing f g hg

theorem lookup (hc : h.Closed) {f : FrameId} {name : String} {b : Binding}
    (hb : h.lookup f name = some b) : b.Within h.frames.size h.promises.size := by
  obtain ⟨g, -, hg⟩ := mem_chain_of_lookup h f name hb
  exact hc.bindings g name b hg

theorem modifyPromise (hc : h.Closed) (p : PromiseId) (k : Promise → Promise)
    (hk : ∀ n, (h.promise p).Within n → n = h.frames.size → (k (h.promise p)).Within n) :
    (h.modifyPromise p k).Closed where
  enclosing := hc.enclosing
  bindings f name b hb := by
    rw [size_promises_modifyPromise]
    exact hc.bindings f name b hb
  promises q hq := by
    rw [size_promises_modifyPromise] at hq
    rw [promise_modifyPromise]
    split
    · rename_i hpq
      exact hk _ (hc.promises p hpq.2) rfl
    · exact hc.promises q hq

theorem beginForce (hc : h.Closed) (p : PromiseId) : (h.beginForce p).Closed :=
  hc.modifyPromise p _ fun _ hp _ => ⟨hp.env, hp.expr, hp.mask, hp.value⟩

theorem finishForce (hc : h.Closed) (p : PromiseId) {v : Value} (hv : v.reach ≤ h.frames.size) :
    (h.finishForce p v).Closed := by
  refine hc.modifyPromise p _ fun n hp hn => ⟨hp.env, hp.expr, hp.mask, fun w hw => ?_⟩
  cases hw
  exact hn ▸ hv

theorem abandonForce (hc : h.Closed) (p : PromiseId) : (h.abandonForce p).Closed :=
  hc.modifyPromise p _ fun _ hp _ => ⟨hp.env, hp.expr, hp.mask, hp.value⟩

theorem markCaptured (hc : h.Closed) (p : PromiseId) : (h.markCaptured p).Closed :=
  hc.modifyPromise p _ fun _ hp _ => ⟨hp.env, hp.expr, hp.mask, hp.value⟩

theorem newPromise (hc : h.Closed) {pr : Promise} (hpr : pr.Within h.frames.size) :
    (h.newPromise pr).2.Closed where
  enclosing := hc.enclosing
  bindings f name b hb := by
    rw [size_promises_newPromise]
    exact (hc.bindings f name b hb).mono (Nat.le_refl _) (Nat.le_succ _)
  promises q hq := by
    rw [size_promises_newPromise] at hq
    rw [promise_newPromise]
    split
    · exact hpr
    · rename_i hne
      exact hc.promises q (Nat.lt_of_le_of_ne (Nat.le_of_lt_succ hq) hne)

theorem rebind (hc : h.Closed) (f : FrameId) (name : String) {b : Option Binding}
    (hb : ∀ b', b = some b' → b'.Within h.frames.size h.promises.size) :
    (h.rebind f name b).Closed where
  enclosing g := by
    rw [enclosing_rebind, size_frames_rebind]
    exact hc.enclosing g
  bindings g other b' hb' := by
    rw [size_frames_rebind, size_promises_rebind]
    rw [binding?_rebind] at hb'
    split at hb'
    · exact hb b' hb'
    · exact hc.bindings g other b' hb'
  promises p hp := by
    rw [size_promises_rebind] at hp
    rw [promise_rebind, size_frames_rebind]
    exact hc.promises p hp

theorem newFrame (hc : h.Closed) {parent : Option FrameId}
    (hparent : ∀ f, parent = some f → f < h.frames.size) (isCall : Bool) :
    (h.newFrame parent isCall).2.Closed where
  enclosing g := by
    rw [frame_newFrame, size_frames_newFrame]
    split
    · cases parent with
      | none =>
        intro f hf
        cases hf
      | some env => exact fun f hf => Nat.lt_succ_of_lt (hc.chain (hparent env rfl) f hf)
    · exact fun f hf => Nat.lt_succ_of_lt (hc.enclosing g f hf)
  bindings g name b hb := by
    rw [binding?_newFrame] at hb
    rw [size_frames_newFrame]
    exact (hc.bindings g name b hb).mono (Nat.le_succ _) (Nat.le_refl _)
  promises p hp := by
    rw [size_frames_newFrame]
    exact (hc.promises p hp).mono (Nat.le_succ _)

theorem define (hc : h.Closed) (f : FrameId) (name : String) {v : Value}
    (hv : v.reach ≤ h.frames.size) : (h.define f name v).Closed := by
  refine hc.rebind f name (b := some (.value v)) ?_
  rintro _ ⟨⟩
  exact ⟨trivial, fun _ hw => Binding.value.inj hw ▸ hv⟩

theorem root : (({} : Heap).newFrame none false).2.Closed := by
  have hempty : Heap.Closed {} := ⟨nofun, nofun, nofun⟩
  refine hempty.newFrame ?_ false
  rintro _ ⟨⟩

end Heap.Closed

/-- Frames and promises stay. A frame stays where it is enclosed and acquires no bindings that refer
to promises; a promise stays in its frame, and once it is no longer pending it never is again. -/
structure Heap.Keeps (h h' : Heap) : Prop where
  frames : h.frames.size ≤ h'.frames.size
  promises : h.promises.size ≤ h'.promises.size
  enclosing : ∀ f < h.frames.size, (h'.frame f).enclosing = (h.frame f).enclosing
  bindings : ∀ f < h.frames.size, ∀ name b, h'.binding? f name = some b →
    b.PromisesBelow 0 ∨ h.binding? f name = some b
  env : ∀ p < h.promises.size, (h'.promise p).env = (h.promise p).env
  pending : ∀ p < h.promises.size, (h'.promise p).Pending → (h.promise p).Pending

namespace Heap.Keeps

variable {h h' h'' : Heap}

theorem refl (h : Heap) : h.Keeps h where
  frames := Nat.le_refl _
  promises := Nat.le_refl _
  enclosing _ _ := rfl
  bindings _ _ _ _ hb := .inr hb
  env _ _ := rfl
  pending _ _ hp := hp

theorem trans (hk : h.Keeps h') (hk' : h'.Keeps h'') : h.Keeps h'' where
  frames := Nat.le_trans hk.frames hk'.frames
  promises := Nat.le_trans hk.promises hk'.promises
  enclosing f hf := by
    rw [hk'.enclosing f (Nat.lt_of_lt_of_le hf hk.frames), hk.enclosing f hf]
  bindings f hf name b hb := by
    rcases hk'.bindings f (Nat.lt_of_lt_of_le hf hk.frames) name b hb with hnone | hb
    · exact .inl hnone
    · exact hk.bindings f hf name b hb
  env p hp := by
    rw [hk'.env p (Nat.lt_of_lt_of_le hp hk.promises), hk.env p hp]
  pending p hp hpend :=
    hk.pending p hp (hk'.pending p (Nat.lt_of_lt_of_le hp hk.promises) hpend)

theorem modifyPromise (p : PromiseId) (k : Promise → Promise)
    (henv : (k (h.promise p)).env = (h.promise p).env)
    (hpending : (k (h.promise p)).Pending → (h.promise p).Pending) :
    h.Keeps (h.modifyPromise p k) where
  frames := Nat.le_refl _
  promises := by simp
  enclosing _ _ := rfl
  bindings _ _ _ _ hb := .inr hb
  env q _ := by
    rw [promise_modifyPromise]
    split
    · rename_i hpq
      rw [henv, hpq.1]
    · rfl
  pending q _ := by
    rw [promise_modifyPromise]
    split
    · rename_i hpq
      exact hpq.1 ▸ hpending
    · exact id

theorem beginForce (h : Heap) (p : PromiseId) : h.Keeps (h.beginForce p) :=
  .modifyPromise p _ rfl fun hp => nomatch hp.2

theorem finishForce (h : Heap) (p : PromiseId) (v : Value) : h.Keeps (h.finishForce p v) :=
  .modifyPromise p _ rfl fun hp => nomatch hp.1

theorem abandonForce {p : PromiseId} (hp : (h.promise p).Pending) (hk : (h.beginForce p).Keeps h') :
    h.Keeps (h'.abandonForce p) where
  frames := hk.frames
  promises := by
    have hsize := hk.promises
    rw [Heap.beginForce, size_promises_modifyPromise] at hsize
    rwa [Heap.abandonForce, size_promises_modifyPromise]
  enclosing := hk.enclosing
  bindings := hk.bindings
  env q hq := by
    rw [Heap.abandonForce, promise_modifyPromise]
    have hkept := ((beginForce h p).trans hk).env q hq
    split
    · rename_i hpq
      obtain ⟨rfl, -⟩ := hpq
      exact hkept
    · exact hkept
  pending q hq := by
    rw [Heap.abandonForce, promise_modifyPromise]
    have hkept := ((beginForce h p).trans hk).pending q hq
    split
    · rename_i hpq
      exact fun _ => hpq.1 ▸ hp
    · exact hkept

theorem markCaptured (h : Heap) (p : PromiseId) : h.Keeps (h.markCaptured p) :=
  .modifyPromise p _ rfl id

theorem newPromise (h : Heap) (pr : Promise) : h.Keeps (h.newPromise pr).2 where
  frames := Nat.le_refl _
  promises := by simp
  enclosing _ _ := rfl
  bindings _ _ _ _ hb := .inr hb
  env p hp := by rw [promise_newPromise, if_neg (Nat.ne_of_lt hp)]
  pending p hp := by
    rw [promise_newPromise, if_neg (Nat.ne_of_lt hp)]
    exact id

theorem newFrame (h : Heap) (parent : Option FrameId) (isCall : Bool) :
    h.Keeps (h.newFrame parent isCall).2 where
  frames := by simp
  promises := Nat.le_refl _
  enclosing f hf := by rw [frame_newFrame, if_neg (Nat.ne_of_lt hf)]
  bindings f _ name b hb := by
    rw [binding?_newFrame] at hb
    exact .inr hb
  env _ _ := rfl
  pending _ _ hp := hp

theorem rebind (hk : h.Keeps h') {f : FrameId} (name : String) {b : Option Binding}
    (hb : ∀ b', b = some b' → h.frames.size ≤ f ∨ b'.PromisesBelow 0) :
    h.Keeps (h'.rebind f name b) where
  frames := by simpa using hk.frames
  promises := by simpa using hk.promises
  enclosing g hg := by
    rw [enclosing_rebind]
    exact hk.enclosing g hg
  bindings g hg other b' hb' := by
    rw [binding?_rebind] at hb'
    split at hb'
    · rename_i hall
      obtain ⟨rfl, -⟩ := hall
      rcases hb b' hb' with hnew | hnone
      · exact absurd hnew (Nat.not_le_of_lt hg)
      · exact .inl hnone
    · exact hk.bindings g hg other b' hb'
  env p hp := by
    rw [promise_rebind]
    exact hk.env p hp
  pending p hp := by
    rw [promise_rebind]
    exact hk.pending p hp

end Heap.Keeps

/-- The first `n` frames are enclosed by one another and refer to the first `m` promises only, which
belong to them. Whatever is evaluated there without a call stays there. -/
structure Heap.Sealed (n m : Nat) (h : Heap) : Prop where
  frames : n ≤ h.frames.size
  promises : m ≤ h.promises.size
  enclosing : ∀ f < n, ∀ g ∈ (h.frame f).enclosing, g < n
  bindings : ∀ f < n, ∀ name b, h.binding? f name = some b → b.PromisesBelow m
  env : ∀ p < m, (h.promise p).env < n

namespace Heap.Sealed

variable {h h' : Heap} {n m : Nat}

theorem ofClosed (hc : h.Closed) : h.Sealed h.frames.size h.promises.size where
  frames := Nat.le_refl _
  promises := Nat.le_refl _
  enclosing f _ := hc.enclosing f
  bindings f _ name b hb := (hc.bindings f name b hb).1
  env p hp := (hc.promises p hp).env

theorem ofKeeps (hs : h.Sealed n m) (hk : h.Keeps h') : h'.Sealed n m where
  frames := Nat.le_trans hs.frames hk.frames
  promises := Nat.le_trans hs.promises hk.promises
  enclosing f hf := by
    rw [hk.enclosing f (Nat.lt_of_lt_of_le hf hs.frames)]
    exact hs.enclosing f hf
  bindings f hf name b hb := by
    rcases hk.bindings f (Nat.lt_of_lt_of_le hf hs.frames) name b hb with hb | hb
    · exact hb.mono (Nat.zero_le m)
    · exact hs.bindings f hf name b hb
  env p hp := by
    rw [hk.env p (Nat.lt_of_lt_of_le hp hs.promises)]
    exact hs.env p hp

theorem lookup (hs : h.Sealed n m) {f : FrameId} (hf : f < n) {name : String} {b : Binding}
    (hb : h.lookup f name = some b) : b.PromisesBelow m := by
  obtain ⟨g, hg, hgb⟩ := mem_chain_of_lookup h f name hb
  rcases List.mem_cons.1 hg with rfl | hg
  · exact hs.bindings g hf name b hgb
  · exact hs.bindings g (hs.enclosing f hf g hg) name b hgb

end Heap.Sealed

instance : DecidablePred Promise.Pending := fun p =>
  decidable_of_iff (p.value?.isNone = true ∧ p.forcing = false) <| by
    rw [Option.isNone_iff_eq_none, Promise.Pending]

def Heap.pendingCount (m : Nat) (h : Heap) : Nat :=
  ((Finset.range m).filter fun p => (h.promise p).Pending).card

namespace Heap

variable {h h' : Heap} {m : Nat}

theorem Keeps.pendingCount_le (hk : h.Keeps h') (hm : m ≤ h.promises.size) :
    h'.pendingCount m ≤ h.pendingCount m := by
  refine Finset.card_le_card fun p hp => ?_
  rw [Finset.mem_filter, Finset.mem_range] at *
  exact ⟨hp.1, hk.pending p (Nat.lt_of_lt_of_le hp.1 hm) hp.2⟩

theorem pendingCount_beginForce_lt {p : PromiseId} (hp : p < m) (hm : m ≤ h.promises.size)
    (hpending : (h.promise p).Pending) : (h.beginForce p).pendingCount m < h.pendingCount m := by
  have hforcing : ¬ ((h.beginForce p).promise p).Pending := by
    rw [beginForce, promise_modifyPromise, if_pos ⟨rfl, Nat.lt_of_lt_of_le hp hm⟩]
    exact fun hp => nomatch hp.2
  refine Finset.card_lt_card ⟨fun q hq => ?_, fun hsub => ?_⟩
  · rw [Finset.mem_filter, Finset.mem_range] at *
    exact ⟨hq.1, (Keeps.beginForce h p).pending q (Nat.lt_of_lt_of_le hq.1 hm) hq.2⟩
  · have hmem := hsub (Finset.mem_filter.2 ⟨Finset.mem_range.2 hp, hpending⟩)
    exact hforcing (Finset.mem_filter.1 hmem).2

end Heap

end Quotation
