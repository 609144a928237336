import Quotation.Engine.Closure

namespace Quotation.Heap

variable (h : Heap) (f g : FrameId) (p q : PromiseId) (name other : String)

theorem promise_modifyPromise (k : Promise → Promise) :
    (h.modifyPromise p k).promise q =
      if p = q ∧ p < h.promises.size then k (h.promise p) else h.promise q := by
  simp only [promise, modifyPromise, Array.getElem?_modify]
  by_cases hpq : p = q
  · subst hpq
    by_cases hp : p < h.promises.size
    · simp [hp]
    · simp [hp]
  · simp [hpq]

@[simp] theorem size_promises_modifyPromise (k : Promise → Promise) :
    (h.modifyPromise p k).promises.size = h.promises.size := by
  simp [modifyPromise]

variable {h p} in
theorem promise_of_size_le (hp : h.promises.size ≤ p) : h.promise p = default := by
  simp [promise, Array.getElem?_eq_none hp]

theorem promise_newPromise (pr : Promise) :
    (h.newPromise pr).2.promise q = if q = h.promises.size then pr else h.promise q := by
  simp only [promise, newPromise, Array.getElem?_push]
  split <;> rfl

@[simp] theorem newPromise_fst (pr : Promise) : (h.newPromise pr).1 = h.promises.size := rfl

@[simp] theorem size_frames_newPromise (pr : Promise) :
    (h.newPromise pr).2.frames.size = h.frames.size := rfl

@[simp] theorem size_promises_newPromise (pr : Promise) :
    (h.newPromise pr).2.promises.size = h.promises.size + 1 := by
  simp [newPromise]

theorem frame_modifyFrame (k : Frame → Frame) :
    (h.modifyFrame f k).frame g =
      if f = g ∧ f < h.frames.size then k (h.frame f) else h.frame g := by
  simp only [frame, modifyFrame, Array.getElem?_modify]
  by_cases hfg : f = g
  · subst hfg
    by_cases hf : f < h.frames.size
    · simp [hf]
    · simp [hf]
  · simp [hfg]

theorem enclosing_modifyFrame (k : Frame → Frame) (hk : ∀ fr, (k fr).enclosing = fr.enclosing) :
    ((h.modifyFrame f k).frame g).enclosing = (h.frame g).enclosing := by
  rw [frame_modifyFrame]
  split
  · rename_i hfg
    rw [hk, hfg.1]
  · rfl

@[simp] theorem size_promises_rebind (b : Option Binding) :
    (h.rebind f name b).promises.size = h.promises.size := by
  cases b <;> rfl

@[simp] theorem size_frames_rebind (b : Option Binding) :
    (h.rebind f name b).frames.size = h.frames.size := by
  cases b <;> simp [rebind, bind, erase, modifyFrame]

@[simp] theorem promise_rebind (b : Option Binding) :
    (h.rebind f name b).promise p = h.promise p := by
  cases b <;> rfl

@[simp] theorem enclosing_rebind (b : Option Binding) :
    ((h.rebind f name b).frame g).enclosing = (h.frame g).enclosing := by
  cases b <;> exact enclosing_modifyFrame h f g _ fun _ => rfl

theorem binding?_rebind (b : Option Binding) :
    (h.rebind f name b).binding? g other =
      if f = g ∧ f < h.frames.size ∧ other = name then b else h.binding? g other := by
  by_cases hfg : f = g ∧ f < h.frames.size
  · obtain ⟨rfl, hf⟩ := hfg
    cases b <;> simp [binding?, rebind, bind, erase, frame_modifyFrame, hf]
  · rw [if_neg fun hall => hfg ⟨hall.1, hall.2.1⟩]
    cases b <;> simp only [binding?, rebind, bind, erase, frame_modifyFrame, if_neg hfg]

variable {h f} in
theorem binding?_bind (hf : f < h.frames.size) (b : Binding) :
    (h.bind f name b).binding? f other = if other = name then some b else h.binding? f other := by
  have hrebind := h.binding?_rebind f f name other (some b)
  simpa [rebind, hf] using hrebind

@[simp] theorem size_frames_bind (b : Binding) :
    (h.bind f name b).frames.size = h.frames.size :=
  size_frames_rebind h f name (some b)

@[simp] theorem size_promises_bind (b : Binding) :
    (h.bind f name b).promises.size = h.promises.size := rfl

theorem frame_newFrame (parent : Option FrameId) (isCall : Bool) :
    (h.newFrame parent isCall).2.frame g =
      if g = h.frames.size then
        { enclosing := (parent.map h.chain).getD [], isCall }
      else h.frame g := by
  simp only [frame, newFrame, Array.getElem?_push]
  cases parent <;> split <;> rfl

@[simp] theorem size_frames_newFrame (parent : Option FrameId) (isCall : Bool) :
    (h.newFrame parent isCall).2.frames.size = h.frames.size + 1 := by
  simp [newFrame]

theorem frame_of_size_le (hf : h.frames.size ≤ f) : h.frame f = default := by
  simp [frame, Array.getElem?_eq_none hf]

theorem binding?_newFrame (parent : Option FrameId) (isCall : Bool) :
    (h.newFrame parent isCall).2.binding? g name = h.binding? g name := by
  simp only [binding?, frame_newFrame]
  split
  · rename_i hg
    rw [frame_of_size_le h g (Nat.le_of_eq hg.symm)]
    rfl
  · rfl

theorem binding?_newFrame_self (parent : Option FrameId) (isCall : Bool) :
    (h.newFrame parent isCall).2.binding? h.frames.size name = none := by
  rw [binding?_newFrame, binding?, frame_of_size_le h _ (Nat.le_refl _)]
  rfl

theorem mem_chain_of_lookup {b : Binding} (hb : h.lookup f name = some b) :
    ∃ g ∈ h.chain f, h.binding? g name = some b :=
  List.exists_of_findSome?_eq_some hb

variable {h f} in
theorem lookup_of_dots? {args : List (Named PromiseId)} (ha : h.dots? f = some args) :
    h.lookup f dotsName = some (.dots args) := by
  unfold dots? at ha
  split at ha
  · rename_i hb
    cases ha
    exact hb
  · cases ha

section

variable {P : Heap → Prop} {T : Tree → Prop} {Q : PromiseId → Prop} {frame : FrameId}
  (hpromise : ∀ h name p, P h → Q p → P (h.bind frame name (.promise p)))
  (hdefault : ∀ h name t, P h → T t →
    P ((h.newPromise { expr := t, env := frame, mask := none }).2.bind frame name
      (.promise h.promises.size)))
  (hmissing : ∀ h name, P h → P (h.bind frame name .missing))

include hpromise hdefault hmissing

theorem bindFormals_induction {formals : List (Formal Tree)} {slots : List (Option PromiseId)}
    (hformals : ∀ f ∈ formals, ∀ t, f.default? = some t → T t)
    (hslots : ∀ p, some p ∈ slots → Q p) {h : Heap} (hh : P h) :
    P (bindFormals frame formals slots h) := by
  induction formals generalizing slots h with
  | nil => exact hh
  | cons f rest ih =>
    cases slots with
    | nil => exact hh
    | cons slot slots =>
      obtain ⟨hf, hrest⟩ := List.forall_mem_cons.1 hformals
      have hslots' : ∀ p, some p ∈ slots → Q p := fun p hp =>
        hslots p (List.mem_cons_of_mem _ hp)
      simp only [bindFormals]
      split
      · exact ih hrest hslots' hh
      · refine ih hrest hslots' ?_
        split
        · exact hpromise _ _ _ hh (hslots _ List.mem_cons_self)
        · rename_i t ht
          exact hdefault _ _ t hh (hf t ht)
        · exact hmissing _ _ hh

theorem bindMatching_induction
    (hdots : ∀ h args, P h → (∀ a ∈ args, Q a.val) → P (h.bind frame dotsName (.dots args)))
    {formals : List (Formal Tree)} {m : Matching}
    (hformals : ∀ f ∈ formals, ∀ t, f.default? = some t → T t)
    (hslots : ∀ p, some p ∈ m.slots → Q p)
    (hargs : ∀ args, m.dots = some args → ∀ a ∈ args, Q a.val) {h : Heap} (hh : P h) :
    P (bindMatching frame formals m h) := by
  refine bindFormals_induction hpromise hdefault hmissing hformals hslots ?_
  cases hd : m.dots with
  | none => exact hh
  | some args => exact hdots h args hh (hargs args hd)

end

end Quotation.Heap
