import Quotation.Proofs.Termination.Settles

namespace Quotation

section

variable {P : PromiseId → Prop}

theorem forall_some_set {slots : List (Option PromiseId)} (h : ∀ p, some p ∈ slots → P p)
    (i : Nat) {q : PromiseId} (hq : P q) : ∀ p, some p ∈ slots.set i (some q) → P p := by
  intro p hp
  rcases List.mem_or_eq_of_mem_set hp with hp | hp
  · exact h p hp
  · cases hp
    exact hq

theorem fillNamed_forall (formals : List (Formal Tree)) {supplied : List (Named PromiseId)}
    {slots : List (Option PromiseId)} (hsupplied : ∀ a ∈ supplied, P a.val)
    (hslots : ∀ p, some p ∈ slots → P p) :
    Gives (fun r => (∀ p, some p ∈ r.1 → P p) ∧ ∀ a ∈ r.2, P a.val)
      (fillNamed formals supplied slots) := by
  induction supplied generalizing slots with
  | nil => exact .ok ⟨hslots, fun a ha => nomatch ha⟩
  | cons a rest ih =>
    obtain ⟨ha, hrest⟩ := List.forall_mem_cons.1 hsupplied
    unfold fillNamed
    split
    · exact (ih hrest hslots).map fun r hr => ⟨hr.1, List.forall_mem_cons.2 ⟨ha, hr.2⟩⟩
    · split
      · exact .error _
      · exact ih hrest (forall_some_set hslots _ ha)

theorem fillPositional_forall (limit : Nat) {supplied : List (Named PromiseId)}
    {slots : List (Option PromiseId)} (hsupplied : ∀ a ∈ supplied, P a.val)
    (hslots : ∀ p, some p ∈ slots → P p) :
    (∀ p, some p ∈ (fillPositional limit supplied slots).1 → P p) ∧
      ∀ a ∈ (fillPositional limit supplied slots).2, P a.val := by
  induction supplied generalizing slots with
  | nil => exact ⟨hslots, fun a ha => nomatch ha⟩
  | cons a rest ih =>
    obtain ⟨ha, hrest⟩ := List.forall_mem_cons.1 hsupplied
    unfold fillPositional
    split
    · exact ih hrest (forall_some_set hslots _ ha)
    · exact ⟨(ih hrest hslots).1, List.forall_mem_cons.2 ⟨ha, (ih hrest hslots).2⟩⟩

theorem matchArguments_forall (formals : List (Formal Tree)) {supplied : List (Named PromiseId)}
    (hsupplied : ∀ a ∈ supplied, P a.val) :
    Gives (fun m => (∀ p, some p ∈ m.slots → P p) ∧ ∀ args, m.dots = some args →
      ∀ a ∈ args, P a.val) (matchArguments formals supplied) := by
  have hnone : ∀ p, some p ∈ formals.map (fun _ => (none : Option PromiseId)) → P p := by
    simp
  refine (fillNamed_forall formals hsupplied hnone).bind fun r hr => ?_
  obtain ⟨slots, left⟩ := r
  dsimp only
  split
  · rename_i limit _
    have hfill := fillPositional_forall limit hr.2 hr.1
    exact .ok ⟨hfill.1, fun args hargs => Option.some.inj hargs ▸ hfill.2⟩
  · have hfill := fillPositional_forall formals.length hr.2 hr.1
    split
    · rename_i slots' heq
      rw [heq] at hfill
      exact .ok ⟨hfill.1, fun _ h => nomatch h⟩
    · exact .error _

end

structure Heap.Opens (h : Heap) (frame : FrameId) (h' : Heap) : Prop where
  keeps : h.Keeps h'
  closed : h'.Closed
  new : h.frames.size ≤ frame
  made : frame < h'.frames.size

namespace Heap.Opens

variable {h h' : Heap} {frame : FrameId}

theorem bind (ho : h.Opens frame h') (name : String) {b : Binding}
    (hb : b.Within h'.frames.size h'.promises.size) : h.Opens frame (h'.bind frame name b) where
  keeps := ho.keeps.rebind name (b := some b) fun _ _ => .inl ho.new
  closed := ho.closed.rebind frame name (b := some b) fun b' hb' => Option.some.inj hb' ▸ hb
  new := ho.new
  made := by
    rw [size_frames_bind]
    exact ho.made

theorem newPromise (ho : h.Opens frame h') {pr : Promise} (hpr : pr.Within h'.frames.size) :
    h.Opens frame (h'.newPromise pr).2 where
  keeps := ho.keeps.trans (.newPromise h' pr)
  closed := ho.closed.newPromise hpr
  new := ho.new
  made := ho.made

theorem bindPromise (ho : h.Opens frame h') (name : String) {p : PromiseId}
    (hp : p < h'.promises.size) : h.Opens frame (h'.bind frame name (.promise p)) :=
  ho.bind name ⟨hp, fun _ hv => nomatch hv⟩

theorem bindMatching (ho : h.Opens frame h') {formals : List (Formal Tree)} {m : Matching}
    (hformals : Formal.reach formals ≤ h'.frames.size)
    (hslots : ∀ p, some p ∈ m.slots → p < h'.promises.size)
    (hdots : ∀ args, m.dots = some args → ∀ a ∈ args, a.val < h'.promises.size) :
    h.Opens frame (bindMatching frame formals m h') := by
  -- While names are bound the frames stay as many as they are, and the promises are not fewer.
  let P := fun k : Heap => h.Opens frame k ∧ k.frames.size = h'.frames.size ∧
    h'.promises.size ≤ k.promises.size
  refine (Heap.bindMatching_induction (P := P) (T := fun t => t.reach ≤ h'.frames.size)
    (Q := fun p => p < h'.promises.size) ?_ ?_ ?_ ?_ (Formal.reach_le_iff.1 hformals) hslots hdots
    ⟨ho, rfl, Nat.le_refl _⟩).1
  · rintro k name p ⟨hk, hn, hm⟩ hp
    exact ⟨hk.bindPromise name (Nat.lt_of_lt_of_le hp hm), by simpa using hn, by simpa using hm⟩
  · rintro k name t ⟨hk, hn, hm⟩ ht
    have hpr : Promise.Within k.frames.size { expr := t, env := frame, mask := none } :=
      ⟨hk.made, hn ▸ ht, Mask.within_none, fun _ hv => nomatch hv⟩
    refine ⟨(hk.newPromise hpr).bindPromise name (by simp), by simpa using hn, ?_⟩
    simpa using Nat.le_succ_of_le hm
  · rintro k name ⟨hk, hn, hm⟩
    have hmissing : Binding.missing.Within k.frames.size k.promises.size :=
      ⟨trivial, fun _ hv => nomatch hv⟩
    exact ⟨hk.bind name hmissing, by simpa using hn, by simpa using hm⟩
  · rintro k args ⟨hk, hn, hm⟩ hargs
    have hdots : (Binding.dots args).Within k.frames.size k.promises.size :=
      ⟨fun a ha => Nat.lt_of_lt_of_le (hargs a ha) hm, fun _ hv => nomatch hv⟩
    exact ⟨hk.bind dotsName hdots, by simpa using hn, by simpa using hm⟩

end Heap.Opens

theorem openFrame_settles {s : State} (hs : s.heap.Closed) {c : Closure Tree}
    (hc : c.reach ≤ s.heap.frames.size) {supplied : List (Named PromiseId)}
    (hsupplied : ∀ a ∈ supplied, a.val < s.heap.promises.size) :
    Settles (fun _ => openFrame c supplied) s fun h f => f < h.frames.size := by
  obtain ⟨hparts, henv⟩ := Nat.max_le.1 hc
  have hmatch := matchArguments_forall (P := (· < s.heap.promises.size)) c.formals hsupplied
  have hrun := openFrame_apply c supplied s
  have hclosed : (s.heap.newFrame (some c.env) true).2.Closed :=
    hs.newFrame (fun f hf => Option.some.inj hf ▸ henv) true
  have hopens : s.heap.Opens s.heap.frames.size (s.heap.newFrame (some c.env) true).2 :=
    ⟨.newFrame _ _ _, hclosed, Nat.le_refl _, by simp⟩
  cases hm : matchArguments c.formals supplied with
  | error e =>
    rw [hm] at hrun
    exact ⟨0, .inr ⟨e, _, fun _ _ => hrun, hopens.keeps, rfl, hopens.closed⟩⟩
  | ok m =>
    rw [hm] at hrun
    have hformals : Formal.reach c.formals ≤ s.heap.frames.size + 1 :=
      Nat.le_succ_of_le (Nat.max_le.1 hparts).1
    have hbound := hopens.bindMatching (by simpa using hformals) (hmatch m hm).1 (hmatch m hm).2
    exact .step hrun ⟨hbound.keeps, rfl, hbound.closed⟩ hbound.made

end Quotation
