import Mathlib.Data.Nat.Find
import Quotation.Proofs.CallByNeed.Walk
import Quotation.Proofs.Limit

namespace Quotation

namespace Ground

variable {G : Ground} {limit fuel : Nat} {bounded : Prop} {ev : Evaluator}
  {σ : FrameId → Scope} {s : State}

theorem Meets.outOfFuel {P : Value → Prop} {t : Tree} {scope : Scope} {mask : Option Mask} :
    G.Meets limit 0 0 bounded P σ s (throw .outOfFuel) fun k r => G.meaning k r t scope mask where
  sound _ _ h := nomatch h
  complete k r hk _ _ a ha := by
    obtain rfl := Nat.le_zero.1 hk
    cases ha

theorem Meets.succ {P : Value → Prop} {act : Eval Value} {t : Tree} {scope : Scope}
    {mask : Option Mask} (h : G.Meets limit fuel 1 bounded P σ s act fun k r =>
      G.step (G.meaning k) r t scope mask) :
    G.Meets limit (fuel + 1) 0 bounded P σ s act fun k r => G.meaning k r t scope mask where
  sound a s' ha := by
    obtain ⟨hreaches, hP, k₀, r₀, hr₀, hd⟩ := h.sound a s' ha
    refine ⟨hreaches, hP, k₀ + 1, r₀, hr₀, fun k r hk hr => ?_⟩
    obtain ⟨k, rfl⟩ := Nat.exists_eq_add_of_le' (Nat.lt_of_lt_of_le (Nat.succ_pos k₀) hk)
    exact hd k r (Nat.le_of_succ_le_succ hk) hr
  complete k r hk hr hu a ha := by
    cases k with
    | zero => cases ha
    | succ k => exact h.complete k r (Nat.le_of_succ_le_succ hk) hr hu a ha

theorem forceAgain_meets (hev : G.Evaluates limit fuel bounded ev) :
    G.Forces limit fuel bounded (forceAgain ev) := by
  intro p σ s hl hp
  have hpromise := hl.promise p hp
  exact .heap (hev hl hpromise.env hpromise.expr hpromise.mask).loosen

theorem evaluateByName_follows (eng : Engine) (hhost : eng.host = G.host) (fuel : Nat) :
    G.Follows eng.maxDepth fuel True (evaluateByName eng fuel)
      (forceAgain (evaluateByName eng fuel)) := by
  induction fuel with
  | zero =>
    have hev : G.Evaluates eng.maxDepth 0 True (evaluateByName eng 0) := fun _ _ _ _ => .outOfFuel
    exact ⟨hev, forceAgain_meets hev⟩
  | succ fuel ih =>
    have hev : G.Evaluates eng.maxDepth (fuel + 1) True (evaluateByName eng (fuel + 1)) :=
      fun hl henv ht hmask => (evaluateStep_meets ih hl henv hmask hhost rfl ht).succ
    exact ⟨hev, forceAgain_meets hev⟩

/-- A promise is evaluated with its mark set. If that is done for a meaning, it is done as well with
the least fuel that the meaning takes, and then none of the promises under evaluation means anything
that takes less. -/
theorem Unmarked.beginForce {k r : Nat} {p : PromiseId} (hl : G.Labelled σ s.heap)
    (hu : G.Unmarked (k + 1) r σ s.heap) {v : Value}
    (hv : (G.meaning k r).argument (s.heap.suspension σ p) = some v) :
    ∃ k₀ ≤ k, (G.meaning k₀ r).argument (s.heap.suspension σ p) = some v ∧
      G.Unmarked k₀ r σ (s.heap.beginForce p) := by
  let u := s.heap.suspension σ p
  have hsome : ∃ j, ((G.meaning j r).argument u).isSome := ⟨k, by rw [hv]; rfl⟩
  have hle : Nat.find hsome ≤ k := Nat.find_min' hsome (by rw [hv]; rfl)
  obtain ⟨w, hw⟩ := Option.isSome_iff_exists.1 (Nat.find_spec hsome)
  have hwv : some w = some v :=
    (G.meaning_refines hle (Nat.le_refl r) _ _ _ w hw).symm.trans hv
  refine ⟨Nat.find hsome, hle, hw.trans hwv, fun q hq hmark j hj i hi => ?_⟩
  have hq : G.HasPromise s.heap q :=
    ⟨hq.1, (Heap.size_promises_modifyPromise s.heap p _) ▸ hq.2⟩
  rw [hl.suspension_eq (hl.beginForce p).2 hq]
  by_cases hpq : p = q
  · subst hpq
    refine Option.eq_none_iff_forall_ne_some.2 fun w hw => Nat.find_min hsome hj ?_
    have hw := G.meaning_refines (Nat.le_refl j) hi _ _ _ w hw
    exact Option.isSome_iff_exists.2 ⟨w, hw⟩
  · rw [Heap.beginForce, Heap.promise_modifyPromise, if_neg fun hall => hpq hall.1] at hmark
    exact hu q hq hmark j (Nat.lt_succ_of_lt (Nat.lt_of_lt_of_le hj hle)) i hi

theorem Means.known {u : Suspension Scope} {v : Value} (h : G.Means u v) (levels : Nat) :
    Known False levels (fun k r => (G.meaning k r).argument u) v := by
  obtain ⟨k₀, r₀, hv⟩ := h
  exact ⟨k₀, r₀, False.elim, fun k r hk hr => G.meaning_refines hk hr _ _ _ v hv⟩

theorem unmarked_of_finishForce {h h' : Heap} {p q : PromiseId} {v : Value}
    (hp : p < h'.promises.size)
    (hmarks : (h'.promise q).forcing = true → ((h.beginForce p).promise q).forcing = true)
    (hq : ((h'.finishForce p v).promise q).forcing = true) : (h.promise q).forcing = true := by
  rw [Heap.finishForce, Heap.promise_modifyPromise] at hq
  by_cases hpq : p = q
  · rw [if_pos ⟨hpq, hp⟩] at hq
    cases hq
  · rw [if_neg fun hall => hpq hall.1] at hq
    have hmark := hmarks hq
    rwa [Heap.beginForce, Heap.promise_modifyPromise, if_neg fun hall => hpq hall.1] at hmark

theorem force_meets_of_pending (hev : G.Evaluates limit fuel False ev) {p : PromiseId}
    (hl : G.Labelled σ s.heap) (hp : G.HasPromise s.heap p)
    (hpending : (s.heap.promise p).Pending) :
    G.Meets limit fuel 1 False (Value.Ordinary G.region) σ s (force ev p) fun k r =>
      (G.meaning k r).argument (s.heap.suspension σ p) := by
  have hpromise := hl.promise p hp
  obtain ⟨hl₁, hkeeps⟩ := hl.beginForce p
  have hinner := hev (s := s.mapHeap (·.beginForce p)) hl₁ (hpromise.env.mono hkeeps.frames)
    hpromise.expr hpromise.mask
  have hforce := force_apply_of_pending ev hpending
  refine ⟨fun v s' hv => ?_, fun k r hk hr hu v hv => ?_⟩
  · rw [hforce] at hv
    cases hact : ev (s.heap.promise p).expr (s.heap.promise p).env (s.heap.promise p).mask
        (s.mapHeap (·.beginForce p)) with
    | error e t =>
      rw [hact] at hv
      cases hv
    | ok w t =>
      rw [hact] at hv
      cases hv
      obtain ⟨⟨σ', hreaches⟩, hvalue, hknown⟩ := hinner.sound v t hact
      have hmeans : G.Means (s.heap.suspension σ p) v := by
        obtain ⟨k, r, -, hd⟩ := hknown
        exact ⟨k, r, hd k r (Nat.le_refl k) (Nat.le_refl r)⟩
      have hgrows := hkeeps.trans hreaches.grows.toKeepsLabels
      have hmeans' := hmeans
      rw [← hl.suspension_eq hgrows hp] at hmeans'
      obtain ⟨hl', hkeeps'⟩ := hreaches.labels.finishForce hvalue hmeans'
      have hsize := (hp.mono hgrows.trees.promises).2
      exact ⟨⟨σ', hl', ⟨hgrows.trans hkeeps', fun q hq => unmarked_of_finishForce hsize
        (hreaches.grows.marks q) hq⟩, hreaches.depth⟩, hvalue, hmeans.known _⟩
  · obtain ⟨k₀, hk₀, hv₀, hu₀⟩ := hu.beginForce hl hv
    obtain ⟨t, ht⟩ := hinner.complete k₀ r (Nat.le_trans hk₀ hk) hr hu₀ v hv₀
    exact ⟨_, by rw [hforce, ht]; rfl⟩

theorem force_meets (hev : G.Evaluates limit fuel False ev) :
    G.Forces limit fuel False (force ev) := by
  intro p σ s hl hp
  have hpromise := hl.promise p hp
  cases hv : (s.heap.promise p).value? with
  | some v =>
    have hforce := force_apply_of_value ev hv
    obtain ⟨hvalue, hmeans⟩ := hpromise.value v hv
    refine ⟨fun w s' hw => ?_, fun k r _ _ _ w hw => ⟨s, ?_⟩⟩
    · rw [hforce] at hw
      cases hw
      exact ⟨⟨σ, .refl hl⟩, hvalue, hmeans.known _⟩
    · rw [hforce, G.means_unique hmeans ⟨k, r, hw⟩]
  | none =>
    cases hmark : (s.heap.promise p).forcing with
    | true =>
      have hforce := force_apply_of_forcing ev hv hmark
      refine ⟨fun w s' hw => ?_, fun k r _ _ hu w hw => ?_⟩
      · rw [hforce] at hw
        cases hw
      · rw [hu p hp hmark k (Nat.lt_succ_self k) r (Nat.le_refl r)] at hw
        cases hw
    | false => exact force_meets_of_pending hev hl hp ⟨hv, hmark⟩

theorem evaluate_follows (eng : Engine) (hhost : eng.host = G.host) (fuel : Nat) :
    G.Follows eng.maxDepth fuel False (evaluate eng fuel) (force (evaluate eng fuel)) := by
  induction fuel with
  | zero =>
    have hev : G.Evaluates eng.maxDepth 0 False (evaluate eng 0) := fun _ _ _ _ => .outOfFuel
    exact ⟨hev, force_meets hev⟩
  | succ fuel ih =>
    have hev : G.Evaluates eng.maxDepth (fuel + 1) False (evaluate eng (fuel + 1)) := by
      intro t env mask σ s hl henv ht hmask
      have hstep := (evaluateStep_meets ih hl henv hmask hhost rfl ht).succ
      rwa [Forcer.evaluateStep_force] at hstep
    exact ⟨hev, force_meets hev⟩

end Ground

/-- Evaluation ends with a value if there is enough fuel. -/
def Yields (run : Nat → Evaluator) (t : Tree) (env : FrameId) (mask : Option Mask) (s : State)
    (v : Value) : Prop :=
  ∃ fuel s', run fuel t env mask s = .ok v s'

section

variable {R : Region} {eng : Engine} {s : State} {t : Tree} {env : FrameId} {mask : Option Mask}

/-- In a region without promises, specials and functions that depend on the world, call by need
agrees with call by name. A value that is had when every argument is evaluated again whenever it is
needed is had under the same limit when promises keep their values, and a value that is had when
they do is also had when they do not, under some limit. -/
theorem need_agrees_with_name (hclosed : R.Closed s.heap) (hpromises : ∀ p, ¬ R.promise p)
    (hhosts : R.Hosts eng.host) (hstateless : R.Stateless eng.host) (ht : t.Ordinary R)
    (henv : R.frame env) (hmask : Mask.Ordinary R mask) (m : Nat) (v : Value) :
    (Yields (evaluateByName (eng.withLimit m)) t env mask s v →
      Yields (evaluate (eng.withLimit m)) t env mask s v) ∧
    (Yields (evaluate (eng.withLimit m)) t env mask s v →
      ∃ m', Yields (evaluateByName (eng.withLimit m')) t env mask s v) := by
  let G : Ground := ⟨s.heap, R, eng.host, hclosed, hpromises, hhosts, hstateless⟩
  have hl : G.Labelled .frame s.heap := Ground.labelled_start
  have hframe : G.HasFrame s.heap env := .inl henv
  have hunmarked : ∀ k r, G.Unmarked k r .frame s.heap := fun k r p hp =>
    absurd hp.2 (Nat.not_lt.2 hp.1)
  constructor
  · rintro ⟨fuel, s', hrun⟩
    have hname := G.evaluateByName_follows (eng.withLimit m) rfl fuel
    obtain ⟨-, -, k, r, hr, hd⟩ := (hname.eval hl hframe ht hmask).sound v s' hrun
    have hneed := G.evaluate_follows (eng.withLimit m) rfl k
    obtain ⟨s'', hs''⟩ := (hneed.eval hl hframe ht hmask).complete k r (Nat.le_refl k)
      (hr trivial) (hunmarked _ r) v (hd k r (Nat.le_refl k) (Nat.le_refl r))
    exact ⟨k, s'', hs''⟩
  · rintro ⟨fuel, s', hrun⟩
    have hneed := G.evaluate_follows (eng.withLimit m) rfl fuel
    obtain ⟨-, -, k, r, -, hd⟩ := (hneed.eval hl hframe ht hmask).sound v s' hrun
    have hname := G.evaluateByName_follows (eng.withLimit (s.depth + r)) rfl k
    have hlevels : r ≤ s.depth + r - s.depth := by omega
    obtain ⟨s'', hs''⟩ := (hname.eval hl hframe ht hmask).complete k r (Nat.le_refl k)
      hlevels (hunmarked _ r) v (hd k r (Nat.le_refl k) (Nat.le_refl r))
    exact ⟨s.depth + r, k, s'', hs''⟩

end

def Closure.doubling : Closure Tree where
  name := some "doubling"
  formals := [⟨"x", none⟩, ⟨"y", some (.callNamed "+" [.reference "x", .reference "x"])⟩]
  body := .callNamed "+" [.reference "y", .callNamed "+" [.reference "y", .reference "x"]]
  env := 0
  id := 2

def Closure.handing : Closure Tree where
  name := some "handing"
  formals := [⟨"g", none⟩, ⟨dotsName, none⟩]
  body := .call (.reference "g") [⟨none, .dots⟩]
  env := 0
  id := 3

def State.withDefault : State where
  heap :=
    let h := (({} : Heap).newFrame none false).2
    let h := h.define 0 "+" (.builtin ⟨.arithmetic .add, 1⟩)
    let h := h.define 0 "doubling" (.closure .doubling)
    h.define 0 "handing" (.closure .handing)

theorem Outcome.eq_ok_of_asInt? {r : Outcome Value} {n : Int64}
    (h : r.value?.bind Value.asInt? = some n) : r = .ok (.int n) r.state := by
  obtain ⟨v, hv, hn⟩ := Option.bind_eq_some_iff.1 h
  cases v <;> cases hn
  exact Outcome.eq_ok_of_value? hv

theorem passed_argument_by_need_and_by_name :
    let eng : Engine := { host := ⟨fun _ _ w => (.ok .null, w), fun _ _ => .done .null⟩ }
    let t : Tree := .callNamed "handing"
      [.reference "doubling", .callNamed "+" [.literal (.int 1), .literal (.int 2)]]
    Yields (evaluateByName (eng.withLimit 6)) t 0 none .withDefault (.int 15) ∧
      Yields (evaluate (eng.withLimit 6)) t 0 none .withDefault (.int 15) ∧
      ∃ m, Yields (evaluateByName (eng.withLimit m)) t 0 none .withDefault (.int 15) := by
  intro eng t
  let R : Region := ⟨(· = 0), fun _ => False, fun op => ∀ name, op ≠ .host name⟩
  have hentries : ∀ e ∈ [("+", Binding.value (.builtin ⟨.arithmetic .add, 1⟩)),
      ("doubling", .value (.closure .doubling)), ("handing", .value (.closure .handing))],
      e.2.Ordinary R := by
    simp only [List.forall_mem_cons]
    refine ⟨nofun, ⟨⟨⟨trivial, trivial, trivial, trivial⟩, trivial⟩, ?_, rfl⟩, ⟨trivial, ?_, rfl⟩,
      nofun⟩
    · exact ⟨trivial, trivial, ⟨trivial, trivial, trivial, trivial⟩, trivial⟩
    · exact ⟨trivial, trivial, trivial⟩
  have hclosed : R.Closed State.withDefault.heap :=
    Region.closed_of_entries (fun _ h => h) (fun _ => id) Nat.zero_lt_one rfl hentries
  obtain ⟨hhosts, hstateless⟩ := R.stateless_of_prelude (fun name h => h name rfl) eng.host
  have ht : t.Ordinary R := ⟨trivial, trivial, ⟨trivial, trivial, trivial, trivial⟩, trivial⟩
  have hagree := need_agrees_with_name hclosed (fun _ => id) hhosts hstateless ht rfl
    Mask.ordinary_none 6 (.int 15)
  have hname : Yields (evaluateByName (eng.withLimit 6)) t 0 none .withDefault (.int 15) :=
    ⟨10, _, Outcome.eq_ok_of_asInt? (by decide +kernel)⟩
  exact ⟨hname, hagree.1 hname, hagree.2 (hagree.1 hname)⟩

end Quotation
