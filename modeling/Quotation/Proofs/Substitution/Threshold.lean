import Mathlib.Order.Bounds.Basic
import Quotation.Proofs.Substitution.Literal
import Quotation.Proofs.Substitution.Reference

/-! The levels that substitution takes. Where the operands can do nothing, there is an exact number of
levels that substitution in a tree needs: as many as there are calls and pairlists with markers on
some way inwards. With one level less it comes to the limit. -/

namespace Quotation

mutual

/-- The markers of a tree stand where they may stand, and their operands are literals that can be
converted. -/
inductive Tree.Ready : Tree → Prop
  | literal (v : Value) : (Tree.literal v).Ready
  | reference (name : String) : (Tree.reference name).Ready
  | call {head : Tree} {args : List Slot} :
      head.Ready → (∀ slot ∈ args, Slot.Ready slot) → (Tree.call head args).Ready
  | pairlist {args : List Slot} : (∀ slot ∈ args, Slot.Ready slot) → (Tree.pairlist args).Ready
  | unquote {v : Value} {t : Tree} : Tree.ofValue v = .ok t → (Tree.unquote (.literal v)).Ready

inductive Slot.Ready : Slot → Prop
  | tree {name : Option String} {t : Tree} : t.Ready → Slot.Ready ⟨name, t⟩
  | splice {name : Option String} {v : Value} {slots : List Slot} :
      Slot.ofSequence v = .ok slots → Slot.Ready ⟨name, .splice (.literal v)⟩
  | define {name : Option String} {n : Value} {label : String} {t : Tree} :
      n.toName = .ok label → t.Ready → Slot.Ready ⟨name, .define (.literal n) t⟩
  | defineSplice {name : Option String} {n v : Value} {label : String} {slots : List Slot} :
      n.toName = .ok label → Slot.ofSequence v = .ok slots →
        Slot.Ready ⟨name, .define (.literal n) (.splice (.literal v))⟩

end

theorem Tree.ready_of_noMarkers : (∀ t : Tree, t.hasMarkers = false → t.Ready) ∧
    ∀ l : List Slot, Slot.anyMarkers l = false → ∀ slot ∈ l, Slot.Ready slot := by
  refine Tree.hasMarkers.mutual_induct _ _ ?literal ?reference ?call ?pairlist ?unquote ?splice
    ?define ?nil ?cons
  case literal => exact fun v _ => .literal v
  case reference => exact fun name _ => .reference name
  case call =>
    intro head args hhead hargs hm
    obtain ⟨hh, ha⟩ := Bool.or_eq_false_iff.1 hm
    exact .call (hhead hh) (hargs ha)
  case pairlist => exact fun _ hargs hm => .pairlist (hargs hm)
  case unquote => exact fun _ hm => nomatch hm
  case splice => exact fun _ hm => nomatch hm
  case define => exact fun _ _ hm => nomatch hm
  case nil => exact nofun
  case cons =>
    intro name t rest ht hrest hm
    obtain ⟨h, hrestm⟩ := Bool.or_eq_false_iff.1 hm
    exact List.forall_mem_cons.2 ⟨.tree (ht h), hrest hrestm⟩

/-- A call or a pairlist with markers. -/
def Tree.isLayer : Tree → Bool
  | .call head args => head.hasMarkers || Slot.anyMarkers args
  | .pairlist args => Slot.anyMarkers args
  | _ => false

/-- The subtrees directly inside, but for the operands of markers. The value of a definition is not
an operand. -/
def Tree.parts : Tree → List Tree
  | .call head args => head :: args.map Named.val
  | .pairlist args => args.map Named.val
  | .define _ v => [v]
  | _ => []

/-- The trees on a way inwards, from a tree to some subtree. -/
inductive Tree.Path : Tree → List Tree → Prop
  | here (t : Tree) : t.Path [t]
  | inwards {t u : Tree} {p : List Tree} : u ∈ t.parts → u.Path p → t.Path (t :: p)

def Tree.layers (p : List Tree) : Nat := p.countP Tree.isLayer

@[simp] theorem Tree.layers_nil : Tree.layers [] = 0 := rfl

theorem Tree.layers_cons_of_isLayer {t : Tree} (h : t.isLayer = true) (p : List Tree) :
    Tree.layers (t :: p) = Tree.layers p + 1 := List.countP_cons_of_pos h

theorem Tree.layers_cons_of_not_isLayer {t : Tree} (h : t.isLayer = false) (p : List Tree) :
    Tree.layers (t :: p) = Tree.layers p := List.countP_cons_of_neg (by simp [h])

theorem Tree.nesting_of_noMarkers {t : Tree} (h : t.hasMarkers = false) : t.nesting = 0 := by
  cases t <;> simp_all [Tree.nesting, Tree.hasMarkers]

theorem Slot.nesting_le_iff {l : List Slot} {n : Nat} :
    Slot.nesting l ≤ n ↔ ∀ t ∈ l.map Named.val, t.nesting ≤ n := by
  induction l with
  | nil => simp [Slot.nesting]
  | cons slot rest ih => simp [Slot.nesting, ih]

theorem Slot.anyMarkers_eq_false_iff {l : List Slot} :
    Slot.anyMarkers l = false ↔ ∀ t ∈ l.map Named.val, t.hasMarkers = false := by
  simp [Slot.anyMarkers_eq_any]

theorem Tree.nesting_le_iff {t : Tree} (h : t.isLayer = true) {n : Nat} :
    t.nesting ≤ n + 1 ↔ ∀ u ∈ t.parts, u.nesting ≤ n := by
  cases t with
  | literal | reference | unquote | splice | define => cases h
  | call head args =>
    rw [Tree.isLayer] at h
    simp only [Tree.nesting, h, if_true, Nat.add_le_add_iff_right, Nat.max_le, Tree.parts,
      List.forall_mem_cons, Slot.nesting_le_iff]
  | pairlist args =>
    rw [Tree.isLayer] at h
    simp only [Tree.nesting, h, if_true, Nat.add_le_add_iff_right, Tree.parts, Slot.nesting_le_iff]

theorem Tree.nesting_pos {t : Tree} (h : t.isLayer = true) : 1 ≤ t.nesting := by
  cases t with
  | literal | reference | unquote | splice | define => cases h
  | call head args =>
    rw [Tree.isLayer] at h
    simp [Tree.nesting, h]
  | pairlist args =>
    rw [Tree.isLayer] at h
    simp [Tree.nesting, h]

theorem Tree.nesting_part_lt {t u : Tree} (h : t.isLayer = true) (hu : u ∈ t.parts) :
    u.nesting < t.nesting := by
  have hpos := Tree.nesting_pos h
  have hle : u.nesting ≤ t.nesting - 1 := (Tree.nesting_le_iff h).1 (by omega) u hu
  omega

theorem Tree.exists_deepest_part {t : Tree} (h : t.isLayer = true) :
    t.nesting = 1 ∨ ∃ u ∈ t.parts, t.nesting = u.nesting + 1 := by
  by_contra hnone
  push Not at hnone
  obtain ⟨hone, hparts⟩ := hnone
  have hpos := Tree.nesting_pos h
  have hless : t.nesting ≤ t.nesting - 2 + 1 := by
    refine (Tree.nesting_le_iff h).2 fun u hu => ?_
    have hlt := Tree.nesting_part_lt h hu
    have hne := hparts u hu
    omega
  omega

theorem Tree.nesting_part_le {t u : Tree} (h : t.isLayer = false) (hu : u ∈ t.parts) :
    u.nesting ≤ t.nesting := by
  have hplain : u.hasMarkers = false → u.nesting ≤ t.nesting := fun hm =>
    (Tree.nesting_of_noMarkers hm).le.trans (Nat.zero_le _)
  cases t with
  | literal | reference | unquote | splice => cases hu
  | define n v =>
    obtain rfl := List.mem_singleton.1 hu
    exact Nat.le_refl _
  | call head args =>
    rw [Tree.isLayer, Bool.or_eq_false_iff, Slot.anyMarkers_eq_false_iff] at h
    have hparts : ∀ v ∈ (Tree.call head args).parts, v.hasMarkers = false :=
      List.forall_mem_cons.2 h
    exact hplain (hparts u hu)
  | pairlist args =>
    rw [Tree.isLayer, Slot.anyMarkers_eq_false_iff] at h
    exact hplain (h u hu)

theorem Tree.Path.layers_le {t : Tree} {p : List Tree} (h : t.Path p) :
    Tree.layers p ≤ t.nesting := by
  induction h with
  | here t =>
    cases hl : t.isLayer with
    | false =>
      rw [Tree.layers_cons_of_not_isLayer hl]
      exact Nat.zero_le _
    | true =>
      rw [Tree.layers_cons_of_isLayer hl]
      exact Tree.nesting_pos hl
  | @inwards t u p hu _ ih =>
    cases hl : t.isLayer with
    | false =>
      rw [Tree.layers_cons_of_not_isLayer hl]
      exact ih.trans (Tree.nesting_part_le hl hu)
    | true =>
      rw [Tree.layers_cons_of_isLayer hl]
      exact Nat.succ_le_of_lt (ih.trans_lt (Tree.nesting_part_lt hl hu))

theorem Tree.exists_path_of_isLayer {t : Tree} (h : t.isLayer = true)
    (hparts : ∀ u ∈ t.parts, ∃ p, u.Path p ∧ Tree.layers p = u.nesting) :
    ∃ p, t.Path p ∧ Tree.layers p = t.nesting := by
  rcases Tree.exists_deepest_part h with hone | ⟨u, hu, hnesting⟩
  · exact ⟨[t], .here t, (Tree.layers_cons_of_isLayer h []).trans hone.symm⟩
  · obtain ⟨p, hp, hlayers⟩ := hparts u hu
    refine ⟨t :: p, .inwards hu hp, ?_⟩
    rw [Tree.layers_cons_of_isLayer h, hlayers, hnesting]

theorem Tree.exists_path : (∀ t : Tree, ∃ p, t.Path p ∧ Tree.layers p = t.nesting) ∧
    ∀ l : List Slot, ∀ t ∈ l.map Named.val, ∃ p, t.Path p ∧ Tree.layers p = t.nesting := by
  have hhere : ∀ t : Tree, t.isLayer = false → t.nesting = 0 →
      ∃ p, t.Path p ∧ Tree.layers p = t.nesting := fun t hl hn =>
    ⟨[t], .here t, (Tree.layers_cons_of_not_isLayer hl []).trans hn.symm⟩
  refine Tree.nesting.mutual_induct _ _ ?literal ?reference ?call ?plainCall ?pairlist
    ?plainPairlist ?unquote ?splice ?define ?nil ?cons
  case literal => exact fun _ => hhere _ rfl rfl
  case reference => exact fun _ => hhere _ rfl rfl
  case call =>
    exact fun head args hm hhead hargs =>
      Tree.exists_path_of_isLayer hm (List.forall_mem_cons.2 ⟨hhead, hargs⟩)
  case plainCall =>
    intro head args hm
    have hm : (Tree.call head args).hasMarkers = false := Bool.eq_false_iff.2 hm
    exact hhere _ hm (Tree.nesting_of_noMarkers hm)
  case pairlist => exact fun args hm hargs => Tree.exists_path_of_isLayer hm hargs
  case plainPairlist =>
    intro args hm
    have hm : (Tree.pairlist args).hasMarkers = false := Bool.eq_false_iff.2 hm
    exact hhere _ hm (Tree.nesting_of_noMarkers hm)
  case unquote => exact fun _ => hhere _ rfl rfl
  case splice => exact fun _ => hhere _ rfl rfl
  case define =>
    rintro n v ⟨p, hp, hlayers⟩
    exact ⟨_, .inwards (List.mem_singleton_self v) hp, hlayers⟩
  case nil => exact nofun
  case cons => exact fun _ _ _ ht hrest => List.forall_mem_cons.2 ⟨ht, hrest⟩

theorem Tree.nesting_isGreatest (t : Tree) :
    IsGreatest {n | ∃ p, t.Path p ∧ Tree.layers p = n} t.nesting := by
  refine ⟨Tree.exists_path.1 t, ?_⟩
  rintro n ⟨p, hp, rfl⟩
  exact hp.layers_le

theorem Tree.nesting_of_moreParts {t t' : Tree} (h : t.isLayer = true) (h' : t'.isLayer = true)
    (hsub : ∀ u ∈ t.parts, u ∈ t'.parts) (hless : ∀ u ∈ t'.parts, u.nesting < t.nesting) :
    t'.nesting = t.nesting := by
  have hpos := Tree.nesting_pos h
  apply Nat.le_antisymm
  · have hle : t'.nesting ≤ t.nesting - 1 + 1 := by
      refine (Tree.nesting_le_iff h').2 fun u hu => ?_
      have hlt := hless u hu
      omega
    omega
  · have hpos' := Tree.nesting_pos h'
    have hle : t.nesting ≤ t'.nesting - 1 + 1 := by
      refine (Tree.nesting_le_iff h).2 fun u hu => ?_
      have hlt := Tree.nesting_part_lt h' (hsub u hu)
      omega
    omega

/-- A computation that needs just so many levels: with fewer left it comes to the limit, which it
meets where there are none left. However it ends, nothing has changed but the log. -/
structure Eval.NeedsLevels {α : Type} (maxDepth n : Nat) (act : Eval α) : Prop where
  enough : ∀ s, n ≤ maxDepth - s.depth → ∃ a u, act s = .ok a u ∧ u.Deeper 0 s
  short : ∀ s, maxDepth - s.depth < n → ∃ u,
    act s = .error (.failed (.stackOverflow (max maxDepth s.depth + 1) maxDepth)) u ∧ u.Deeper 0 s

namespace Eval.NeedsLevels

variable {α β : Type} {maxDepth m n : Nat} {act : Eval α}

theorem ofComesTo {a : α} (h : act.ComesTo (.ok a)) : act.NeedsLevels maxDepth 0 where
  enough s _ := by
    obtain ⟨u, hu, hact⟩ := h s
    exact ⟨a, u, hact, hu⟩
  short _ hs := absurd hs (Nat.not_lt_zero _)

theorem pure (a : α) : NeedsLevels maxDepth 0 (Pure.pure a) := .ofComesTo (.pure a)

theorem bind (h : act.NeedsLevels maxDepth m) {f : α → Eval β}
    (hf : ∀ a, (f a).NeedsLevels maxDepth n) :
    (act >>= f).NeedsLevels maxDepth (max m n) where
  enough s hs := by
    obtain ⟨a, u, hact, hu⟩ := h.enough s ((Nat.le_max_left m n).trans hs)
    have hdepth : u.depth = s.depth := hu.depth
    obtain ⟨b, w, hnext, hw⟩ := (hf a).enough u (hdepth ▸ (Nat.le_max_right m n).trans hs)
    exact ⟨b, w, Eval.bind_eq_ok.2 ⟨a, u, hact, hnext⟩, hw.trans_same hu⟩
  short s hs := by
    rw [Eval.bind_apply]
    by_cases hm : maxDepth - s.depth < m
    · obtain ⟨u, hact, hu⟩ := h.short s hm
      rw [hact]
      exact ⟨u, rfl, hu⟩
    · obtain ⟨a, u, hact, hu⟩ := h.enough s (Nat.not_lt.1 hm)
      have hdepth : u.depth = s.depth := hu.depth
      have hn : maxDepth - u.depth < n := by omega
      obtain ⟨w, hnext, hw⟩ := (hf a).short u hn
      rw [hact, Outcome.follow_ok_eval, hnext, hdepth]
      exact ⟨w, rfl, hw.trans_same hu⟩

theorem map (h : act.NeedsLevels maxDepth n) (f : α → β) :
    (act >>= fun a => Pure.pure (f a)).NeedsLevels maxDepth n := by
  have hmap := h.bind fun a => .pure (f a)
  rwa [Nat.max_zero] at hmap

theorem after {a : α} (h : act.ComesTo (.ok a)) {f : α → Eval β}
    (hf : ∀ a, (f a).NeedsLevels maxDepth n) : (act >>= f).NeedsLevels maxDepth n := by
  have hbind := (ofComesTo h).bind hf
  rwa [Nat.zero_max] at hbind

theorem nested (h : act.NeedsLevels maxDepth n) :
    (Eval.nested maxDepth act).NeedsLevels maxDepth (n + 1) where
  enough s hs := by
    have hdepth : s.depth < maxDepth := by omega
    have hin : n ≤ maxDepth - (s.mapDepth (· + 1)).depth := by
      simp only [State.mapDepth]
      omega
    obtain ⟨a, u, hact, hu⟩ := h.enough (s.mapDepth (· + 1)) hin
    rw [Eval.nested_apply, if_pos hdepth, hact]
    exact ⟨a, u.mapDepth (· - 1), rfl, hu.leave rfl⟩
  short s hs := by
    rw [Eval.nested_apply]
    split
    · have hin : maxDepth - (s.mapDepth (· + 1)).depth < n := by
        simp only [State.mapDepth]
        omega
      have hlimit : max maxDepth (s.mapDepth (· + 1)).depth = max maxDepth s.depth := by
        simp only [State.mapDepth]
        omega
      obtain ⟨u, hact, hu⟩ := h.short (s.mapDepth (· + 1)) hin
      rw [hact, hlimit]
      exact ⟨u.mapDepth (· - 1), rfl, hu.leave rfl⟩
    · have hlimit : max maxDepth s.depth = s.depth := by omega
      rw [hlimit]
      exact ⟨s, rfl, .refl s⟩

end Eval.NeedsLevels

variable {eng : Engine} {ev : Evaluator} {env : FrameId} {mask : Option Mask}

theorem resolve_parts_need (hev : LiteralsStand ev) :
    (∀ t : Tree, t.Ready →
        (resolveTree eng ev env mask t).NeedsLevels eng.maxDepth t.nesting) ∧
      (∀ l : List Slot, (∀ slot ∈ l, Slot.Ready slot) →
        (resolveSlots eng ev env mask l).NeedsLevels eng.maxDepth (Slot.nesting l)) ∧
      ∀ slot : Slot, Slot.Ready slot →
        (resolveSlot eng ev env mask slot).NeedsLevels eng.maxDepth slot.val.nesting := by
  refine resolveTree.mutual_induct _ _ _ ?literal ?reference ?call ?finishedCall ?pairlist
    ?finishedPairlist ?unquote ?splice ?define ?nil ?cons ?spliceSlot ?defineSplice ?defineSlot
    ?plainSlot
  case literal => exact fun _ _ => .pure _
  case reference => exact fun _ _ => .pure _
  case call =>
    intro head args hm hhead hargs h
    simp only [resolveTree, Tree.nesting, hm, if_true]
    cases h with
    | call hh ha => exact ((hhead hh).bind fun head => (hargs ha).map (Tree.call head)).nested
  case finishedCall =>
    intro head args hm _
    have hm : (Tree.call head args).hasMarkers = false := Bool.eq_false_iff.2 hm
    rw [resolveTree_of_noMarkers hm, Tree.nesting_of_noMarkers hm]
    exact .pure _
  case pairlist =>
    intro args hm hargs h
    simp only [resolveTree, Tree.nesting, hm, if_true]
    cases h with
    | pairlist ha => exact ((hargs ha).map Tree.pairlist).nested
  case finishedPairlist =>
    intro args hm _
    have hm : (Tree.pairlist args).hasMarkers = false := Bool.eq_false_iff.2 hm
    rw [resolveTree_of_noMarkers hm, Tree.nesting_of_noMarkers hm]
    exact .pure _
  case unquote =>
    intro e h
    cases h with
    | unquote hv => exact .ofComesTo (hv ▸ resolveUnquote_comesTo hev _)
  case splice =>
    intro e h
    cases h
  case define =>
    intro n v h
    cases h
  case nil => exact fun _ => .pure _
  case cons =>
    intro slot rest hslot hrest h
    obtain ⟨hhere, hthere⟩ := List.forall_mem_cons.1 h
    exact (hslot hhere).bind fun here => (hrest hthere).map (here ++ ·)
  case spliceSlot =>
    intro _ e h
    cases h with
    | tree h => cases h
    | splice hv => exact .ofComesTo (hv ▸ resolveSplice_comesTo hev _)
  case defineSplice =>
    intro _ n e h
    cases h with
    | tree h => cases h
    | define _ h => cases h
    | defineSplice hn hv =>
      refine .after (hn ▸ resolveName_comesTo hev _) fun name => ?_
      exact .after (hv ▸ resolveSplice_comesTo hev _) fun slots => .pure _
  case defineSlot =>
    intro _ n v hv ht h
    rw [resolveSlot.eq_3 _ _ _ _ _ _ _ hv]
    cases h with
    | tree h => cases h
    | defineSplice => exact absurd rfl (hv _)
    | define hn h => exact .after (hn ▸ resolveName_comesTo hev _) fun name => (ht h).map _
  case plainSlot =>
    intro name t h₁ h₂ h₃ ht h
    rw [resolveSlot.eq_4 _ _ _ _ _ _ h₁ h₂ h₃]
    cases h with
    | tree h => exact (ht h).map _
    | splice => exact absurd rfl (h₁ _)
    | define => exact absurd rfl (h₃ _ _)
    | defineSplice => exact absurd rfl (h₃ _ _)

/-- Substitution where the operands are literals that convert succeeds just if there are as many
levels left as the nesting of the tree, which is the largest number of layers on a way inwards, and
otherwise it comes to the limit. What has no markers has no nesting, and neither do more parts side
by side make any. -/
theorem resolve_succeeds_iff_nesting_le (eng : Engine) (fuel : Nat) {t : Tree} (ht : t.Ready)
    (env : FrameId) (mask : Option Mask) (s : State) :
    let resolved : Outcome Tree := resolve eng (evaluate eng (fuel + 1)) t env mask s
    IsGreatest {n | ∃ p, t.Path p ∧ Tree.layers p = n} t.nesting ∧
      ((∃ t' u, resolved = .ok t' u) ↔ t.nesting ≤ eng.maxDepth - s.depth) ∧
      (s.depth ≤ eng.maxDepth → ¬ t.nesting ≤ eng.maxDepth - s.depth → ∃ u,
        resolved = .error (.failed (.stackOverflow (eng.maxDepth + 1) eng.maxDepth)) u) ∧
      resolved.state.Deeper 0 s ∧
      (∀ u : Tree, u.hasMarkers = false → u.nesting = 0) ∧
      ∀ u u' : Tree, u.isLayer = true → u'.isLayer = true → (∀ v ∈ u.parts, v ∈ u'.parts) →
        (∀ v ∈ u'.parts, v.nesting < u.nesting) → u'.nesting = u.nesting := by
  intro resolved
  have hneeds : (resolve eng (evaluate eng (fuel + 1)) t env mask).NeedsLevels eng.maxDepth
      t.nesting :=
    .after (.debug _) fun _ => (resolve_parts_need (evaluate_literalsStand eng fuel)).1 t ht
  have hends : (∃ t' u, resolved = .ok t' u) ↔ t.nesting ≤ eng.maxDepth - s.depth := by
    constructor
    · rintro ⟨t', u, hok⟩
      by_contra hroom
      obtain ⟨w, hover, -⟩ := hneeds.short s (Nat.not_le.1 hroom)
      exact nomatch hok.symm.trans hover
    · intro hroom
      obtain ⟨t', u, hok, -⟩ := hneeds.enough s hroom
      exact ⟨t', u, hok⟩
  refine ⟨t.nesting_isGreatest, hends, fun hlevel hroom => ?_, ?_,
    fun u => Tree.nesting_of_noMarkers, fun u u' => Tree.nesting_of_moreParts⟩
  · obtain ⟨u, hover, -⟩ := hneeds.short s (Nat.not_le.1 hroom)
    rw [Nat.max_eq_left hlevel] at hover
    exact ⟨u, hover⟩
  · by_cases hroom : t.nesting ≤ eng.maxDepth - s.depth
    · obtain ⟨t', u, hok, hu⟩ := hneeds.enough s hroom
      change resolved = _ at hok
      rw [hok]
      exact hu
    · obtain ⟨u, hover, hu⟩ := hneeds.short s (Nat.not_le.1 hroom)
      change resolved = _ at hover
      rw [hover]
      exact hu

def Tree.twoLayers : Tree :=
  .call (.reference "f") [⟨none, .unquote (.literal (.int 1))⟩,
    ⟨none, .callNamed "g" [.callNamed "h" [.reference "x"]]⟩,
    ⟨none, .define (.literal (.str "a")) (.pairlist [⟨none, .splice (.literal .null)⟩])⟩]

theorem Tree.twoLayers_ready : Tree.twoLayers.Ready := by
  refine .call (.reference "f") (List.forall_mem_cons.2 ⟨.tree (.unquote rfl), ?_⟩)
  refine List.forall_mem_cons.2 ⟨.tree (Tree.ready_of_noMarkers.1 _ rfl), ?_⟩
  refine List.forall_mem_cons.2 ⟨.define rfl (.pairlist ?_), nofun⟩
  exact List.forall_mem_cons.2 ⟨.splice rfl, nofun⟩

theorem resolve_twoLayers :
    let eng (maxDepth : Nat) : Engine := { host := Session.host, maxDepth }
    (Tree.twoLayers.Ready ∧ Tree.twoLayers.nesting = 2) ∧
      (∃ t u, resolve (eng 2) (evaluate (eng 2) 1) Tree.twoLayers 0 none {} = .ok t u) ∧
      ∃ u, resolve (eng 1) (evaluate (eng 1) 1) Tree.twoLayers 0 none {} =
        .error (.failed (.stackOverflow 2 1)) u := by
  intro eng
  have hready := Tree.twoLayers_ready
  have hresolved := fun n => resolve_succeeds_iff_nesting_le (eng n) 0 hready 0 none {}
  refine ⟨⟨hready, rfl⟩, (hresolved 2).2.1.2 (Nat.le_refl 2), ?_⟩
  exact (hresolved 1).2.2.1 (Nat.zero_le 1) (by decide)

end Quotation
