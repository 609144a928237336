import Quotation.Proofs.Level
import Quotation.Proofs.Substitution.Filling

namespace Quotation

def Query.operand? : Query → Option Tree
  | .tree e => some e
  | .slots e => some e
  | .name n => some n
  | .misplaced _ => none

section

variable (eng : Engine) (ev : Evaluator) (env : FrameId) (mask : Option Mask)

def Unobserving : List Request → State → Prop
  | [], _ => True
  | r :: rest, s =>
    (∀ e, r.query.operand? = some e → (ev e env mask).LevelBlind (s.mapDepth (· + r.level))) ∧
      ∀ v t, r.ask eng ev env mask s = .ok v t → Unobserving rest t

end

variable {eng : Engine} {ev : Evaluator} {env : FrameId} {mask : Option Mask} {s : State}
  {α β : Type}

theorem Request.ask_related (hev : IgnoresLog eng ev) (r : Request) :
    (Lockstep.unlogged eng).Related (r.ask eng ev env mask) (r.ask eng ev env mask) := by
  have hquery : (Lockstep.unlogged eng).Related (r.query.ask eng ev env mask)
      (r.query.ask eng ev env mask) := by
    cases r.query with
    | tree e =>
      exact (hev e env mask).bind fun v => Lockstep.Related.bind (.ofExcept fun _ _ => trivial)
        fun t => Lockstep.Related.bind (.trace _) fun _ => .pure v
    | slots e =>
      exact (hev e env mask).bind fun v => Lockstep.Related.bind (.ofExcept fun _ _ => trivial)
        fun slots => Lockstep.Related.bind (.trace _) fun _ => .pure v
    | name n =>
      exact (hev n env mask).bind fun v => Lockstep.Related.bind (.ofExcept fun _ _ => trivial)
        fun _ => .pure v
    | misplaced e => exact .fail trivial
  intro o s₁ s₂ hs
  have hin : (s₁.mapDepth (· + r.level)).Deeper 0 (s₂.mapDepth (· + r.level)) :=
    ⟨hs.heap, hs.world, congrArg (· + r.level) hs.depth⟩
  have hout : ∀ t₁ t₂ : State, t₁.Deeper 0 t₂ →
      (t₁.mapDepth (· - r.level)).Deeper 0 (t₂.mapDepth (· - r.level)) :=
    fun t₁ t₂ ht => ⟨ht.heap, ht.world, congrArg (· - r.level) ht.depth⟩
  exact (hquery o _ _ hin).follow (fun a t₁ t₂ ht => .ok (hout t₁ t₂ ht)) hout

theorem Unobserving.ofLog (hev : IgnoresLog eng ev) {requests : List Request} {s s' : State}
    (hs : s.Deeper 0 s') (h : Unobserving eng ev env mask requests s) :
    Unobserving eng ev env mask requests s' := by
  induction requests generalizing s s' with
  | nil => trivial
  | cons r rest ih =>
    refine ⟨fun e he => (h.1 e he).ofLog (hev e env mask) ?_, fun v t' ht' => ?_⟩
    · exact ⟨hs.heap, hs.world, congrArg (· + r.level) hs.depth⟩
    · obtain ⟨t, ht, hsame⟩ := (r.ask_related hev).ok_same hs ht'
      exact ih hsame (h.2 v t ht)

theorem Unobserving.append {l r : List Request} (h : Unobserving eng ev env mask (l ++ r) s) :
    Unobserving eng ev env mask l s ∧ ∀ vs t, askAll eng ev env mask l s = .ok vs t →
      Unobserving eng ev env mask r t := by
  induction l generalizing s with
  | nil =>
    refine ⟨trivial, fun vs t ht => ?_⟩
    cases ht
    exact h
  | cons q rest ih =>
    refine ⟨⟨h.1, fun v t ht => (ih (h.2 v t ht)).1⟩, fun vs t ht => ?_⟩
    rw [askAll, Eval.bind_apply] at ht
    cases hq : q.ask eng ev env mask s with
    | error halt u =>
      rw [hq] at ht
      cases ht
    | ok v u =>
      rw [hq, Outcome.follow_ok_eval, Eval.bind_apply] at ht
      cases hrest : askAll eng ev env mask rest u with
      | error halt w =>
        rw [hrest] at ht
        cases ht
      | ok ws w =>
        rw [hrest] at ht
        cases ht
        exact (ih (h.2 v u hq)).2 ws t hrest

structure Asks (eng : Engine) (ev : Evaluator) (env : FrameId) (mask : Option Mask) (level : Nat)
    (requests : List Request) (act : Eval α) (s : State) : Prop where
  blind : act.LevelBlind s
  asked : ∀ a t, act s = .ok a t → t.depth = s.depth ∧ ∃ vs,
    askAll eng ev env mask requests (s.mapDepth (· - level)) = .ok vs (t.mapDepth (· - level))

namespace Asks

variable {level : Nat}

theorem pure (a : α) : Asks eng ev env mask level [] (Pure.pure a) s where
  blind := .pure a
  asked b t ht := by
    cases ht
    exact ⟨rfl, [], rfl⟩

theorem misplaced (requests : List Request) (e : Error) :
    Asks eng ev env mask level requests (Eval.fail e : Eval α) s where
  blind := .fail e
  asked a t ht := by cases ht

theorem seq {l r : List Request} {x : Eval α} {f : α → Eval β}
    (hx : Asks eng ev env mask level l x s)
    (hf : ∀ a t vs, x s = .ok a t →
      askAll eng ev env mask l (s.mapDepth (· - level)) = .ok vs (t.mapDepth (· - level)) →
        t.depth = s.depth → Asks eng ev env mask level r (f a) t) :
    Asks eng ev env mask level (l ++ r) (x >>= f) s where
  blind := hx.blind.bind fun a t ht =>
    have ⟨hdepth, vs, hvs⟩ := hx.asked a t ht
    (hf a t vs ht hvs hdepth).blind
  asked b u hu := by
    rw [Eval.bind_apply] at hu
    cases ht : x s with
    | error h t =>
      rw [ht] at hu
      cases hu
    | ok a t =>
      rw [ht, Outcome.follow_ok_eval] at hu
      obtain ⟨hdepth, vs, hvs⟩ := hx.asked a t ht
      obtain ⟨hdepth', ws, hws⟩ := (hf a t vs ht hvs hdepth).asked b u hu
      refine ⟨hdepth'.trans hdepth, vs ++ ws, ?_⟩
      rw [askAll_append, Eval.bind_apply, hvs, Outcome.follow_ok_eval, Eval.bind_apply, hws]
      rfl

theorem map {l : List Request} {x : Eval α} {g : α → β}
    (hx : Asks eng ev env mask level l x s) :
    Asks eng ev env mask level l (x >>= fun a => Pure.pure (g a)) s := by
  have h := hx.seq (f := fun a => Pure.pure (g a)) (r := []) fun a _ _ _ _ _ => .pure (g a)
  rwa [List.append_nil] at h

theorem nested {l : List Request} {x : Eval α}
    (hkeeps : ∀ s, (Outcome.state (x s)).depth = s.depth)
    (hx : Asks eng ev env mask (level + 1) l x (s.mapDepth (· + 1))) :
    Asks eng ev env mask level l (Eval.nested eng.maxDepth x) s where
  blind := .nested (hkeeps _) fun _ => hx.blind
  asked a t ht := by
    rw [Eval.nested_apply] at ht
    split at ht
    · cases hr : x (s.mapDepth (· + 1)) with
      | error h u =>
        rw [hr] at ht
        cases ht
      | ok b u =>
        rw [hr, Outcome.follow_ok] at ht
        cases ht
        obtain ⟨hdepth, vs, hvs⟩ := hx.asked a u hr
        refine ⟨by simp only [State.mapDepth] at hdepth ⊢; omega, vs, ?_⟩
        have hin : (s.mapDepth (· + 1)).mapDepth (· - (level + 1)) = s.mapDepth (· - level) := by
          simp [State.mapDepth]
        have hout : u.mapDepth (· - (level + 1)) =
            (u.mapDepth (· - 1)).mapDepth (· - level) := by
          simp [State.mapDepth, Nat.sub_sub, Nat.add_comm]
        rw [hin, hout] at hvs
        exact hvs
    · cases ht

theorem ask {q : Query} {act : Eval α} {convert : Value → α} {marked : α → Bool}
    (hlevel : level ≤ s.depth)
    (hkeeps : ∀ s, (Outcome.state (act s)).depth = s.depth)
    (hanswer : q.AnsweredBy eng ev env mask marked act convert) (hblind : act.LevelBlind s) :
    Asks eng ev env mask level [⟨level, q⟩] act s where
  blind := hblind
  asked a t ht := by
    have hdepth := hkeeps s
    rw [ht] at hdepth
    have hback : (s.mapDepth (· - level)).mapDepth (· + level) = s := by
      simp only [State.mapDepth, Nat.sub_add_cancel hlevel]
    have hs := hanswer s
    cases hq : q.ask eng ev env mask s with
    | error h u =>
      rw [hq, ht] at hs
      cases hs
    | ok v u =>
      rw [hq, ht] at hs
      cases hs.1
      refine ⟨hdepth, [v], ?_⟩
      rw [askAll, Eval.bind_apply, Request.ask, Eval.deeper, hback, hq]
      rfl

end Asks

theorem Unobserving.operand {level : Nat} {q : Query} {rest : List Request}
    (hlevel : level ≤ s.depth)
    (h : Unobserving eng ev env mask (⟨level, q⟩ :: rest) (s.mapDepth (· - level))) {e : Tree}
    (he : q.operand? = some e) : (ev e env mask).LevelBlind s := by
  have hback : (s.mapDepth (· - level)).mapDepth (· + level) = s := by
    simp only [State.mapDepth, Nat.sub_add_cancel hlevel]
  exact hback ▸ h.1 e he

theorem requests_of_noMarkers :
    (∀ level (t : Tree), t.hasMarkers = false → t.requests level = []) ∧
      (∀ level (l : List Slot), Slot.anyMarkers l = false → Slot.allRequests level l = []) ∧
        ∀ level (slot : Slot), slot.val.hasMarkers = false → Slot.requests level slot = [] := by
  refine Tree.requests.mutual_induct _ _ _ ?literal ?reference ?call ?pairlist ?unquote ?splice
    ?define ?nil ?cons ?spliceSlot ?defineSplice ?defineSlot ?plainSlot
  case literal => exact fun _ _ _ => rfl
  case reference => exact fun _ _ _ => rfl
  case call =>
    intro level head args hhead hargs hm
    simp only [Tree.hasMarkers, Bool.or_eq_false_iff] at hm
    simp [Tree.requests, hhead hm.1, hargs hm.2]
  case pairlist =>
    intro level args hargs hm
    simp [Tree.requests, hargs hm]
  case unquote | splice | spliceSlot | define | defineSplice | defineSlot =>
    intros
    contradiction
  case nil => exact fun _ _ => rfl
  case cons =>
    intro level slot rest hslot hrest hm
    simp only [Slot.anyMarkers, Bool.or_eq_false_iff] at hm
    simp [Slot.allRequests, hslot hm.1, hrest hm.2]
  case plainSlot =>
    intro level name t h₁ h₂ h₃ ht hm
    rw [Slot.requests.eq_4 _ _ _ h₁ h₂ h₃, ht hm]

theorem resolveUnquote_levelBlind {e : Tree} (h : (ev e env mask).LevelBlind s) :
    (resolveUnquote eng ev e env mask).LevelBlind s :=
  h.bind fun _ _ _ => (Eval.LevelBlind.ofExcept _).bind fun _ _ _ =>
    (Eval.LevelBlind.trace _ _).bind fun _ _ _ => .pure _

theorem resolveSplice_levelBlind {e : Tree} (h : (ev e env mask).LevelBlind s) :
    (resolveSplice eng ev e env mask).LevelBlind s :=
  h.bind fun _ _ _ => (Eval.LevelBlind.ofExcept _).bind fun _ _ _ =>
    (Eval.LevelBlind.trace _ _).bind fun _ _ _ => .pure _

theorem resolveName_levelBlind {n : Tree} (h : (ev n env mask).LevelBlind s) :
    (resolveName ev n env mask).LevelBlind s :=
  h.bind fun _ _ _ => .ofExcept _

section

variable {level : Nat} {rest : List Request} (hev : KeepsLevel eng ev) (hlevel : level ≤ s.depth)

include hev hlevel

theorem resolveUnquote_asks {e : Tree}
    (h : Unobserving eng ev env mask (⟨level, .tree e⟩ :: rest) (s.mapDepth (· - level))) :
    Asks eng ev env mask level [⟨level, .tree e⟩] (resolveUnquote eng ev e env mask) s :=
  .ask hlevel (resolveUnquote_related hev e env mask).depth_eq (Query.tree_answeredBy e)
    (resolveUnquote_levelBlind (h.operand hlevel rfl))

theorem resolveSplice_asks {e : Tree}
    (h : Unobserving eng ev env mask (⟨level, .slots e⟩ :: rest) (s.mapDepth (· - level))) :
    Asks eng ev env mask level [⟨level, .slots e⟩] (resolveSplice eng ev e env mask) s :=
  .ask hlevel (resolveSplice_related hev e env mask).depth_eq (Query.slots_answeredBy e)
    (resolveSplice_levelBlind (h.operand hlevel rfl))

theorem resolveName_asks {n : Tree}
    (h : Unobserving eng ev env mask (⟨level, .name n⟩ :: rest) (s.mapDepth (· - level))) :
    Asks eng ev env mask level [⟨level, .name n⟩] (resolveName ev n env mask) s :=
  .ask hlevel (resolveName_related hev n env mask).depth_eq (Query.name_answeredBy n)
    (resolveName_levelBlind (h.operand hlevel rfl))

end

theorem resolve_parts_ask (hev : KeepsLevel eng ev) :
    (∀ t level s, level ≤ s.depth →
        Unobserving eng ev env mask (t.requests level) (s.mapDepth (· - level)) →
          Asks eng ev env mask level (t.requests level) (resolveTree eng ev env mask t) s) ∧
      (∀ l level s, level ≤ s.depth →
        Unobserving eng ev env mask (Slot.allRequests level l) (s.mapDepth (· - level)) →
          Asks eng ev env mask level (Slot.allRequests level l)
            (resolveSlots eng ev env mask l) s) ∧
      ∀ slot level s, level ≤ s.depth →
        Unobserving eng ev env mask (Slot.requests level slot) (s.mapDepth (· - level)) →
          Asks eng ev env mask level (Slot.requests level slot)
            (resolveSlot eng ev env mask slot) s := by
  obtain ⟨htree, hslots, hslot⟩ := resolve_parts_related hev env mask
  refine resolveTree.mutual_induct _ _ _ ?literal ?reference ?call ?finishedCall ?pairlist
    ?finishedPairlist ?unquote ?splice ?define ?nil ?cons ?spliceSlot ?defineSplice ?defineSlot
    ?plainSlot
  case literal => exact fun _ _ _ _ _ => .pure _
  case reference => exact fun _ _ _ _ _ => .pure _
  case call =>
    intro head args hm hhead hargs level s hlevel h
    simp only [resolveTree, Tree.requests, hm, if_true] at h ⊢
    have hin : (s.mapDepth (· + 1)).mapDepth (· - (level + 1)) = s.mapDepth (· - level) := by
      simp [State.mapDepth]
    rw [← hin] at h
    have hkeeps := (htree head).bind fun head => (hslots args).bind fun args =>
      .pure (Tree.call head args)
    refine .nested hkeeps.depth_eq ?_
    refine .seq (hhead _ _ (Nat.succ_le_succ hlevel) h.append.1) fun head t vs _ hvs hdepth => ?_
    refine (hargs _ _ ?_ (h.append.2 vs _ hvs)).map
    rw [hdepth]
    exact Nat.succ_le_succ hlevel
  case finishedCall =>
    intro head args hm level s _ _
    have hm : (Tree.call head args).hasMarkers = false := Bool.eq_false_iff.mpr hm
    rw [requests_of_noMarkers.1 _ _ hm]
    simp only [Tree.hasMarkers] at hm
    simp only [resolveTree, hm]
    exact .pure _
  case pairlist =>
    intro args hm hargs level s hlevel h
    simp only [resolveTree, Tree.requests, hm, if_true] at h ⊢
    have hin : (s.mapDepth (· + 1)).mapDepth (· - (level + 1)) = s.mapDepth (· - level) := by
      simp [State.mapDepth]
    rw [← hin] at h
    have hkeeps := (hslots args).bind fun args => .pure (Tree.pairlist args)
    exact .nested hkeeps.depth_eq (hargs _ _ (Nat.succ_le_succ hlevel) h).map
  case finishedPairlist =>
    intro args hm level s _ _
    have hm : (Tree.pairlist args).hasMarkers = false := Bool.eq_false_iff.mpr hm
    rw [requests_of_noMarkers.1 _ _ hm]
    simp only [Tree.hasMarkers] at hm
    simp only [resolveTree, hm]
    exact .pure _
  case unquote => exact fun e level s hlevel h => resolveUnquote_asks hev hlevel h
  case splice => exact fun _ _ _ _ _ => .misplaced _ _
  case define => exact fun _ _ _ _ _ _ => .misplaced _ _
  case nil => exact fun _ _ _ _ => .pure _
  case cons =>
    intro slot rest hhere hthere level s hlevel h
    refine .seq (hhere _ _ hlevel h.append.1) fun here t vs _ hvs hdepth => ?_
    exact (hthere _ _ (hdepth ▸ hlevel) (h.append.2 vs _ hvs)).map
  case spliceSlot => exact fun _ e level s hlevel h => resolveSplice_asks hev hlevel h
  case defineSplice =>
    intro _ n e level s hlevel h
    have hname : Unobserving eng ev env mask ([⟨level, .name n⟩] ++ [⟨level, .slots e⟩])
      (s.mapDepth (· - level)) := h
    refine .seq (resolveName_asks hev hlevel h) fun name t vs _ hvs hdepth => ?_
    exact (resolveSplice_asks hev (hdepth ▸ hlevel) (hname.append.2 vs _ hvs)).map
  case defineSlot =>
    intro _ n v hv ht level s hlevel h
    rw [Slot.requests.eq_3 _ _ _ _ hv] at h ⊢
    rw [resolveSlot.eq_3 _ _ _ _ _ _ _ hv]
    have hname : Unobserving eng ev env mask ([⟨level, .name n⟩] ++ v.requests level)
      (s.mapDepth (· - level)) := h
    refine .seq (resolveName_asks hev hlevel h) fun name t vs _ hvs hdepth => ?_
    exact (ht _ _ (hdepth ▸ hlevel) (hname.append.2 vs _ hvs)).map
  case plainSlot =>
    intro name t h₁ h₂ h₃ ht level s hlevel h
    rw [Slot.requests.eq_4 _ _ _ h₁ h₂ h₃] at h ⊢
    rw [resolveSlot.eq_4 _ _ _ _ _ _ h₁ h₂ h₃]
    exact (ht _ _ hlevel h).map

theorem resolve_levelBlind (hev : KeepsLevel eng ev) (hlog : IgnoresLog eng ev) {t : Tree}
    (h : Unobserving eng ev env mask (t.requests 0) s) :
    (resolve eng ev t env mask).LevelBlind s := by
  refine (Eval.LevelBlind.debug _).bind fun _ u hu => ?_
  cases hu
  have hsame : s.Deeper 0 (s.record ⟨.debug, "resolve " ++ t.text⟩) := ⟨rfl, rfl, rfl⟩
  have hrecorded := h.ofLog hlog hsame
  exact ((resolve_parts_ask hev).1 t 0 _ (Nat.zero_le _) hrecorded).blind

end Quotation
