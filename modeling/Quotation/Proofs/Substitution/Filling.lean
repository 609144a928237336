import Quotation.Proofs.Substitution.Requests

namespace Quotation

section

variable {eng : Engine} {ev : Evaluator} {env : FrameId} {mask : Option Mask} {α β γ : Type}

def Query.AnsweredBy (eng : Engine) (ev : Evaluator) (env : FrameId) (mask : Option Mask)
    (marked : α → Bool) (q : Query) (act : Eval α) (convert : Value → α) : Prop :=
  ∀ s, match q.ask eng ev env mask s with
    | .ok v t => act s = .ok (convert v) t ∧ marked (convert v) = q.admitsMarkers v
    | .error h t => act s = .error h t

theorem Query.AnsweredBy.ofConversion {marked : α → Bool} {q : Query} {act : Eval α}
    {convert : Value → α} (e : Tree) (c : Value → Except Error α) (tell : α → Eval Unit)
    (hask : q.ask eng ev env mask =
      ev e env mask >>= fun v => Eval.ofExcept (c v) >>= fun a => tell a >>= fun _ => pure v)
    (hact : act =
      ev e env mask >>= fun v => Eval.ofExcept (c v) >>= fun a => tell a >>= fun _ => pure a)
    (hconvert : ∀ v a, c v = .ok a → convert v = a ∧ marked a = q.admitsMarkers v) :
    q.AnsweredBy eng ev env mask marked act convert := by
  intro s
  rw [hask, hact]
  simp only [Eval.bind_apply]
  cases ev e env mask s with
  | error h t => rfl
  | ok v t =>
    simp only [Outcome.follow_ok_eval]
    cases hv : c v with
    | error err => rfl
    | ok a =>
      obtain ⟨ha, hmarked⟩ := hconvert v a hv
      simp only [Eval.ofExcept, Eval.bind_apply, Eval.pure_apply, Outcome.follow_ok_eval]
      cases tell a t with
      | error h t => rfl
      | ok _ t => exact ⟨congrArg (EStateM.Result.ok · t) ha.symm, ha ▸ hmarked⟩

theorem Query.tree_answeredBy (e : Tree) :
    (Query.tree e).AnsweredBy eng ev env mask Tree.hasMarkers (resolveUnquote eng ev e env mask)
      Value.asTree := by
  refine .ofConversion e Tree.ofValue _ rfl rfl fun v t hv => ⟨?_, ?_⟩
  · simp [Value.asTree, hv, Except.toOption]
  · exact Tree.hasMarkers_of_ofValue hv

theorem Query.slots_answeredBy (e : Tree) :
    (Query.slots e).AnsweredBy eng ev env mask Slot.anyMarkers (resolveSplice eng ev e env mask)
      Value.asSlots := by
  refine .ofConversion e Slot.ofSequence _ rfl rfl fun v slots hv => ⟨?_, ?_⟩
  · simp [Value.asSlots, hv, Except.toOption]
  · exact Slot.anyMarkers_of_ofSequence hv e

theorem Query.name_answeredBy (n : Tree) :
    (Query.name n).AnsweredBy eng ev env mask (fun _ => false) (resolveName ev n env mask)
      (fun v => v.asName?.getD "") := by
  refine .ofConversion n Value.toName (fun _ => pure ()) ?_ ?_ fun v name hv => ⟨?_, rfl⟩
  · simp only [Query.ask, pure_bind]
  · simp only [resolveName, pure_bind, bind_pure]
  · cases hname : v.asName? with
    | none =>
      simp only [Value.toName, hname] at hv
      cases hv
    | some other =>
      simp only [Value.toName, hname] at hv
      cases hv
      rfl

def Fills (eng : Engine) (ev : Evaluator) (env : FrameId) (mask : Option Mask) (marked : α → Bool)
    (requests : List Request) (act : Eval α) (fill : StateM (List Value) α) : Prop :=
  ∀ s, match askAll eng ev env mask requests s with
    | .ok vs t => ∃ a, act s = .ok a t ∧ (∀ rest, fill (vs ++ rest) = (a, rest)) ∧
        vs.length = requests.length ∧ marked a = admitMarkers requests vs
    | .error h t => act s = .error h t

theorem askAll_append (l r : List Request) :
    askAll eng ev env mask (l ++ r) = do
      let vs ← askAll eng ev env mask l
      let ws ← askAll eng ev env mask r
      return vs ++ ws := by
  induction l with
  | nil => simp [askAll]
  | cons q rest ih => simp [askAll, ih]

theorem admitMarkers_append {l r : List Request} {vs ws : List Value}
    (h : vs.length = l.length) :
    admitMarkers (l ++ r) (vs ++ ws) = (admitMarkers l vs || admitMarkers r ws) := by
  induction l generalizing vs with
  | nil =>
    obtain rfl := List.eq_nil_of_length_eq_zero h
    simp [admitMarkers]
  | cons q rest ih =>
    cases vs with
    | nil => cases h
    | cons v vs =>
      have hrest := ih (Nat.succ.inj h)
      simp only [List.cons_append, admitMarkers, hrest, Bool.or_assoc]

namespace Fills

variable {marked : α → Bool} {marked' : β → Bool} {marked'' : γ → Bool}

theorem pure {a : α} (h : marked a = false) :
    Fills eng ev env mask marked [] (pure a) (Pure.pure a) :=
  fun _ => ⟨a, rfl, fun _ => rfl, rfl, h⟩

theorem misplaced (level : Nat) (e : Error) (fill : StateM (List Value) α) :
    Fills eng ev env mask marked [⟨level, .misplaced e⟩] (Eval.fail e) fill := by
  intro s
  simp only [askAll, Request.ask, Query.ask, Eval.deeper_fail]
  rfl

theorem ask {q : Query} {act : Eval α} {convert : Value → α} (level : Nat)
    (h : q.AnsweredBy eng ev env mask marked act convert) :
    Fills eng ev env mask marked [⟨level, q⟩] (Eval.deeper level act)
      (convert <$> takeValue) := by
  intro s
  have hs := h (s.mapDepth (· + level))
  simp only [askAll, Request.ask, Eval.bind_apply, Eval.deeper]
  cases hq : q.ask eng ev env mask (s.mapDepth (· + level)) with
  | error halt t =>
    rw [hq] at hs
    exact congrArg (fun r => Outcome.follow r _ _) hs
  | ok v t =>
    rw [hq] at hs
    refine ⟨convert v, ?_, fun rest => rfl, rfl, ?_⟩
    · rw [hs.1]
      rfl
    · simp only [admitMarkers, Bool.or_false, hs.2]

theorem seq {l r : List Request} {x : Eval α} {y : Eval β} {fx : StateM (List Value) α}
    {fy : StateM (List Value) β} {g : α → β → γ}
    (hx : Fills eng ev env mask marked l x fx) (hy : Fills eng ev env mask marked' r y fy)
    (hg : ∀ a b, marked'' (g a b) = (marked a || marked' b)) :
    Fills eng ev env mask marked'' (l ++ r)
      (x >>= fun a => y >>= fun b => Pure.pure (g a b))
      (fx >>= fun a => fy >>= fun b => Pure.pure (g a b)) := by
  intro s
  have hs := hx s
  rw [askAll_append]
  simp only [Eval.bind_apply]
  cases hl : askAll eng ev env mask l s with
  | error h t =>
    rw [hl] at hs
    exact congrArg (fun r => Outcome.follow r _ _) hs
  | ok vs t =>
    rw [hl] at hs
    obtain ⟨a, ha, hfill, hlength, hmarked⟩ := hs
    have ht := hy t
    rw [ha]
    simp only [Outcome.follow_ok_eval, Eval.bind_apply]
    cases hr : askAll eng ev env mask r t with
    | error h u =>
      rw [hr] at ht
      exact congrArg (fun r => Outcome.follow r _ _) ht
    | ok ws u =>
      rw [hr] at ht
      obtain ⟨b, hb, hfill', hlength', hmarked'⟩ := ht
      refine ⟨g a b, ?_, fun rest => ?_, ?_, ?_⟩
      · rw [hb]
        rfl
      · have hx := hfill (ws ++ rest)
        have hy := hfill' rest
        simp only [Bind.bind, StateT.bind, List.append_assoc, hx, hy]
        rfl
      · simp only [List.length_append, hlength, hlength']
      · rw [hg, hmarked, hmarked', admitMarkers_append hlength]

theorem map {l : List Request} {x : Eval α} {fx : StateM (List Value) α} {g : α → β}
    (hx : Fills eng ev env mask marked l x fx) (hg : ∀ a, marked' (g a) = marked a) :
    Fills eng ev env mask marked' l (x >>= fun a => Pure.pure (g a))
      (fx >>= fun a => Pure.pure (g a)) := by
  have hunit : Fills eng ev env mask (fun _ => false) [] (Pure.pure ()) (Pure.pure ()) := .pure rfl
  have h : Fills eng ev env mask marked' (l ++ []) _ _ :=
    hx.seq (g := fun a _ => g a) hunit fun a _ => by rw [hg, Bool.or_false]
  simpa only [List.append_nil, pure_bind] using h

end Fills

theorem substitute_parts_fill :
    (∀ level t, Fills eng ev env mask Tree.hasMarkers (t.requests level)
        (substituteTree eng ev env mask level t) t.fill) ∧
      (∀ level l, Fills eng ev env mask Slot.anyMarkers (Slot.allRequests level l)
        (substituteSlots eng ev env mask level l) (Slot.fillAll l)) ∧
      ∀ level slot, Fills eng ev env mask Slot.anyMarkers (Slot.requests level slot)
        (substituteSlot eng ev env mask level slot) (Slot.fill slot) := by
  refine substituteTree.mutual_induct _ _ _ ?literal ?reference ?call ?pairlist ?unquote ?splice
    ?define ?nil ?cons ?spliceSlot ?defineSplice ?defineSlot ?plainSlot
  case literal => exact fun _ _ => .pure rfl
  case reference => exact fun _ _ => .pure rfl
  case call => exact fun level head args hhead hargs => hhead.seq hargs fun _ _ => rfl
  case pairlist => exact fun level args hargs => hargs.map fun _ => rfl
  case unquote => exact fun level e => .ask level (Query.tree_answeredBy e)
  case splice => exact fun level _ => .misplaced level _ _
  case define => exact fun level _ _ => .misplaced level _ _
  case nil => exact fun _ => .pure rfl
  case cons =>
    exact fun level slot rest hhere hthere => hhere.seq hthere Slot.anyMarkers_append
  case spliceSlot => exact fun level _ e => .ask level (Query.slots_answeredBy e)
  case defineSplice =>
    intro level _ n e
    refine .seq (.ask level (Query.name_answeredBy n)) (.ask level (Query.slots_answeredBy e)) ?_
    exact fun name slots => Slot.anyMarkers_nameOr slots name
  case defineSlot =>
    intro level _ n v hv ht
    rw [substituteSlot.eq_3 _ _ _ _ _ _ _ _ hv, Slot.requests.eq_3 _ _ _ _ hv,
      Slot.fill.eq_3 _ _ _ hv]
    exact .seq (.ask level (Query.name_answeredBy n)) ht fun name t => Bool.or_false _
  case plainSlot =>
    intro level name t h₁ h₂ h₃ ht
    rw [substituteSlot.eq_4 _ _ _ _ _ _ _ h₁ h₂ h₃, Slot.requests.eq_4 _ _ _ h₁ h₂ h₃,
      Slot.fill.eq_4 _ _ h₁ h₂ h₃]
    exact ht.map fun t => Bool.or_false _

end

def Tree.filled (t : Tree) (vs : List Value) : Tree := (t.fill.run vs).run.1

theorem substituteTree_fills (eng : Engine) (ev : Evaluator) (t : Tree) (env : FrameId)
    (mask : Option Mask) (level : Nat) (s : State) :
    match askAll eng ev env mask (t.requests level) s with
    | .ok vs u => substituteTree eng ev env mask level t s = .ok (t.filled vs) u ∧
        (t.filled vs).hasMarkers = admitMarkers (t.requests level) vs
    | .error h u => substituteTree eng ev env mask level t s = .error h u := by
  have hfills : Fills eng ev env mask Tree.hasMarkers (t.requests level)
      (substituteTree eng ev env mask level t) t.fill := substitute_parts_fill.1 level t
  have hs := hfills s
  cases ha : askAll eng ev env mask (t.requests level) s with
  | error h u =>
    rw [ha] at hs
    exact hs
  | ok vs u =>
    rw [ha] at hs
    obtain ⟨t', ht', hfill, -, hmarkers⟩ := hs
    have hfilled : t.filled vs = t' := by
      have hrest := hfill []
      rw [List.append_nil] at hrest
      exact congrArg Prod.fst hrest
    exact ⟨hfilled ▸ ht', hfilled ▸ hmarkers⟩

theorem substituteTree_eq_filled (eng : Engine) (ev : Evaluator) (t : Tree) (env : FrameId)
    (mask : Option Mask) (level : Nat) :
    substituteTree eng ev env mask level t =
      askAll eng ev env mask (t.requests level) >>= fun vs => pure (t.filled vs) := by
  funext s
  have hs := substituteTree_fills eng ev t env mask level s
  rw [Eval.bind_apply]
  cases ha : askAll eng ev env mask (t.requests level) s with
  | error h u =>
    rw [ha] at hs
    exact hs
  | ok vs u =>
    rw [ha] at hs
    exact hs.1

/-- Substitution gives what the walk through the whole tree gives, the state included, unless it
runs into the limit, for which as many calls and pairlists with markers have to lie inside one
another as there are levels left. And the walk is no more than to evaluate the operands once each,
from left to right, and to put their values in the places of the markers. -/
theorem resolve_substitutes (eng : Engine) (fuel : Nat) (t : Tree) (env : FrameId)
    (mask : Option Mask) (s : State) :
    (resolve eng (evaluate eng fuel) t env mask s =
        (Eval.debug ("resolve " ++ t.text) >>= fun _ =>
          substituteTree eng (evaluate eng fuel) env mask 0 t) s ∨
      ∃ d s', eng.maxDepth ≤ d ∧ d < s.depth + t.nesting ∧
        resolve eng (evaluate eng fuel) t env mask s =
          .error (.failed (.stackOverflow (d + 1) eng.maxDepth)) s') ∧
    substituteTree eng (evaluate eng fuel) env mask 0 t =
      askAll eng (evaluate eng fuel) env mask (t.requests 0) >>= fun vs => pure (t.filled vs) :=
  ⟨resolve_agrees (evaluate_related fuel) t s, substituteTree_eq_filled eng _ t env mask 0⟩

end Quotation
