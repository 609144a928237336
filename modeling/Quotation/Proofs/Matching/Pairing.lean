import Mathlib.Data.List.Basic
import Mathlib.Logic.Function.Basic
import Quotation.Engine.Closure

/-! Which argument goes to which parameter. An argument that is named like a parameter is given to
it; the parameters before the variadic one that are left free take the unnamed arguments in order;
and the rest is left over. -/

namespace Quotation

def parameterNames (formals : List (Formal Tree)) : List String :=
  (formals.filter fun f => !f.isDots).map Formal.name

def positionalNames (formals : List (Formal Tree)) : List String :=
  (formals.takeWhile fun f => !f.isDots).map Formal.name

def namesParameter (formals : List (Formal Tree)) (a : Named PromiseId) : Bool :=
  a.name.any (parameterNames formals).contains

def givenNames (formals : List (Formal Tree)) (supplied : List (Named PromiseId)) :
    List String :=
  (supplied.filter (namesParameter formals)).filterMap Named.name

def unnamed (supplied : List (Named PromiseId)) : List PromiseId :=
  (supplied.filter fun a => a.name.isNone).map Named.val

def argumentByName? (supplied : List (Named PromiseId)) (name : String) : Option PromiseId :=
  (supplied.find? fun a => a.name == some name).map Named.val

def freeNames (formals : List (Formal Tree)) (held : String → Option PromiseId) : List String :=
  (positionalNames formals).filter fun name => (held name).isNone

def argument? (formals : List (Formal Tree)) (supplied : List (Named PromiseId)) (name : String) :
    Option PromiseId :=
  (argumentByName? supplied name).or
    (((freeNames formals (argumentByName? supplied)).zip (unnamed supplied)).lookup name)

/-- All but the first `n` arguments without a name. -/
def dropUnnamed : Nat → List (Named PromiseId) → List (Named PromiseId)
  | _, [] => []
  | n + 1, ⟨none, _⟩ :: rest => dropUnnamed n rest
  | n, a :: rest => a :: dropUnnamed n rest

/-- The arguments that no parameter but a variadic one can take. -/
def leftOver (formals : List (Formal Tree)) (supplied : List (Named PromiseId)) :
    List (Named PromiseId) :=
  dropUnnamed (freeNames formals (argumentByName? supplied)).length
    (supplied.filter fun a => !namesParameter formals a)

/-- The first element that was seen before. -/
def firstRepeated? (seen : List String) : List String → Option String
  | [] => none
  | n :: rest => if n ∈ seen then some n else firstRepeated? (n :: seen) rest

def slotsOf (formals : List (Formal Tree)) (held : String → Option PromiseId) :
    List (Option PromiseId) :=
  formals.map fun f => if f.isDots then none else held f.name

section

variable {formals : List (Formal Tree)} {held : String → Option PromiseId} {name : String}

theorem parameterNames_cons (f : Formal Tree) (rest : List (Formal Tree)) :
    parameterNames (f :: rest) =
      if f.isDots then parameterNames rest else f.name :: parameterNames rest := by
  cases h : f.isDots <;> simp [parameterNames, h]

theorem positionalNames_cons (f : Formal Tree) (rest : List (Formal Tree)) :
    positionalNames (f :: rest) = if f.isDots then [] else f.name :: positionalNames rest := by
  cases h : f.isDots <;> simp [positionalNames, h]

theorem mem_parameterNames {f : Formal Tree} (hf : f ∈ formals) (hdots : f.isDots = false) :
    f.name ∈ parameterNames formals :=
  List.mem_map.2 ⟨f, List.mem_filter.2 ⟨hf, by simp [hdots]⟩, rfl⟩

theorem slotsOf_congr {other : String → Option PromiseId}
    (h : ∀ n ∈ parameterNames formals, held n = other n) :
    slotsOf formals held = slotsOf formals other := by
  apply List.map_congr_left
  intro f hf
  cases hdots : f.isDots with
  | true => simp
  | false => simp [h f.name (mem_parameterNames hf hdots)]

theorem slotsOf_update_of_not_mem (hname : name ∉ parameterNames formals) (v : Option PromiseId) :
    slotsOf formals (Function.update held name v) = slotsOf formals held := by
  apply slotsOf_congr
  intro n hn
  apply Function.update_of_ne
  rintro rfl
  exact hname hn

structure SlotOf (formals : List (Formal Tree)) (name : String) (i : Nat) : Prop where
  get : ∀ held : String → Option PromiseId, (slotsOf formals held)[i]?.join = held name
  set : ∀ held v, (slotsOf formals held).set i (some v) =
    slotsOf formals (Function.update held name (some v))

theorem SlotOf.zero {f : Formal Tree} {rest : List (Formal Tree)} (hdots : f.isDots = false)
    (hname : f.name ∉ parameterNames rest) : SlotOf (f :: rest) f.name 0 where
  get held := by simp [slotsOf, hdots]
  set held v := by
    have hrest : slotsOf rest (Function.update held f.name (some v)) = slotsOf rest held :=
      slotsOf_update_of_not_mem hname (some v)
    simp only [slotsOf] at hrest
    simp [slotsOf, hdots, hrest]

theorem SlotOf.succ {f : Formal Tree} {rest : List (Formal Tree)} {i : Nat}
    (hname : f.isDots = true ∨ f.name ≠ name) (h : SlotOf rest name i) :
    SlotOf (f :: rest) name (i + 1) where
  get held := by simpa [slotsOf] using h.get held
  set held v := by
    have hset := h.set held v
    simp only [slotsOf] at hset
    rcases hname with hdots | hne
    · simp [slotsOf, hdots, hset]
    · simp [slotsOf, Function.update_of_ne hne, hset]

theorem formalIndex?_eq_none (hname : name ∉ parameterNames formals) :
    formalIndex? formals name = none := by
  rw [formalIndex?, List.findIdx?_eq_none_iff]
  intro f hf
  cases hdots : f.isDots with
  | true => simp
  | false =>
    have hne : f.name ≠ name := by
      rintro rfl
      exact hname (mem_parameterNames hf hdots)
    simp [hne]

theorem formalIndex?_slotOf (hnodup : (parameterNames formals).Nodup)
    (hname : name ∈ parameterNames formals) :
    ∃ i, formalIndex? formals name = some i ∧ SlotOf formals name i := by
  induction formals with
  | nil => cases hname
  | cons f rest ih =>
    rw [parameterNames_cons] at hnodup hname
    simp only [formalIndex?, List.findIdx?_cons]
    cases hdots : f.isDots with
    | true =>
      simp only [hdots, if_true] at hnodup hname
      obtain ⟨i, hi, hslot⟩ := ih hnodup hname
      rw [formalIndex?] at hi
      exact ⟨i + 1, by simp [hi], hslot.succ (.inl hdots)⟩
    | false =>
      simp only [hdots, Bool.false_eq_true, if_false, List.nodup_cons, List.mem_cons] at hnodup hname
      by_cases hf : f.name = name
      · subst hf
        exact ⟨0, by simp, .zero hdots hnodup.1⟩
      · obtain ⟨i, hi, hslot⟩ := ih hnodup.2 (hname.resolve_left fun e => hf e.symm)
        rw [formalIndex?] at hi
        exact ⟨i + 1, by simp [hf, hi], hslot.succ (.inr hf)⟩

theorem freeNames_cons (f : Formal Tree) (rest : List (Formal Tree)) :
    freeNames (f :: rest) held =
      if f.isDots then []
      else if (held f.name).isNone then f.name :: freeNames rest held
      else freeNames rest held := by
  cases hdots : f.isDots <;> simp [freeNames, positionalNames_cons, hdots, List.filter_cons]

theorem freeNames_congr {other : String → Option PromiseId}
    (h : ∀ n ∈ parameterNames formals, held n = other n) :
    freeNames formals held = freeNames formals other := by
  induction formals with
  | nil => rfl
  | cons f rest ih =>
    rw [parameterNames_cons] at h
    cases hdots : f.isDots with
    | true => simp [freeNames_cons, hdots]
    | false =>
      simp only [hdots, Bool.false_eq_true, if_false, List.mem_cons, forall_eq_or_imp] at h
      simp [freeNames_cons, hdots, h.1, ih h.2]

theorem positionalNames_subset : positionalNames formals ⊆ parameterNames formals := by
  induction formals with
  | nil => exact List.Subset.refl _
  | cons f rest ih =>
    cases hdots : f.isDots
    · simpa [positionalNames_cons, parameterNames_cons, hdots] using
        List.subset_cons_of_subset _ ih
    · simp [positionalNames_cons, hdots]

theorem take_slotsOf :
    (slotsOf formals held).take (positionalNames formals).length =
      (positionalNames formals).map held := by
  induction formals with
  | nil => rfl
  | cons f rest ih =>
    simp only [slotsOf] at ih
    cases hdots : f.isDots <;> simp [positionalNames_cons, slotsOf, hdots, ih]

theorem freeNames_cons_eq {more : List String} (hfree : freeNames formals held = name :: more) :
    name ∈ parameterNames formals ∧ held name = none := by
  have hmem : name ∈ freeNames formals held := hfree ▸ List.mem_cons_self
  have hname := List.mem_filter.1 hmem
  exact ⟨positionalNames_subset hname.1, by simpa using hname.2⟩

theorem freeNames_update (hnodup : (parameterNames formals).Nodup) {more : List String}
    (hfree : freeNames formals held = name :: more) (v : PromiseId) :
    freeNames formals (Function.update held name (some v)) = more := by
  induction formals generalizing more with
  | nil => cases hfree
  | cons f rest ih =>
    rw [parameterNames_cons] at hnodup
    rw [freeNames_cons] at hfree ⊢
    cases hdots : f.isDots with
    | true => simp [hdots] at hfree
    | false =>
      simp only [hdots, Bool.false_eq_true, if_false, List.nodup_cons] at hnodup hfree ⊢
      cases hheld : held f.name with
      | none =>
        simp only [hheld, Option.isNone_none, if_true, List.cons.injEq] at hfree
        obtain ⟨rfl, rfl⟩ := hfree
        simp only [Function.update_self, Option.isNone_some, Bool.false_eq_true, if_false]
        apply freeNames_congr
        intro n hn
        apply Function.update_of_ne
        rintro rfl
        exact hnodup.1 hn
      | some p =>
        simp only [hheld, Option.isNone_some, Bool.false_eq_true, if_false] at hfree
        have hne : f.name ≠ name := by
          rintro rfl
          exact hnodup.1 (freeNames_cons_eq hfree).1
        simp [Function.update_of_ne hne, hheld, ih hnodup.2 hfree]

theorem findIdx?_isNone_slotsOf (hnodup : (parameterNames formals).Nodup)
    {more : List String} (hfree : freeNames formals held = name :: more) :
    ∃ i, ((slotsOf formals held).take (positionalNames formals).length).findIdx? Option.isNone =
        some i ∧ SlotOf formals name i := by
  rw [take_slotsOf]
  induction formals generalizing more with
  | nil => cases hfree
  | cons f rest ih =>
    rw [parameterNames_cons] at hnodup
    rw [freeNames_cons] at hfree
    rw [positionalNames_cons]
    cases hdots : f.isDots with
    | true => simp [hdots] at hfree
    | false =>
      simp only [hdots, Bool.false_eq_true, if_false, List.nodup_cons, List.map_cons,
        List.findIdx?_cons] at hnodup hfree ⊢
      cases hheld : held f.name with
      | none =>
        simp only [hheld, Option.isNone_none, if_true, List.cons.injEq] at hfree
        obtain ⟨rfl, rfl⟩ := hfree
        exact ⟨0, by simp, .zero hdots hnodup.1⟩
      | some p =>
        simp only [hheld, Option.isNone_some, Bool.false_eq_true, if_false] at hfree ⊢
        obtain ⟨i, hi, hslot⟩ := ih hnodup.2 hfree
        have hne : f.name ≠ name := by
          rintro rfl
          exact hnodup.1 (freeNames_cons_eq hfree).1
        exact ⟨i + 1, by simp [hi], hslot.succ (.inr hne)⟩

theorem findIdx?_isNone_slotsOf_none (hfree : freeNames formals held = []) :
    ((slotsOf formals held).take (positionalNames formals).length).findIdx? Option.isNone =
      none := by
  rw [take_slotsOf, List.findIdx?_eq_none_iff]
  intro slot hslot
  obtain ⟨n, hn, rfl⟩ := List.mem_map.1 hslot
  have hheld := List.filter_eq_nil_iff.1 hfree n hn
  exact Bool.eq_false_iff.2 hheld

end

section

variable {formals : List (Formal Tree)}

theorem namesParameter_iff {a : Named PromiseId} :
    namesParameter formals a = true ↔ ∃ n, a.name = some n ∧ n ∈ parameterNames formals := by
  simp [namesParameter, Option.any_eq_true]

theorem argumentByName?_cons (a : Named PromiseId) (rest : List (Named PromiseId)) (n : String) :
    argumentByName? (a :: rest) n =
      if a.name = some n then some a.val else argumentByName? rest n := by
  by_cases h : a.name = some n <;> simp [argumentByName?, h]

theorem update_or_argumentByName? {a : Named PromiseId} {n : String}
    {held : String → Option PromiseId} (hname : a.name = some n) (hheld : held n = none)
    (rest : List (Named PromiseId)) (m : String) :
    (Function.update held n (some a.val) m).or (argumentByName? rest m) =
      (held m).or (argumentByName? (a :: rest) m) := by
  rw [argumentByName?_cons, hname]
  by_cases hm : m = n
  · simp [hm, hheld]
  · have hm' : ¬ n = m := fun e => hm e.symm
    simp [Function.update_of_ne hm, hm']

theorem argumentByName?_cons_of_not {a : Named PromiseId} {n : String}
    (ha : namesParameter formals a = false) (hn : n ∈ parameterNames formals)
    (rest : List (Named PromiseId)) :
    argumentByName? (a :: rest) n = argumentByName? rest n := by
  rw [argumentByName?_cons, if_neg]
  intro hname
  rw [namesParameter_iff.2 ⟨n, hname, hn⟩] at ha
  cases ha

theorem isSome_update_iff {held : String → Option PromiseId} {seen : List String}
    (hseen : ∀ m, (held m).isSome ↔ m ∈ seen) (n : String) (v : PromiseId) (m : String) :
    (Function.update held n (some v) m).isSome ↔ m ∈ n :: seen := by
  by_cases hm : m = n
  · simp [hm]
  · simp [hm, hseen]

theorem fillNamed_given (hnodup : (parameterNames formals).Nodup) {a : Named PromiseId}
    {n : String} (hname : a.name = some n) (hn : n ∈ parameterNames formals)
    (rest : List (Named PromiseId)) (held : String → Option PromiseId) :
    fillNamed formals (a :: rest) (slotsOf formals held) =
      if (held n).isSome then .error (.unusedArgument (some n))
      else fillNamed formals rest (slotsOf formals (Function.update held n (some a.val))) := by
  obtain ⟨i, hi, hslot⟩ := formalIndex?_slotOf hnodup hn
  simp [fillNamed, hname, hi, hslot.get, hslot.set]

theorem fillNamed_passed {a : Named PromiseId} (ha : namesParameter formals a = false)
    (rest : List (Named PromiseId)) (slots : List (Option PromiseId)) :
    fillNamed formals (a :: rest) slots =
      (fillNamed formals rest slots).map fun r => (r.1, a :: r.2) := by
  have hindex : a.name.bind (formalIndex? formals) = none := by
    cases hname : a.name with
    | none => rfl
    | some n =>
      apply formalIndex?_eq_none
      intro hn
      rw [namesParameter_iff.2 ⟨n, hname, hn⟩] at ha
      cases ha
  simp [fillNamed, hindex]

theorem fillNamed_eq (hnodup : (parameterNames formals).Nodup)
    (supplied : List (Named PromiseId)) {held : String → Option PromiseId} {seen : List String}
    (hseen : ∀ n, (held n).isSome ↔ n ∈ seen) :
    fillNamed formals supplied (slotsOf formals held) =
      match firstRepeated? seen (givenNames formals supplied) with
      | some n => .error (.unusedArgument (some n))
      | none => .ok (slotsOf formals fun n => (held n).or (argumentByName? supplied n),
          supplied.filter fun a => !namesParameter formals a) := by
  induction supplied generalizing held seen with
  | nil => simp [fillNamed, givenNames, firstRepeated?, argumentByName?]
  | cons a rest ih =>
    cases ha : namesParameter formals a with
    | true =>
      obtain ⟨n, hname, hn⟩ := namesParameter_iff.1 ha
      have hgiven : givenNames formals (a :: rest) = n :: givenNames formals rest := by
        simp [givenNames, ha, hname]
      rw [fillNamed_given hnodup hname hn, hgiven, firstRepeated?]
      by_cases hmem : n ∈ seen
      · simp [hmem, hseen]
      · have hheld : held n = none := by simpa using (hseen n).not.2 hmem
        simp only [hheld, Option.isSome_none, Bool.false_eq_true, if_false, hmem,
          ih (isSome_update_iff hseen n a.val)]
        split
        · rfl
        · simp [update_or_argumentByName? hname hheld, ha]
    | false =>
      have hgiven : givenNames formals (a :: rest) = givenNames formals rest := by
        simp [givenNames, ha]
      rw [fillNamed_passed ha, ih hseen, hgiven]
      split
      · rfl
      · have hsame : slotsOf formals (fun n => (held n).or (argumentByName? rest n)) =
            slotsOf formals fun n => (held n).or (argumentByName? (a :: rest) n) :=
          slotsOf_congr fun n hn => by rw [argumentByName?_cons_of_not ha hn]
        simp [Except.map, hsame, ha]

theorem update_or_lookup {held : String → Option PromiseId} {n : String} (hheld : held n = none)
    (p : PromiseId) (more : List String) (rest : List PromiseId) (m : String) :
    (Function.update held n (some p) m).or ((more.zip rest).lookup m) =
      (held m).or (((n :: more).zip (p :: rest)).lookup m) := by
  by_cases hm : m = n
  · simp [hm, hheld]
  · have hm' : (m == n) = false := by simpa using hm
    simp [Function.update_of_ne hm, List.lookup_cons, hm']

@[simp] theorem unnamed_cons_none (p : PromiseId) (rest : List (Named PromiseId)) :
    unnamed (⟨none, p⟩ :: rest) = p :: unnamed rest := by simp [unnamed]

@[simp] theorem unnamed_cons_some (n : String) (p : PromiseId) (rest : List (Named PromiseId)) :
    unnamed (⟨some n, p⟩ :: rest) = unnamed rest := by simp [unnamed]

theorem fillPositional_eq (hnodup : (parameterNames formals).Nodup)
    (left : List (Named PromiseId)) (held : String → Option PromiseId) :
    fillPositional (positionalNames formals).length left (slotsOf formals held) =
      (slotsOf formals fun n =>
        (held n).or (((freeNames formals held).zip (unnamed left)).lookup n),
        dropUnnamed (freeNames formals held).length left) := by
  induction left generalizing held with
  | nil => simp [fillPositional, unnamed, dropUnnamed]
  | cons a rest ih =>
    obtain ⟨name, p⟩ := a
    cases name with
    | some n => simp [fillPositional, ih, dropUnnamed]
    | none =>
      cases hfree : freeNames formals held with
      | nil => simp [fillPositional, findIdx?_isNone_slotsOf_none hfree, ih, hfree, dropUnnamed]
      | cons n more =>
        obtain ⟨i, hi, hslot⟩ := findIdx?_isNone_slotsOf hnodup hfree
        have hheld := (freeNames_cons_eq hfree).2
        simp only [fillPositional, hi, hslot.set, ih, freeNames_update hnodup hfree,
          unnamed_cons_none, List.length_cons, dropUnnamed, update_or_lookup hheld]

theorem unnamed_filter (supplied : List (Named PromiseId)) :
    unnamed (supplied.filter fun a => !namesParameter formals a) = unnamed supplied := by
  rw [unnamed, List.filter_filter, unnamed]
  congr 2
  funext a
  cases hname : a.name <;> simp [namesParameter, hname]

theorem findIdx?_isDots (formals : List (Formal Tree)) :
    formals.findIdx? Formal.isDots =
      if formals.any Formal.isDots then some (positionalNames formals).length else none := by
  induction formals with
  | nil => rfl
  | cons f rest ih =>
    rw [List.findIdx?_cons, positionalNames_cons]
    cases hdots : f.isDots with
    | true => simp [hdots]
    | false =>
      simp only [hdots, ih, Bool.false_eq_true, if_false, List.any_cons, Bool.false_or]
      split <;> simp

theorem length_positionalNames (h : formals.any Formal.isDots = false) :
    (positionalNames formals).length = formals.length := by
  induction formals with
  | nil => rfl
  | cons f rest ih =>
    simp only [List.any_cons, Bool.or_eq_false_iff] at h
    simp [positionalNames_cons, h.1, ih h.2]

/-- What matching comes to: a parameter that two arguments are named like, or what every parameter
holds and what is left over. -/
theorem matchArguments_eq (hnodup : (parameterNames formals).Nodup)
    (supplied : List (Named PromiseId)) :
    matchArguments formals supplied =
      match firstRepeated? [] (givenNames formals supplied), formals.any Formal.isDots,
        leftOver formals supplied with
      | some n, _, _ => .error (.unusedArgument (some n))
      | none, true, left => .ok ⟨slotsOf formals (argument? formals supplied), some left⟩
      | none, false, [] => .ok ⟨slotsOf formals (argument? formals supplied), none⟩
      | none, false, a :: _ => .error (.unusedArgument a.name) := by
  have hempty : formals.map (fun _ => (none : Option PromiseId)) = slotsOf formals fun _ => none := by
    simp [slotsOf]
  have hseen : ∀ n : String, (none : Option PromiseId).isSome ↔ n ∈ [] := by simp
  have hpositional := fillPositional_eq hnodup
    (supplied.filter fun a => !namesParameter formals a) (argumentByName? supplied)
  rw [unnamed_filter] at hpositional
  rw [matchArguments, hempty, fillNamed_eq hnodup supplied hseen, findIdx?_isDots]
  cases firstRepeated? [] (givenNames formals supplied) with
  | some n => rfl
  | none =>
    cases hdots : formals.any Formal.isDots with
    | true =>
      simp only [Option.none_or, if_true]
      change Except.bind (.ok _) _ = _
      simp only [Except.bind, hpositional]
      rfl
    | false =>
      simp only [Option.none_or, Bool.false_eq_true, if_false]
      change Except.bind (.ok _) _ = _
      simp only [Except.bind, ← length_positionalNames hdots, hpositional]
      rw [← leftOver]
      cases leftOver formals supplied <;> rfl

theorem filterMap_update_perm {l : List String} (hl : l.Nodup) {n : String} (hn : n ∈ l)
    {held : String → Option PromiseId} (hheld : held n = none) (p : PromiseId) :
    (l.filterMap (Function.update held n (some p))).Perm (p :: l.filterMap held) := by
  induction l with
  | nil => cases hn
  | cons m rest ih =>
    rw [List.nodup_cons] at hl
    by_cases hm : m = n
    · subst hm
      have hrest : rest.filterMap (Function.update held m (some p)) = rest.filterMap held := by
        apply List.filterMap_congr
        intro k hk
        apply Function.update_of_ne
        rintro rfl
        exact hl.1 hk
      simp [hheld, hrest]
    · have hperm := ih hl.2 (List.mem_of_ne_of_mem (fun e => hm e.symm) hn)
      cases hk : held m with
      | none => simpa [List.filterMap_cons, Function.update_of_ne hm, hk] using hperm
      | some q =>
        simp only [List.filterMap_cons, Function.update_of_ne hm, hk]
        exact (hperm.cons q).trans (.swap p q _)

theorem given_perm (hnodup : (parameterNames formals).Nodup) (supplied : List (Named PromiseId))
    {held : String → Option PromiseId} {seen : List String}
    (hseen : ∀ n, (held n).isSome ↔ n ∈ seen)
    (hrepeated : firstRepeated? seen (givenNames formals supplied) = none) :
    ((parameterNames formals).filterMap (fun n => (held n).or (argumentByName? supplied n)) ++
      (supplied.filter fun a => !namesParameter formals a).map Named.val).Perm
      ((parameterNames formals).filterMap held ++ supplied.map Named.val) := by
  induction supplied generalizing held seen with
  | nil => simp [argumentByName?]
  | cons a rest ih =>
    cases ha : namesParameter formals a with
    | true =>
      obtain ⟨n, hname, hn⟩ := namesParameter_iff.1 ha
      have hgiven : givenNames formals (a :: rest) = n :: givenNames formals rest := by
        simp [givenNames, ha, hname]
      rw [hgiven, firstRepeated?] at hrepeated
      split at hrepeated
      · cases hrepeated
      · rename_i hmem
        have hheld : held n = none := by simpa using (hseen n).not.2 hmem
        have hperm := ih (isSome_update_iff hseen n a.val) hrepeated
        simp only [update_or_argumentByName? hname hheld] at hperm
        simp only [List.filter_cons, ha, Bool.not_true, Bool.false_eq_true, if_false,
          List.map_cons]
        refine hperm.trans ?_
        exact ((filterMap_update_perm hnodup hn hheld a.val).append_right _).trans
          List.perm_middle.symm
    | false =>
      have hgiven : givenNames formals (a :: rest) = givenNames formals rest := by
        simp [givenNames, ha]
      have hsame : (parameterNames formals).filterMap
            (fun n => (held n).or (argumentByName? (a :: rest) n)) =
          (parameterNames formals).filterMap
            fun n => (held n).or (argumentByName? rest n) :=
        List.filterMap_congr fun n hn => by rw [argumentByName?_cons_of_not ha hn]
      rw [hgiven] at hrepeated
      simp only [List.filter_cons, ha, Bool.not_false, if_true, List.map_cons, hsame]
      exact (List.perm_middle.trans ((ih hseen hrepeated).cons a.val)).trans
        List.perm_middle.symm

theorem positional_perm (hnodup : (parameterNames formals).Nodup)
    (left : List (Named PromiseId)) (held : String → Option PromiseId) :
    ((parameterNames formals).filterMap (fun n =>
        (held n).or (((freeNames formals held).zip (unnamed left)).lookup n)) ++
      (dropUnnamed (freeNames formals held).length left).map Named.val).Perm
      ((parameterNames formals).filterMap held ++ left.map Named.val) := by
  induction left generalizing held with
  | nil => simp [unnamed, dropUnnamed]
  | cons a rest ih =>
    obtain ⟨name, p⟩ := a
    cases name with
    | some n =>
      simp only [unnamed_cons_some, dropUnnamed, List.map_cons]
      exact (List.perm_middle.trans ((ih held).cons p)).trans List.perm_middle.symm
    | none =>
      cases hfree : freeNames formals held with
      | nil =>
        have hperm := ih held
        simp only [hfree, List.zip_nil_left, List.lookup_nil, Option.or_none, List.length_nil]
          at hperm ⊢
        simp only [dropUnnamed, List.map_cons]
        exact (List.perm_middle.trans (hperm.cons p)).trans List.perm_middle.symm
      | cons n more =>
        obtain ⟨hn, hheld⟩ := freeNames_cons_eq hfree
        have hperm := ih (Function.update held n (some p))
        simp only [freeNames_update hnodup hfree, update_or_lookup hheld] at hperm
        simp only [unnamed_cons_none, List.length_cons, dropUnnamed, List.map_cons]
        refine hperm.trans ?_
        exact ((filterMap_update_perm hnodup hn hheld p).append_right _).trans
          List.perm_middle.symm

theorem supplied_perm (hnodup : (parameterNames formals).Nodup)
    (supplied : List (Named PromiseId))
    (hrepeated : firstRepeated? [] (givenNames formals supplied) = none) :
    ((parameterNames formals).filterMap (argument? formals supplied) ++
      (leftOver formals supplied).map Named.val).Perm (supplied.map Named.val) := by
  have hseen : ∀ n : String, ((fun _ => none : String → Option PromiseId) n).isSome ↔ n ∈ [] := by
    simp
  have hgiven := given_perm hnodup supplied hseen hrepeated
  have hpositional := positional_perm hnodup
    (supplied.filter fun a => !namesParameter formals a) (argumentByName? supplied)
  rw [unnamed_filter] at hpositional
  simp only [Option.none_or, List.filterMap_none, List.nil_append] at hgiven
  exact hpositional.trans hgiven

theorem dropUnnamed_sublist (n : Nat) (l : List (Named PromiseId)) :
    (dropUnnamed n l).Sublist l := by
  induction l generalizing n with
  | nil => simp [dropUnnamed]
  | cons a rest ih =>
    obtain ⟨name, p⟩ := a
    cases name with
    | some m => simpa [dropUnnamed] using ih n
    | none =>
      cases n with
      | zero => simpa [dropUnnamed] using ih 0
      | succ n => exact (ih n).cons _

theorem leftOver_sublist (formals : List (Formal Tree)) (supplied : List (Named PromiseId)) :
    (leftOver formals supplied).Sublist supplied :=
  (dropUnnamed_sublist _ _).trans List.filter_sublist

theorem firstRepeated?_eq_none_iff {seen l : List String} :
    firstRepeated? seen l = none ↔ l.Nodup ∧ ∀ n ∈ l, n ∉ seen := by
  induction l generalizing seen with
  | nil => simp [firstRepeated?]
  | cons n rest ih =>
    by_cases hn : n ∈ seen
    · simp [firstRepeated?, hn]
    · simp only [firstRepeated?, hn, if_false, ih, List.nodup_cons, List.mem_cons,
        forall_eq_or_imp]
      grind

theorem firstRepeated?_nil_iff {l : List String} : firstRepeated? [] l = none ↔ l.Nodup := by
  simp [firstRepeated?_eq_none_iff]

theorem firstRepeated?_eq_some {seen l : List String} {n : String}
    (h : firstRepeated? seen l = some n) :
    ∃ before after, l = before ++ n :: after ∧ before.Nodup ∧ (∀ m ∈ before, m ∉ seen) ∧
      (n ∈ before ∨ n ∈ seen) := by
  induction l generalizing seen with
  | nil => cases h
  | cons m rest ih =>
    rw [firstRepeated?] at h
    split at h
    · rename_i hm
      cases h
      exact ⟨[], rest, rfl, .nil, by simp, .inr hm⟩
    · rename_i hm
      obtain ⟨before, after, rfl, hnodup, hfresh, hn⟩ := ih h
      refine ⟨m :: before, after, rfl, List.nodup_cons.2 ⟨?_, hnodup⟩, ?_, ?_⟩
      · exact fun hmem => hfresh m hmem List.mem_cons_self
      · rintro k (_ | ⟨_, hk⟩)
        · exact hm
        · exact fun hseen => hfresh k hk (List.mem_cons_of_mem _ hseen)
      · rcases hn with hn | hn
        · exact .inl (List.mem_cons_of_mem _ hn)
        · rcases List.mem_cons.1 hn with rfl | hn
          · exact .inl List.mem_cons_self
          · exact .inr hn

end

end Quotation
