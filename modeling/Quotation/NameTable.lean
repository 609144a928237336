namespace Quotation

/-- A finite map from names to entries that remembers the order of insertion. -/
structure NameTable (α : Type) where
  entries : List (String × α) := []
  nodup : (entries.map Prod.fst).Nodup := by simp

namespace NameTable

variable {α : Type}

def names (t : NameTable α) : List String := t.entries.map Prod.fst

def size (t : NameTable α) : Nat := t.entries.length

def isEmpty (t : NameTable α) : Bool := t.entries.isEmpty

def empty : NameTable α := {}

instance : Inhabited (NameTable α) := ⟨empty⟩

def put (name : String) (a : α) : List (String × α) → List (String × α)
  | [] => [(name, a)]
  | (n, b) :: rest => if n = name then (n, a) :: rest else (n, b) :: put name a rest

def find (name : String) : List (String × α) → Option α
  | [] => none
  | (n, a) :: rest => if n = name then some a else find name rest

def drop (name : String) : List (String × α) → List (String × α)
  | [] => []
  | (n, a) :: rest => if n = name then rest else (n, a) :: drop name rest

theorem map_fst_put (name : String) (a : α) (l : List (String × α)) :
    (put name a l).map Prod.fst =
      if name ∈ l.map Prod.fst then l.map Prod.fst else l.map Prod.fst ++ [name] := by
  induction l with
  | nil => simp [put]
  | cons e rest ih =>
    obtain ⟨n, b⟩ := e
    by_cases h : n = name
    · simp [put, h]
    · have h' : ¬ name = n := fun e => h e.symm
      simp only [put, h, if_false, List.map_cons, ih, List.mem_cons, h', false_or]
      split <;> rfl

theorem map_fst_drop (name : String) (l : List (String × α)) :
    (drop name l).map Prod.fst = (l.map Prod.fst).erase name := by
  induction l with
  | nil => rfl
  | cons e rest ih =>
    obtain ⟨n, b⟩ := e
    by_cases h : n = name
    · simp [drop, h]
    · simp [drop, h, ih]

theorem nodup_put (name : String) (a : α) (l : List (String × α)) (h : (l.map Prod.fst).Nodup) :
    ((put name a l).map Prod.fst).Nodup := by
  rw [map_fst_put]
  split
  · exact h
  · rename_i hn
    exact List.nodup_append.2 ⟨h, by simp, by
      intro x hx y hy e
      simp only [List.mem_singleton] at hy
      exact hn (hy ▸ e ▸ hx)⟩

def insert (t : NameTable α) (name : String) (a : α) : NameTable α :=
  ⟨put name a t.entries, nodup_put name a t.entries t.nodup⟩

def get? (t : NameTable α) (name : String) : Option α := find name t.entries

def contains (t : NameTable α) (name : String) : Bool := (t.get? name).isSome

def erase (t : NameTable α) (name : String) : NameTable α :=
  ⟨drop name t.entries, by rw [map_fst_drop]; exact t.nodup.erase name⟩

def ofList (l : List (String × α)) : NameTable α :=
  l.foldl (fun t e => t.insert e.1 e.2) empty

theorem names_insert (t : NameTable α) (name : String) (a : α) :
    (t.insert name a).names = if name ∈ t.names then t.names else t.names ++ [name] :=
  map_fst_put name a t.entries

@[simp] theorem names_erase (t : NameTable α) (name : String) :
    (t.erase name).names = t.names.erase name :=
  map_fst_drop name t.entries

theorem find_put (name other : String) (a : α) (l : List (String × α)) :
    find other (put name a l) = if other = name then some a else find other l := by
  induction l with
  | nil => by_cases h : name = other <;> simp [put, find, h, eq_comm]
  | cons e rest ih =>
    obtain ⟨n, b⟩ := e
    by_cases h : n = name
    · by_cases ho : other = name
      · simp [put, find, h, ho]
      · have ho' : ¬ name = other := fun e => ho e.symm
        simp [put, find, h, ho, ho']
    · by_cases ho : n = other
      · have : ¬ other = name := fun e => h (ho.trans e)
        simp [put, find, ho, this]
      · simp [put, find, h, ho, ih]

@[simp] theorem get?_insert (t : NameTable α) (name other : String) (a : α) :
    (t.insert name a).get? other = if other = name then some a else t.get? other :=
  find_put name other a t.entries

theorem find_eq_none_iff (name : String) (l : List (String × α)) :
    find name l = none ↔ name ∉ l.map Prod.fst := by
  induction l with
  | nil => simp [find]
  | cons e rest ih =>
    obtain ⟨n, b⟩ := e
    by_cases h : n = name
    · simp [find, h]
    · have h' : ¬ name = n := fun e => h e.symm
      simp only [find, h, if_false, ih, List.map_cons, List.mem_cons, h', false_or]

theorem get?_eq_none_iff (t : NameTable α) (name : String) :
    t.get? name = none ↔ name ∉ t.names :=
  find_eq_none_iff name t.entries

theorem find_drop (name other : String) (l : List (String × α))
    (h : (l.map Prod.fst).Nodup) :
    find other (drop name l) = if other = name then none else find other l := by
  induction l with
  | nil => simp [drop, find]
  | cons e rest ih =>
    obtain ⟨n, b⟩ := e
    simp only [List.map_cons, List.nodup_cons] at h
    by_cases hn : n = name
    · by_cases ho : other = name
      · simp only [drop, hn, if_true, ho]
        exact (find_eq_none_iff _ _).2 (hn ▸ h.1)
      · have ho' : ¬ name = other := fun e => ho e.symm
        simp [drop, find, hn, ho, ho']
    · by_cases ho : n = other
      · have : ¬ other = name := fun e => hn (ho.trans e)
        simp [drop, find, ho, this]
      · simp [drop, find, hn, ho, ih h.2]

@[simp] theorem get?_erase (t : NameTable α) (name other : String) :
    (t.erase name).get? other = if other = name then none else t.get? other :=
  find_drop name other t.entries t.nodup

end NameTable

end Quotation
