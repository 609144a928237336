namespace Quotation

structure Named (α : Type) where
  name : Option String
  val : α
  deriving DecidableEq, Repr

instance {α : Type} [Inhabited α] : Inhabited (Named α) := ⟨⟨none, default⟩⟩

namespace Named

variable {α β : Type}

def positional (a : α) : Named α := ⟨none, a⟩

def labelled (name : String) (a : α) : Named α := ⟨some name, a⟩

def map (f : α → β) (x : Named α) : Named β := ⟨x.name, f x.val⟩

def nameOr (x : Named α) (name : String) : Named α := ⟨x.name.or (some name), x.val⟩

@[simp] theorem map_name (f : α → β) (x : Named α) : (x.map f).name = x.name := rfl

@[simp] theorem map_val (f : α → β) (x : Named α) : (x.map f).val = f x.val := rfl

@[simp] theorem nameOr_val (x : Named α) (name : String) : (x.nameOr name).val = x.val := rfl

end Named

end Quotation
