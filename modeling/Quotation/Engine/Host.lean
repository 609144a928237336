import Quotation.Engine.Routine

namespace Quotation

/-- What the functions of a host do, by name. A built-in function works on the world alone. -/
structure Host where
  builtin : String → List Item → World → Except Error Value × World
  special : String → SpecialCall → Routine Value

structure Engine where
  maxDepth : Nat := 128
  trace : Bool := false
  host : Host

end Quotation
