import Quotation.Engine.State

namespace Quotation

namespace Prelude

def builtins : List Builtin.Op :=
  [.arithmetic .add, .arithmetic .sub, .arithmetic .mul, .arithmetic .div, .arithmetic .rem,
    .order .lt, .order .le, .order .gt, .order .ge, .equal, .notEqual, .not, .and, .or, .list,
    .length, .identity]

def specials : List Special.Op :=
  [.quote, .expr, .quo, .enexpr, .enquo, .ensym, .enexprs, .enquos, .evalTidy, .call2, .list2]

end Prelude

def defineBuiltin (f : FrameId) (op : Builtin.Op) : Eval Unit := do
  let id ← Eval.freshIdentity
  Eval.modifyHeap (·.define f op.name (.builtin ⟨op, id⟩))

def defineSpecial (f : FrameId) (op : Special.Op) : Eval Unit := do
  let id ← Eval.freshIdentity
  Eval.modifyHeap (·.define f op.name (.special ⟨op, id⟩))

def loadPrelude (f : FrameId) : Eval Unit := do
  Prelude.builtins.forM (defineBuiltin f)
  Prelude.specials.forM (defineSpecial f)
  let h ← Eval.heap
  Eval.debug ("prelude loaded: " ++ toString (h.names f).length ++ " bindings")

end Quotation
