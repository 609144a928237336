import Quotation.Tree.Basic
import Quotation.Text.Quoted
import Quotation.Binary64.Text

namespace Quotation

def binaryOperators : List String :=
  ["+", "-", "*", "/", "%", "==", "!=", "<", "<=", ">", ">=", "&&", "||"]

def infixOperator? (head : Tree) (args : List Slot) : Option String :=
  match head, args with
  | .reference op, [⟨none, _⟩, ⟨none, _⟩] =>
    if binaryOperators.contains op then some op else none
  | _, _ => none

def Tree.isInfix : Tree → Bool
  | .call head args => (infixOperator? head args).isSome
  | _ => false

def Tree.isReference : Tree → Bool
  | .reference _ => true
  | _ => false

def parenthesized (s : String) : String := "(" ++ s ++ ")"

def parenthesizedIf (b : Bool) (s : String) : String := if b then parenthesized s else s

def separatedBy (sep : String) : List String → String
  | [] => ""
  | [s] => s
  | s :: rest => s ++ sep ++ separatedBy sep rest

def commaSeparated (l : List String) : String := separatedBy ", " l

def nameText : Option String → String
  | some name => name ++ " = "
  | none => ""

def floatText (x : Float) : String := (Binary64.ofFloat x).text

def boolText (b : Bool) : String := if b then "true" else "false"

def closureText : Option String → String
  | some name => "<fn " ++ name ++ ">"
  | none => "<fn>"

def Builtin.text (b : Builtin) : String := "<builtin " ++ b.name ++ ">"

def Special.text (s : Special) : String := "<special " ++ s.name ++ ">"

def External.text (x : External) : String := "<external " ++ x.label ++ ">"

mutual

def Value.inspect : Value → String
  | .null => "null"
  | .bool b => boolText b
  | .int n => toString n.toInt
  | .float x => floatText x
  | .str s => Text.quoted s
  | .list items => "[" ++ commaSeparated (Item.inspectAll items) ++ "]"
  | .tree t => "quote" ++ parenthesized t.text
  | .capture ⟨t, _⟩ => "^" ++ t.text
  | .closure c => closureText c.name
  | .builtin b => b.text
  | .special s => s.text
  | .external x => x.text
termination_by structural v => v

def Item.inspectAll : List Item → List String
  | [] => []
  | ⟨name, v⟩ :: rest => (nameText name ++ v.inspect) :: Item.inspectAll rest
termination_by structural l => l

def Tree.text : Tree → String
  | .literal v => v.inspect
  | .reference name => name
  | .call head args =>
    match infixOperator? head args with
    | some op => separatedBy (" " ++ op ++ " ") (Slot.operandTextAll args)
    | none =>
      parenthesizedIf (!head.isReference) head.text ++
        parenthesized (commaSeparated (Slot.textAll args))
  | .pairlist args => "pairlist" ++ parenthesized (commaSeparated (Slot.textAll args))
  | .unquote e => "!!" ++ e.text
  | .splice e => "!!!" ++ e.text
  | .define n v => "!!" ++ n.text ++ " := " ++ v.text
termination_by structural t => t

def Slot.textAll : List Slot → List String
  | [] => []
  | ⟨name, t⟩ :: rest => (nameText name ++ t.text) :: Slot.textAll rest
termination_by structural l => l

def Slot.operandTextAll : List Slot → List String
  | [] => []
  | ⟨_, t⟩ :: rest => parenthesizedIf t.isInfix t.text :: Slot.operandTextAll rest
termination_by structural l => l

end

def Tree.headText (t : Tree) : String := parenthesizedIf (!t.isReference) t.text

def Tree.operandText (t : Tree) : String := parenthesizedIf t.isInfix t.text

def Slot.text (s : Slot) : String := nameText s.name ++ s.val.text

def Value.text : Value → String
  | .str s => s
  | .tree t => t.text
  | v => v.inspect

def Capture.text (c : Capture Tree) : String := "^" ++ c.tree.text

theorem Slot.textAll_eq_map (l : List Slot) : Slot.textAll l = l.map Slot.text := by
  induction l with
  | nil => rfl
  | cons s rest ih => simp [Slot.textAll, Slot.text, ih]

theorem Slot.operandTextAll_eq_map (l : List Slot) :
    Slot.operandTextAll l = l.map fun s => s.val.operandText := by
  induction l with
  | nil => rfl
  | cons s rest ih => simp [Slot.operandTextAll, Tree.operandText, ih]

theorem infixOperator?_eq_some_iff (head : Tree) (args : List Slot) (op : String) :
    infixOperator? head args = some op ↔
      binaryOperators.contains op = true ∧ head = .reference op ∧
        ∃ a b, args = [.positional a, .positional b] := by
  unfold infixOperator?
  split
  · rename_i o a b
    simp only [Named.positional, List.cons.injEq, Named.mk.injEq, true_and, and_true]
    constructor
    · intro h
      split at h
      · rename_i ho
        obtain rfl := Option.some.inj h
        exact ⟨ho, rfl, a, b, rfl, rfl⟩
      · simp at h
    · rintro ⟨ho, h, -⟩
      obtain rfl : o = op := by simpa using h
      simpa using ho
  · rename_i h
    constructor
    · intro e
      simp at e
    · rintro ⟨-, rfl, a, b, rfl⟩
      exact absurd rfl (h op a b rfl)

theorem Tree.text_call_infix (op : String) (a b : Tree) (h : binaryOperators.contains op = true) :
    (Tree.call (.reference op) [.positional a, .positional b]).text =
      a.operandText ++ (" " ++ op ++ " ") ++ b.operandText := by
  have hi := (infixOperator?_eq_some_iff (.reference op) [.positional a, .positional b] op).2
    ⟨h, rfl, a, b, rfl⟩
  simp only [Tree.text, hi, Slot.operandTextAll_eq_map]
  simp [separatedBy, Named.positional]

theorem Tree.text_call (head : Tree) (args : List Slot)
    (h : (Tree.call head args).isInfix = false) :
    (Tree.call head args).text =
      head.headText ++ parenthesized (commaSeparated (args.map Slot.text)) := by
  have hi : infixOperator? head args = none := by simpa [Tree.isInfix] using h
  simp only [Tree.text, hi, Slot.textAll_eq_map, Tree.headText]

end Quotation
