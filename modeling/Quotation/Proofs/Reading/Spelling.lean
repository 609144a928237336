import Quotation.Proofs.Reading.Constant
import Quotation.Tree.Printer

namespace Quotation

open Source

def Tree.isNumber : Tree → Bool
  | .literal (.int _) => true
  | .literal (.float _) => true
  | _ => false

/-- Trees without markers that can be written as source text. The least integer has no text, because
its digits without the sign are no integer. -/
inductive Tree.HasSource : Tree → Prop
  | int (n : Int64) (h : n ≠ Int64.minValue) : HasSource (.literal (.int n))
  | bool (b : Bool) : HasSource (.literal (.bool b))
  | str (s : String) : HasSource (.literal (.str s))
  | reference (name : String) (h : isIdentifier name = true) : HasSource (.reference name)
  | operator (op : String) (a b : Tree) (h : binaryOperators.contains op = true)
      (ha : HasSource a) (hb : HasSource b) : HasSource (.callNamed op [a, b])
  | not (x : Tree) (hx : HasSource x) : HasSource (.callNamed "!" [x])
  | neg (x : Tree) (hx : HasSource x) (h : x.isNumber = false) : HasSource (.callNamed "-" [x])
  | call (head : Tree) (args : List Slot) (hhead : HasSource head)
      (hargs : ∀ s ∈ args, HasSource s.val)
      (hnames : ∀ s ∈ args, ∀ name ∈ s.name, isIdentifier name = true) :
      HasSource (.call head args)

def intTokens : Int → List Token
  | .ofNat n => [.literal (.int (toString n) n)]
  | .negSucc n => [.mark '-' false, .literal (.int (toString (n + 1)) (n + 1))]

def Value.tokens : Value → List Token
  | .int n => intTokens n.toInt
  | .bool b => [.word (boolText b)]
  | .str s => [.literal (.str (Text.quoted s) s)]
  | _ => []

def nameToken (name : String) : Token :=
  if name = "!" then .mark '!' false else if name = "-" then .mark '-' false else .word name

def parenthesizedTokens (ts : List Token) : List Token :=
  .opening .paren :: (ts ++ [.closing .paren])

def parenthesizedTokensIf (b : Bool) (ts : List Token) : List Token :=
  if b then parenthesizedTokens ts else ts

def commaTokens (items : List (List Token)) : List Token :=
  [Token.mark ',' false].intercalate items

def labelTokens : Option String → List Token
  | some name => [.word name, .mark '=' false]
  | none => []

mutual

def Tree.tokens : Tree → List Token
  | .literal v => v.tokens
  | .reference name => [nameToken name]
  | .call head args =>
    match infixOperator? head args with
    | some op => (Token.operator op.toList).intercalate (Slot.operandTokensAll args)
    | none =>
      parenthesizedTokensIf (!head.isReference) head.tokens ++
        parenthesizedTokens (commaTokens (Slot.tokensAll args))
  | _ => []
termination_by structural t => t

def Slot.tokensAll : List Slot → List (List Token)
  | [] => []
  | ⟨name, t⟩ :: rest => (labelTokens name ++ t.tokens) :: Slot.tokensAll rest
termination_by structural l => l

def Slot.operandTokensAll : List Slot → List (List Token)
  | [] => []
  | ⟨_, t⟩ :: rest => parenthesizedTokensIf t.isInfix t.tokens :: Slot.operandTokensAll rest
termination_by structural l => l

end

def Tree.headTokens (t : Tree) : List Token := parenthesizedTokensIf (!t.isReference) t.tokens

def Tree.operandTokens (t : Tree) : List Token := parenthesizedTokensIf t.isInfix t.tokens

def Slot.tokens (s : Slot) : List Token := labelTokens s.name ++ s.val.tokens

theorem Slot.tokensAll_eq_map (l : List Slot) : Slot.tokensAll l = l.map Slot.tokens := by
  induction l with
  | nil => rfl
  | cons s rest ih => simp [Slot.tokensAll, Slot.tokens, ih]

theorem Tree.tokens_operator (op : String) (a b : Tree) (h : binaryOperators.contains op = true) :
    (Tree.callNamed op [a, b]).tokens =
      a.operandTokens ++ Token.operator op.toList ++ b.operandTokens := by
  have hi := (infixOperator?_eq_some_iff (.reference op) [.positional a, .positional b] op).2
    ⟨h, rfl, a, b, rfl⟩
  simp only [Tree.callNamed, List.map_cons, List.map_nil, Tree.tokens, hi]
  simp [Slot.operandTokensAll, Tree.operandTokens, Named.positional]

theorem Tree.tokens_call (head : Tree) (args : List Slot)
    (h : (Tree.call head args).isInfix = false) :
    (Tree.call head args).tokens =
      head.headTokens ++ parenthesizedTokens (commaTokens (args.map Slot.tokens)) := by
  have hi : infixOperator? head args = none := by simpa [Tree.isInfix] using h
  simp only [Tree.tokens, hi, Slot.tokensAll_eq_map, Tree.headTokens]

theorem not_isIdentifier_of_operator {op : String}
    (h : op = "!" ∨ binaryOperators.contains op = true) : isIdentifier op = false := by
  have hall : ∀ o ∈ "!" :: binaryOperators, isIdentifier o = false := by decide
  exact hall op (by simpa using h)

theorem nameToken_of_isIdentifier {name : String} (h : isIdentifier name = true) :
    nameToken name = .word name := by
  have hnot : name ≠ "!" := by
    rintro rfl
    exact absurd h (by decide)
  have hneg : name ≠ "-" := by
    rintro rfl
    exact absurd h (by decide)
  simp [nameToken, hnot, hneg]

namespace Tree

theorem HasSource.isIdentifier {name : String} (h : (Tree.reference name).HasSource) :
    isIdentifier name = true := by
  generalize ht : Tree.reference name = t at h
  cases h with
  | reference name h =>
    obtain rfl := Tree.reference.inj ht
    exact h
  | _ => simp [callNamed] at ht

theorem HasSource.isInfix_call {head : Tree} (h : head.HasSource) (args : List Slot) :
    (Tree.call head args).isInfix = false := by
  rw [isInfix, Option.isSome_eq_false_iff, Option.isNone_iff_eq_none,
    Option.eq_none_iff_forall_ne_some]
  intro op hop
  obtain ⟨hcontains, rfl, -⟩ := (infixOperator?_eq_some_iff head args op).1 hop
  exact absurd h.isIdentifier (by simp [not_isIdentifier_of_operator (.inr hcontains)])

theorem isInfix_callNamed_single (op : String) (x : Tree) : (callNamed op [x]).isInfix = false :=
  rfl

theorem isInfix_callNamed {op : String} (a b : Tree) (h : binaryOperators.contains op = true) :
    (callNamed op [a, b]).isInfix = true := by
  have hi := (infixOperator?_eq_some_iff (.reference op) [.positional a, .positional b] op).2
    ⟨h, rfl, a, b, rfl⟩
  simp only [callNamed, List.map_cons, List.map_nil, isInfix, hi, Option.isSome_some]

theorem tokens_unary (op : String) (x : Tree) :
    (callNamed op [x]).tokens = nameToken op :: parenthesizedTokens x.tokens := by
  rw [callNamed, tokens_call _ _ (isInfix_callNamed_single op x)]
  simp [headTokens, parenthesizedTokensIf, isReference, tokens, commaTokens, Slot.tokens,
    labelTokens, Named.positional]

theorem text_unary (op : String) (x : Tree) :
    (callNamed op [x]).text = op ++ parenthesized x.text := by
  rw [callNamed, text_call _ _ (isInfix_callNamed_single op x)]
  simp [headText, parenthesizedIf, isReference, text, commaSeparated, separatedBy, Slot.text,
    nameText, Named.positional]

end Tree

end Quotation
