import Quotation.Source.Grammar.Atom
import Quotation.Source.Grammar.Item

namespace Quotation.Source

namespace Grammar

open Rule

def step (g : Grammar) : Grammar where
  expr allowStruct := do
    let start ← place
    let e ← g.unaryOf allowStruct
    g.climbFrom allowStruct start 0 e
  unary := g.unaryOf
  type := g.typeOf
  bound := g.boundOf
  pattern := g.patternOf
  armBody := g.armBodyOf
  statements := g.statementsOf
  item := g.itemOf

def ofDepth : Nat → Grammar
  | 0 => exhausted
  | n + 1 => (ofDepth n).step

end Grammar

def Expr.ofTokens? (ts : List Token) : Option Expr :=
  match (Grammar.ofDepth (2 * ts.length + 2)).expr true ⟨ts, []⟩ with
  | some (e, ⟨[], _⟩) => some e
  | _ => none

end Quotation.Source
