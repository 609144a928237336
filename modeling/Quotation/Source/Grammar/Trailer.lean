import Quotation.Source.Grammar.Field
import Quotation.Source.Grammar.Operator

namespace Quotation.Source.Grammar

open Rule

variable (g : Grammar)

def plainSince (start : Nat) : Rule Expr := do
  let text ← writtenSince start
  return .other .plain text

def arguments : Rule (List Expr) := delimited .paren (commaItems (g.expr true))

def member (start : Nat) (e : Expr) : Rule Expr := do
  let n ← name
  let place ← place
  let generic ← peek (Peek.mark "::")
  if generic then g.pathArguments
  let turbofish ← writtenSince place
  if ← peek fun ts => generic || Peek.opening .paren ts then
    let args ← g.arguments
    return .method e n (if generic then some turbofish else none) args
  else plainSince start

def access (start : Nat) (e : Expr) : Rule Expr := do
  mark "."
  let double ← peek isDouble
  let trailing ← peek endsInPoint
  if double then fieldIndices
  if double && !trailing then plainSince start
  else
    let e ← if double then plainSince start else pure e
    if ← peek (Peek.word "await") then
      word "await"
      plainSince start
    else if ← peek Peek.name then g.member start e
    else
      fieldIndex
      plainSince start

def trailers : (fuel : Nat) → (start : Nat) → Expr → Rule Expr
  | 0, _, _ => reject
  | fuel + 1, start, e => do
    if ← peek (Peek.opening .paren) then
      let args ← g.arguments
      trailers fuel start (.call e args)
    else if ← peek fun ts => !e.isRange && beginsPoint ts then
      let e ← g.access start e
      trailers fuel start e
    else if ← peek (Peek.opening .bracket) then
      let _ ← delimited .bracket (g.expr true)
      let e ← plainSince start
      trailers fuel start e
    else if ← peek fun ts => !e.isRange && Peek.mark "?" ts then
      mark "?"
      let e ← plainSince start
      trailers fuel start e
    else return e

def trailersFrom (start : Nat) (e : Expr) : Rule Expr := do
  let fuel ← remaining
  g.trailers (fuel + 1) start e

end Quotation.Source.Grammar
