import Quotation.Proofs.Reading.Lexing
import Quotation.Proofs.Reading.Tree
import Quotation.Source.Frontend

namespace Quotation

open Source

/-- A tree with a source text is what its text is read as. -/
theorem parse_text {t : Tree} (h : t.HasSource) : Frontend.rust.parse t.text = .ok t := by
  obtain ⟨e, htokens, htree⟩ := h.ofTokens?_tokens
  change Source.parse t.text = .ok t
  rw [Source.parse, h.tokens?_text, Option.bind_some, htokens]
  exact htree

def negatedCall : Tree :=
  .call
    (.callNamed "-" [.call (.reference "f") [
      .positional (.callNamed "<" [.reference "x",
        .callNamed "-" [.reference "y", .literal (.int (-5))]]),
      .labelled "r#type" (.callNamed "&&" [.callNamed "!" [.literal (.bool true)],
        .literal (.str "a\"\n")])]])
    [.positional (.call (.literal (.int 7)) []),
      .positional (.callNamed "/" [.callNamed "==" [.literal (.str ""), .reference "z"],
        .reference "z"])]

theorem parse_negatedCall :
    negatedCall.HasSource ∧
      negatedCall.text =
        "(-(f(x < (y - -5), r#type = !(true) && \"a\\\"\\n\")))((7)(), (\"\" == z) / z)" ∧
      Frontend.rust.parse negatedCall.text = .ok negatedCall := by
  have hz : (Tree.reference "z").HasSource := .reference "z" (by decide)
  have hsum : (Tree.callNamed "-" [.reference "y", .literal (.int (-5))]).HasSource :=
    .operator "-" _ _ (by decide) (.reference "y" (by decide)) (.int (-5) (by decide))
  have hless : (Tree.callNamed "<" [.reference "x",
      .callNamed "-" [.reference "y", .literal (.int (-5))]]).HasSource :=
    .operator "<" _ _ (by decide) (.reference "x" (by decide)) hsum
  have hand : (Tree.callNamed "&&" [.callNamed "!" [.literal (.bool true)],
      .literal (.str "a\"\n")]).HasSource :=
    .operator "&&" _ _ (by decide) (.not _ (.bool true)) (.str "a\"\n")
  have hseven : (Tree.call (.literal (.int 7)) []).HasSource :=
    .call _ [] (.int 7 (by decide)) (by simp) (by simp)
  have hquotient : (Tree.callNamed "/" [.callNamed "==" [.literal (.str ""), .reference "z"],
      .reference "z"]).HasSource :=
    .operator "/" _ _ (by decide) (.operator "==" _ _ (by decide) (.str "") hz) hz
  have hsource : negatedCall.HasSource := by
    refine .call _ _ (.neg _ (.call _ _ (.reference "f" (by decide)) ?_ ?_) rfl) ?_ ?_
    · simp [Named.positional, Named.labelled, hless, hand]
    · decide
    · simp [Named.positional, hseven, hquotient]
    · decide
  exact ⟨hsource, by decide +kernel, parse_text hsource⟩

end Quotation
