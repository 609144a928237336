import Quotation.Proofs.Substitution.Filling
import Quotation.Session.Host

namespace Quotation

/-- A tree that substitution gives has a marker just if the value of some operand brought one along:
a quotation or a capture of a tree with markers, a spliced pairlist with markers, or a spliced
sequence with an element of that kind. -/
theorem resolved_hasMarkers_iff (eng : Engine) (fuel : Nat) (t : Tree) (env : FrameId)
    (mask : Option Mask) {s s' : State} {t' : Tree}
    (h : resolve eng (evaluate eng fuel) t env mask s = .ok t' s') :
    ∃ vs, askAll eng (evaluate eng fuel) env mask (t.requests 0)
        (s.record ⟨.debug, "resolve " ++ t.text⟩) = .ok vs s' ∧
      t' = t.filled vs ∧ (t'.hasMarkers = true ↔ admitMarkers (t.requests 0) vs = true) := by
  have hwalk : substituteTree eng (evaluate eng fuel) env mask 0 t
      (s.record ⟨.debug, "resolve " ++ t.text⟩) = .ok t' s' := by
    rcases resolve_agrees (evaluate_related fuel) t s with heq | ⟨d, u, -, -, hover⟩
    · rw [← h, heq]
      rfl
    · rw [hover] at h
      cases h
  have hfills := substituteTree_fills eng (evaluate eng fuel) t env mask 0
    (s.record ⟨.debug, "resolve " ++ t.text⟩)
  cases ha : askAll eng (evaluate eng fuel) env mask (t.requests 0)
      (s.record ⟨.debug, "resolve " ++ t.text⟩) with
  | error h u =>
    rw [ha, hwalk] at hfills
    cases hfills
  | ok vs u =>
    rw [ha, hwalk] at hfills
    obtain ⟨heq, hmarkers⟩ := hfills
    cases heq
    exact ⟨vs, rfl, rfl, by rw [hmarkers]⟩

def quotedMarker : Tree := .unquote (.literal (.tree (.unquote (.reference "x"))))

theorem resolve_quotedMarker :
    let eng : Engine := { host := Session.host }
    resolve eng (evaluate eng 1) quotedMarker 0 none {} =
        .ok (.unquote (.reference "x")) (({} : State).record ⟨.debug, "resolve " ++ quotedMarker.text⟩) ∧
      (Tree.unquote (.reference "x")).hasMarkers = true :=
  ⟨rfl, rfl⟩

theorem quotedMarker_hasMarkers_iff :
    let eng : Engine := { host := Session.host }
    let s : State := ({} : State).record ⟨.debug, "resolve " ++ quotedMarker.text⟩
    ∃ vs, askAll eng (evaluate eng 1) 0 none (quotedMarker.requests 0) s = .ok vs s ∧
      .unquote (.reference "x") = quotedMarker.filled vs ∧
      ((Tree.unquote (.reference "x")).hasMarkers = true ↔
        admitMarkers (quotedMarker.requests 0) vs = true) :=
  resolved_hasMarkers_iff { host := Session.host } 1 quotedMarker 0 none (s := {}) rfl

end Quotation
