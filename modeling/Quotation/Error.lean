import Quotation.Tree.Markers

namespace Quotation

inductive Error
  | unrepresentable (type : String) (index : Option Nat)
  | noCapturableArgument (name reason : String)
  | notASymbol (found : String)
  | invalidSpliceContext
  | invalidDefineContext
  | notASequence (type : String)
  | invalidName (type : String)
  | unresolvedMarker (kind : Marker.Kind)
  | undefinedVariable (name : String)
  | notCallable (type : String)
  | missingArgument (name : String)
  | unusedArgument (name : Option String)
  | dotsOutsideFunction
  | recursivePromise
  | stackOverflow (depth max : Nat)
  | parse (message : String)
  | unsupportedSyntax (kind : String)
  | host (text : String)
  deriving DecidableEq, Repr

namespace Error

def message : Error → String
  | .unrepresentable type index =>
    "cannot represent a value of type `" ++ type ++ "` as a syntax tree" ++
      match index with
      | some i => " (element " ++ toString (i + 1) ++ ")"
      | none => ""
  | .noCapturableArgument name reason => "no capturable argument `" ++ name ++ "`: " ++ reason
  | .notASymbol found => "`" ++ found ++ "` must be a symbol"
  | .invalidSpliceContext => "splicing `!!!` can only be used in an argument or element list"
  | .invalidDefineContext => "a dynamic name definition can only be used as a call argument"
  | .notASequence type => "cannot splice a value of type `" ++ type ++ "`, expected a sequence"
  | .invalidName type => "argument name must be a string or a symbol, found `" ++ type ++ "`"
  | .unresolvedMarker kind => "cannot evaluate an unresolved `" ++ kind.symbol ++ "` marker"
  | .undefinedVariable name => "object `" ++ name ++ "` not found"
  | .notCallable type => "attempt to apply non-function of type `" ++ type ++ "`"
  | .missingArgument name => "argument `" ++ name ++ "` is missing, with no default"
  | .unusedArgument name =>
    "unused argument" ++
      match name with
      | some n => " `" ++ n ++ "`"
      | none => ""
  | .dotsOutsideFunction => "`...` used in an incorrect context"
  | .recursivePromise =>
    "promise already under evaluation: recursive default argument reference or earlier problems?"
  | .stackOverflow depth max =>
    "evaluation nested too deeply: depth " ++ toString depth ++ " exceeds maximum " ++ toString max
  | .parse message => "parse error: " ++ message
  | .unsupportedSyntax kind => "unsupported syntax: " ++ kind
  | .host text => text

end Error

end Quotation
