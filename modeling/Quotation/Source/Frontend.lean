import Quotation.Source.Tree

namespace Quotation

structure Frontend where
  name : String
  fileExtension : String
  parse : String → Except Error Tree
  report : Error → String := fun e => "error: " ++ e.message

namespace Frontend

def rust : Frontend where
  name := "Rust"
  fileExtension := "rs"
  parse := Source.parse
  report
    | .undefinedVariable name => "error: cannot find value `" ++ name ++ "` in this scope"
    | .parse message => "error: expected expression: " ++ message
    | e => "error: " ++ e.message

def plain : Frontend where
  name := "plain"
  fileExtension := "txt"
  parse := Source.parse

end Frontend

end Quotation
