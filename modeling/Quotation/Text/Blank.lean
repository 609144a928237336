import Quotation.Text.CodePoints

namespace Quotation.Text

def whiteSpaceRanges : List (Nat × Nat) := [
  (0x09, 0x0d), (0x20, 0x20), (0x85, 0x85), (0xa0, 0xa0), (0x1680, 0x1680), (0x2000, 0x200a),
  (0x2028, 0x2029), (0x202f, 0x202f), (0x205f, 0x205f), (0x3000, 0x3000)]

def isWhiteSpace (c : Char) : Bool := inRanges whiteSpaceRanges c

def isBlank (c : Char) : Bool := isWhiteSpace c || c == '\u200e' || c == '\u200f'

end Quotation.Text
