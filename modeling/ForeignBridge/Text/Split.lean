/-! # Cutting text at dots

Dotted paths and labels are cut at every dot, or once at the last one. Parts may be empty. -/

namespace ForeignBridge.Text

/-- The parts between the dots; a text without a dot is one part. -/
def splitDots : List Char → List (List Char)
  | [] => [[]]
  | c :: rest =>
    if c = '.' then [] :: splitDots rest
    else
      match splitDots rest with
      | part :: parts => (c :: part) :: parts
      | [] => [[c]]

/-- What stands before and after the last dot, if there is one. -/
def splitLastDot : List Char → Option (List Char × List Char)
  | [] => none
  | c :: rest =>
    match splitLastDot rest with
    | some (before, after) => some (c :: before, after)
    | none => if c = '.' then some ([], rest) else none

end ForeignBridge.Text
