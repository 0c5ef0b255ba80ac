/-! Positions in a text, counted in bytes of its UTF-8 form: finding the first colon, and cutting a
text at a position, which works only at the boundaries between characters. -/

namespace AccessPolicy.Text

/-- The byte position of the first colon. -/
def colon? : List Char → Option Nat
  | [] => none
  | c :: rest => if c = ':' then some 0 else (colon? rest).map (· + c.utf8Size)

/-- The parts before and from byte position `at_`, if that is a boundary within the text. -/
def cut? : List Char → Nat → Option (List Char × List Char)
  | cs, 0 => some ([], cs)
  | [], _ + 1 => none
  | c :: rest, at_ + 1 =>
    if c.utf8Size ≤ at_ + 1 then
      (cut? rest (at_ + 1 - c.utf8Size)).map fun (before, after) => (c :: before, after)
    else none

/-- What stands before the first colon and what after it. -/
def splitColon? : List Char → Option (List Char × List Char)
  | [] => none
  | c :: rest =>
    if c = ':' then some ([], rest)
    else (splitColon? rest).map fun (before, after) => (c :: before, after)

end AccessPolicy.Text
