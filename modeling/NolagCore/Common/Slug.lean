import Mathlib.Data.List.Basic

/-!
# Common.Slug

The slug each facade makes of a name. Only ASCII letters and digits survive, so `toLowerCase` is
given on the characters whose lower case contains one.
-/

namespace NolagCore

/-- `toLowerCase` of one character, up to characters outside `[a-z0-9]`: besides the ASCII capitals
these are the Kelvin sign and the dotted capital I. -/
def toLowerCase (c : Char) : List Char :=
  if c = '\u212A' then ['k']
  else if c = '\u0130' then ['i', '\u0307']
  else [c.toLower]

/-- The white space `trim` removes. -/
def isTrimmed (c : Char) : Bool :=
  decide (c.toNat ∈ [0x9, 0xA, 0xB, 0xC, 0xD, 0x20, 0xA0, 0x1680, 0x2000, 0x2001, 0x2002, 0x2003,
    0x2004, 0x2005, 0x2006, 0x2007, 0x2008, 0x2009, 0x200A, 0x2028, 0x2029, 0x202F, 0x205F, 0x3000,
    0xFEFF])

def trimEnds (p : Char → Bool) (l : List Char) : List Char :=
  ((l.dropWhile p).reverse.dropWhile p).reverse

/-- `[a-z0-9]`. -/
def isSlugChar (c : Char) : Bool := c.isLower || c.isDigit

/-- `replace(/[^a-z0-9]+/g, "-")`: one hyphen for each run; `inRun` while inside one. -/
def hyphenate : (inRun : Bool) → List Char → List Char
  | _, [] => []
  | inRun, c :: l =>
    if isSlugChar c then c :: hyphenate false l
    else if inRun then hyphenate true l
    else '-' :: hyphenate true l

/-- `_generateSlug` of rooms and lobbies. -/
def generateSlug (name : String) : String :=
  let lower := name.toList.flatMap toLowerCase
  String.ofList (trimEnds (fun c => decide (c = '-')) (hyphenate false (trimEnds isTrimmed lower)))

/-- `_generateSlug` of apps, which never gives up on a name. -/
def generateAppSlug (name : String) : String :=
  if generateSlug name = "" then "app" else generateSlug name

end NolagCore
