import Eeemail.Lib.Texts

/-! # The `LIKE` operator

SQLite's `LIKE` without an escape character: `%` stands for any text, `_` for
any character, and the 26 ASCII letters match in either case.  Pattern and text
both end at their first null character, and a pattern that is too long is an error.
A pattern made by putting `%` around a text finds the texts that contain it, as long
as the text has no wildcard of its own; for one that has, there is always a text that
is found and does not. -/

set_option autoImplicit false

namespace Eeemail.Lib.Like

open Lib.Texts

def cString (s : Text) : Text := s.takeWhile (· != '\x00')

def likeOne (c x : Char) : Bool := c == '_' || c.toLower == x.toLower

def likeMatch : Text → Text → Bool
  | [], s => s.isEmpty
  | c :: pattern, s =>
    if c == '%' then s.tails.any (likeMatch pattern)
    else s.head?.any (likeOne c) && likeMatch pattern s.tail

def maxPatternLength : Nat := 50000

/-- Whether the operator fails, whatever it is asked to compare with the pattern. -/
def isTooComplex (pattern : Text) : Bool :=
  decide (maxPatternLength < (pattern.map Char.utf8Size).sum)

def like (pattern s : Text) : Bool := likeMatch (cString pattern) (cString s)

def surrounded (part : Text) : Text := '%' :: part ++ ['%']

end Eeemail.Lib.Like
