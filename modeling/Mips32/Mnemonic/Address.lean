import Mips32.Text.Basic

namespace Mips32

namespace Text

def isParenthesis (c : Char) : Bool := c = '(' || c = ')'

def hasParenthesis (t : Text) : Bool := t.any isParenthesis

end Text

structure AddressText where
  offset : Text
  base : Option Text
deriving DecidableEq, Repr

/-- Splits `N(base)` or a bare `N`. Fails on parentheses in any other place. -/
def AddressText.split? (text : Text) : Option AddressText :=
  if !Text.hasParenthesis text then some ⟨Text.trim text, none⟩
  else
    let body := Text.trim text
    let inside (c : Char) := !Text.isParenthesis c
    match body.dropWhile inside with
    | '(' :: rest =>
      match rest.dropWhile inside with
      | [')'] =>
        some ⟨Text.trim (body.takeWhile inside), some (Text.trim (rest.takeWhile inside))⟩
      | _ => none
    | _ => none

end Mips32
