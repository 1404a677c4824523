import Mips32.Mnemonic.Address
import Mips32.Mnemonic.SyntaxError
import Mips32.Mnemonic.Token
import Mips32.Role

namespace Mips32.Mnemonic

def isLegal (c : Char) : Bool := c.isAlphanum || c ∈ [' ', ',', '(', ')', '$', '-']

def checkCharacters (text : Text) : Except SyntaxError Unit :=
  match text.filter fun c ↦ !isLegal c with
  | [] => .ok ()
  | c :: cs => .error (.illegalCharacters (c :: cs))

def misplaced : List Role → List Text → Bool
  | _, [] => false
  | roles, argument :: rest =>
    (Text.hasParenthesis argument && roles.head? != some .address) || misplaced roles.tail rest

/-- Parentheses may stand only in the argument of an address role. -/
def checkParentheses (roles : List Role) (text : Text) : Except SyntaxError Unit :=
  match tokens text with
  | [] => .ok ()
  | first :: rest =>
    if Text.hasParenthesis first || misplaced roles rest then .error .illegalParentheses
    else .ok ()

end Mips32.Mnemonic
