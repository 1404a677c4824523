import Mips32.Literal

namespace Mips32

inductive SyntaxError
  | empty
  | illegalCharacters (characters : List Char)
  | illegalParentheses
  | argumentCount (expected actual : Nat)
  | commaCount (expected actual : Nat)
  | invalidRegister (text : Text)
  | invalidNumber (text : Text) (reason : LiteralError)
  | invalidAddress (text : Text)
  | unknownHint (value : Word)
deriving DecidableEq, Repr

def SyntaxError.message : SyntaxError → String
  | .empty => "Empty mnemonic"
  | .illegalCharacters characters => s!"Illegal characters: {Text.quotedChars characters}"
  | .illegalParentheses => "Parentheses are only allowed in I-format instructions"
  | .argumentCount expected actual => s!"Expected {expected} arguments, got {actual}"
  | .commaCount expected actual => s!"Expected {expected} commas, got {actual}"
  | .invalidRegister text => s!"Invalid register {Text.quoted text}"
  | .invalidNumber text reason => s!"Invalid number {Text.quoted text}: {reason.message}"
  | .invalidAddress text => s!"Invalid address {Text.quoted text}, expected N(base)"
  | .unknownHint value => s!"Unknown prefetch hint {value.toNat}"

end Mips32
