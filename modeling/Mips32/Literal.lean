import Mips32.Text.Quoted
import Mips32.Word.Range

namespace Mips32

inductive LiteralError
  | empty
  | invalidDigit (text : Text) (digit : Char)
deriving DecidableEq, Repr

def LiteralError.message : LiteralError → String
  | .empty => "Empty numeric literal"
  | .invalidDigit text digit =>
    s!"Invalid digit {Text.quotedChar digit} in numeric literal {Text.quoted text}"

namespace Literal

def digit? (radix : Nat) (c : Char) : Option Nat :=
  let value? :=
    if c.isDigit then some (c.toNat - '0'.toNat)
    else if c.isLower then some (c.toNat - 'a'.toNat + 10)
    else if c.isUpper then some (c.toNat - 'A'.toNat + 10)
    else none
  value?.filter (· < radix)

def splitSign : Text → Bool × Text
  | '-' :: rest => (true, rest)
  | t => (false, t)

def splitRadix : Text → Nat × Text
  | '0' :: c :: rest =>
    if c = 'x' ∨ c = 'X' then (16, rest)
    else if c = 'b' ∨ c = 'B' then (2, rest)
    else if c = 'd' ∨ c = 'D' then (10, rest)
    else (10, '0' :: c :: rest)
  | t => (10, t)

/-- Continues the number `value` with further digits, modulo 2^32. Fails at the first
character that is no digit. -/
def accumulate (radix : Nat) (value : Word) : Text → Except Char Word
  | [] => .ok value
  | c :: rest =>
    match digit? radix c with
    | some d => accumulate radix (value * BitVec.ofNat 32 radix + BitVec.ofNat 32 d) rest
    | none => .error c

def parse (text : Text) : Except LiteralError Word :=
  let body := Text.trim text
  let (negative, unsigned) := splitSign body
  let (radix, digits) := splitRadix unsigned
  if digits.isEmpty then .error .empty
  else match accumulate radix 0#32 digits with
    | .error digit => .error (.invalidDigit body digit)
    | .ok value => .ok (if negative then -value else value)

end Literal

end Mips32
