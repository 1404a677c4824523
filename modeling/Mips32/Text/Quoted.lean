import Mips32.Text.Basic
import Mips32.Text.Extending
import Mips32.Text.Unprintable

namespace Mips32.Text

def isEscaped (c : Char) : Bool := inRanges unprintableRanges c || inRanges extendingRanges c

/-- A character inside a quotation that ends at `mark`. -/
def escapeChar (mark c : Char) : Text :=
  if c = '\\' || c = mark then ['\\', c]
  else match c with
    | '\t' => ['\\', 't']
    | '\n' => ['\\', 'n']
    | '\r' => ['\\', 'r']
    | '\x00' => ['\\', '0']
    | c =>
      if isEscaped c then
        '\\' :: 'u' :: '\x7b' :: (Nat.toDigits 16 c.toNat ++ ['\x7d'])
      else [c]

def quotedBy (mark : Char) (t : Text) : Text := mark :: (t.flatMap (escapeChar mark) ++ [mark])

def quoted (t : Text) : String := String.ofList (quotedBy '\x22' t)

def quotedChar (c : Char) : String := String.ofList (quotedBy '\x27' [c])

def quotedChars (cs : List Char) : String :=
  "[" ++ ", ".intercalate (cs.map quotedChar) ++ "]"

end Mips32.Text
