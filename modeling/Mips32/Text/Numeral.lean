import Mips32.Text.Basic

namespace Mips32.Text

def decimal (n : Nat) : Text := Nat.toDigits 10 n

def signedDecimal : Int → Text
  | .ofNat n => decimal n
  | .negSucc n => '-' :: decimal (n + 1)

def hexadecimal (n : Nat) : Text := '0' :: 'x' :: Nat.toDigits 16 n

def wordHexadecimal (n : Nat) : Text :=
  let digits := Nat.toDigits 16 n
  '0' :: 'x' :: (List.replicate (8 - digits.length) '0' ++ digits)

end Mips32.Text
