import Mips32.Literal
import Mips32.Mnemonic.Address
import Mips32.Mnemonic.Token
import Mips32.Register

namespace Mips32.Mnemonic

def offsetValue? (offset : Text) : Option Word :=
  if offset.isEmpty then some 0#32 else (Literal.parse offset).toOption

def addressesAgree (a b : Text) : Bool :=
  match AddressText.split? a, AddressText.split? b with
  | some ⟨m, some x⟩, some ⟨n, some y⟩ =>
    match offsetValue? m, offsetValue? n with
    | some u, some v => u = v && (x = y || Register.agree x y)
    | _, _ => false
  | _, _ => false

def isRegisterLike (t : Text) : Bool := t.head? = some '$'

def tokensAgree (a b : Text) : Bool :=
  if a = b then true
  else if isRegisterLike a || isRegisterLike b then Register.agree a b
  else addressesAgree a b

/-- Token by token, the texts are identical, name the same register, or are based addresses
of equal value. Bare numbers agree only when written alike. -/
def agree (a b : Text) : Bool :=
  (tokens a).length = (tokens b).length &&
    ((tokens a).zip (tokens b)).all fun p ↦ tokensAgree p.1 p.2

end Mips32.Mnemonic
