import Mips32.Word.Range

namespace Mips32.Word

def opcode (w : Word) : BitVec 6 := w.extractLsb' 26 6

def rs (w : Word) : BitVec 5 := w.extractLsb' 21 5

def rt (w : Word) : BitVec 5 := w.extractLsb' 16 5

def rd (w : Word) : BitVec 5 := w.extractLsb' 11 5

def shamt (w : Word) : BitVec 5 := w.extractLsb' 6 5

def funct (w : Word) : BitVec 6 := w.extractLsb' 0 6

def immediate (w : Word) : BitVec 16 := w.extractLsb' 0 16

def signedImmediate (w : Word) : Int := (immediate w).toInt

def target (w : Word) : BitVec 26 := w.extractLsb' 0 26

/-- The cache hint shares its bits with `rt`. -/
def hintBits (w : Word) : BitVec 5 := w.extractLsb' 16 5

end Mips32.Word
