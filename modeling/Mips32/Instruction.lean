import Mips32.Operation

namespace Mips32

structure Instruction where
  operation : Operation
  word : Word
  mnemonic : Text
  hint : Option Hint
deriving DecidableEq

namespace Instruction

def format (i : Instruction) : Format := i.operation.format

def fields (i : Instruction) : Fields := i.format.unpack i.word

def agree (a b : Instruction) : Bool :=
  a.operation.agree b.operation && a.word = b.word && a.mnemonic = b.mnemonic && a.hint = b.hint

def summary (i : Instruction) : Text :=
  let values := i.format.decompose i.word
  List.intercalate [' ']
    [Text.wordHexadecimal i.word.toNat, i.format.name.toList, Decomposition.decimal values,
      Decomposition.hexadecimal values, i.mnemonic]

end Instruction

def Operation.instructionOf (op : Operation) (word : Word) : Instruction :=
  ⟨op, word, op.mnemonicOf word, op.hintOf? word⟩

/-- The instruction with the given operand fields. Fields that no operand writes keep the
operation's own value, or zero. -/
def Operation.ofFields (op : Operation) (fields : Fields) : Instruction :=
  op.instructionOf <| op.format.pack fun f ↦
    if op.shape.writes f then (fields f).or (op.fixedFields f) else op.fixedFields f

end Mips32
