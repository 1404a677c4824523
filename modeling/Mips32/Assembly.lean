import Mips32.Instruction

namespace Mips32

inductive AssemblyError
  | malformed (mnemonic : Text) (reason : SyntaxError)
  | unknownInstruction (name : Text)
deriving DecidableEq, Repr

namespace AssemblyError

def message : AssemblyError → String
  | malformed mnemonic reason =>
    s!"Malformed mnemonic {Text.quoted mnemonic}: {reason.message}"
  | unknownInstruction name => s!"Unknown instruction {Text.quoted name}"

end AssemblyError

namespace Operation

def assembleTokens (op : Operation) (name : Text) (arguments : List Text) :
    Except SyntaxError Instruction :=
  (Operand.readAll op.targetInBytes op.roles arguments).map fun operands ↦
    { operation := op
      word := op.format.pack (Operand.apply operands op.fixedFields)
      mnemonic := Mnemonic.join (name :: arguments)
      hint := Operand.lastHint? operands }

/-- Reads a text as this operation. The checks run in a fixed order and the first that fails
is reported: blank text, characters, parentheses, name, number of arguments, number of
commas, and the operands from left to right. -/
def assemble (op : Operation) (text : Text) : Except AssemblyError Instruction :=
  if text.all Text.isBlank then .error (.malformed text .empty)
  else match Mnemonic.checkCharacters text with
  | .error e => .error (.malformed text e)
  | .ok () =>
    match Mnemonic.checkParentheses op.roles text with
    | .error e => .error (.malformed text e)
    | .ok () =>
      match Mnemonic.tokens text with
      | [] => .error (.malformed text .empty)
      | name :: arguments =>
        let commas := Mnemonic.countCommas text
        if name ≠ op.name then .error (.unknownInstruction name)
        else if arguments.length ≠ op.shape.argumentCount then
          .error (.malformed text (.argumentCount op.shape.argumentCount arguments.length))
        else if commas ≠ op.shape.commaCount then
          .error (.malformed text (.commaCount op.shape.commaCount commas))
        else (op.assembleTokens name arguments).mapError (.malformed text)

end Operation

end Mips32
