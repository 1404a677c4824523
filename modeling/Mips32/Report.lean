import Mips32.InstructionSet.Basic

namespace Mips32.Report

def header : String :=
  "word       fmt  decimal                      hexadecimal                  mnemonic"

/-- A disassembled word: the word, its format, its fields in decimal and hexadecimal, its
text, and what is wrong with it. -/
def row (d : Disassembly) : String :=
  let (format, decimal, hexadecimal) :=
    match d.format? with
    | some format =>
      let values := format.decompose d.word
      (format.name.toList, Decomposition.decimal values, Decomposition.hexadecimal values)
    | none => (['?'], ['-'], ['-'])
  let columns := List.intercalate [' ']
    [Text.wordHexadecimal d.word.toNat, Text.padRight 4 format, Text.padRight 28 decimal,
      Text.padRight 28 hexadecimal, d.mnemonic?.getD "<unrecognized>".toList]
  let remarks :=
    match d.violations with
    | [] => ""
    | vs => "  (" ++ "; ".intercalate (vs.map Violation.message) ++ ")"
  String.ofList columns ++ remarks

def assembled : Except AssemblyError Instruction → String
  | .ok i => String.ofList (Text.wordHexadecimal i.word.toNat ++ [' ', ' '] ++ i.mnemonic)
  | .error e => s!"error: {e.message}"

def listing (set : InstructionSet) : List String :=
  set.operations.toList.map fun op ↦
    String.ofList (List.intercalate [' ']
      [Text.padRight 8 op.name, Text.padRight 8 op.format.name.toList,
        Text.padRight 28 op.usage, op.description.toList])

def registers : List String :=
  Register.all.map fun r ↦
    String.ofList (List.intercalate [' ', ' ']
      [Text.padLeft 5 r.name, '$' :: Text.padRight 2 (Text.decimal r.index),
        r.description.toList])

end Mips32.Report
