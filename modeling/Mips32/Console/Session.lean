import Mips32.Console.Command
import Mips32.Report

namespace Mips32.Console

inductive Line
  | text (content : Text)
  | unreadable (error : String)
deriving DecidableEq, Repr

namespace Line

def ofBytes (bytes : List UInt8) : Line :=
  match String.fromUTF8? bytes.toByteArray with
  | some s => text s.toList
  | none => unreadable "stream did not contain valid UTF-8"

def split (input : List UInt8) : List Line :=
  let pieces := input.splitOn 10
  (if pieces.getLast? = some [] then pieces.dropLast else pieces).map ofBytes

end Line

/-- A shell answers from its instructions, and reads the words of a line as a command with its
reader. Of words that are none, the reader gives the lines that are printed for them. -/
structure Shell where
  instructions : InstructionSet
  reader : List Text → Except (List String) Command

structure Reply where
  output : List String
  quits : Bool

def decodeOutput (set : InstructionSet) (words : List Word) : List String :=
  words.map fun w ↦ Report.row (set.disassemble w)

def mnemonicText (mnemonic : List Text) : Text := List.intercalate [' '] mnemonic

def Command.reply (set : InstructionSet) : Command → Reply
  | decode words => ⟨Report.header :: decodeOutput set words, false⟩
  | encode mnemonic => ⟨[Report.assembled (set.assemble (mnemonicText mnemonic))], false⟩
  | list => ⟨Report.listing set, false⟩
  | registers => ⟨Report.registers, false⟩
  | quit => ⟨[], true⟩

def Line.reply (shell : Shell) : Line → Reply
  | unreadable error => ⟨["Error reading line: " ++ error], false⟩
  | text content =>
    let line := Text.trim content
    if line.isEmpty then ⟨[], false⟩
    else match shell.reader (Text.words line) with
      | .ok command => command.reply shell.instructions
      | .error printed => ⟨printed, false⟩

/-- What a session prints over lines of input, up to the one that ends it. -/
def Session.run (shell : Shell) : List Line → List String
  | [] => []
  | line :: rest =>
    let reply := line.reply shell
    if reply.quits then reply.output else reply.output ++ run shell rest

end Mips32.Console
