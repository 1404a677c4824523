import Mips32.Console.Argument
import Mips32.Literal

namespace Mips32.Console

def readWords (values : List Text) : Except Rejection (List Word) :=
  if values.isEmpty then .error .missingArgument
  else match values.mapM fun v ↦ (Literal.parse v).toOption with
    | some words => .ok words
    | none => .error .invalidValue

def atLeastOne (values : List Text) : Except Rejection (List Text) :=
  if values.isEmpty then .error .missingArgument else .ok values

def noValues (values : List Text) : Except Rejection Unit :=
  if values.isEmpty then .ok () else .error .unknownArgument

def rejectFirst (isCommand : Text → Bool) (argument : Text) (rest : List Text) : Rejection :=
  match Spelling.of argument with
  | .plain => .invalidSubcommand
  | .separator =>
    match rest with
    | [] => .missingSubcommand
    | next :: _ => if isCommand next then .unknownArgument else .invalidSubcommand
  | _ => .unknownArgument

def stem (name : Text) : Text :=
  match name.reverse.dropWhile (· ≠ '.') with
  | _ :: front => if front.isEmpty then name else front.reverse
  | [] => name

/-- The stem of the file that a path leads to, if it leads to a file. -/
def fileStem? (path : Text) : Option Text :=
  match ((path.splitOn '/').filter fun part ↦ part ≠ [] && part ≠ ['.']).getLast? with
  | some ['.', '.'] => none
  | some name => some (stem name)
  | none => none

inductive Command
  | decode (words : List Word)
  | encode (mnemonic : List Text)
  | list
  | registers
  | quit
deriving DecidableEq, Repr

namespace Command

def reader? (name : Text) : Option (List Text → Except Rejection Command) :=
  let mixed (arguments : List Text) := (readMixed .none [] arguments).map Prod.snd
  let alone (command : Command) (arguments : List Text) :=
    ((mixed arguments).bind noValues).map fun _ ↦ command
  match String.ofList name with
  | "decode" | "d" => some fun arguments ↦ ((mixed arguments).bind readWords).map decode
  | "encode" | "e" => some fun arguments ↦
    ((readLeading .none [] arguments).bind fun p ↦ atLeastOne p.2).map encode
  | "list" | "l" => some (alone list)
  | "registers" | "r" => some (alone registers)
  | "quit" | "q" => some (alone quit)
  | _ => none

def read : List Text → Except Rejection Command
  | [] => .error .missingSubcommand
  | first :: rest =>
    match reader? first with
    | some reader => reader rest
    | none => .error (rejectFirst (fun t ↦ (reader? t).isSome) first rest)

/-- Reads the words of a line that asks for no help. The command may be given as a path to a file
of its name; a path to no file stands for the program, and the word after it for its name. -/
def parse : List Text → Except Rejection Command
  | [] => .error .missingSubcommand
  | first :: rest =>
    match fileStem? first with
    | some name => read (name :: rest)
    | none => read rest.tail

end Command

end Mips32.Console
