import Mips32.Console.Session
import Mips32.InstructionSet.Standard

namespace Mips32.Console

namespace Shell

/-- The shell over the standard instructions. `help` gives the screen that words ask for if they
ask for help. All other words are read as a command, and nothing is printed for a rejection. -/
def ofHelp (help : List Text → Option (List String)) : Shell where
  instructions := .standard
  reader words :=
    match help words with
    | some screen => .error screen
    | none => (Command.parse words).mapError fun _ ↦ []

def standard : Shell := ofHelp fun _ ↦ none

end Shell

inductive Invocation
  | decode (words : List Word) (headerless : Bool)
  | encode (mnemonic : List Text)
  | list
  | shell
deriving DecidableEq, Repr

structure Outcome where
  status : UInt32
  output : List String

namespace Invocation

def commonFlags : FlagNames := ⟨[("verbose".toList, .verbose)], [('v', .verbose)]⟩

def decodeFlags : FlagNames :=
  { commonFlags with long := ("headerless".toList, .headerless) :: commonFlags.long }

def programFlags : FlagNames :=
  ⟨("version".toList, .version) :: commonFlags.long, ('V', .version) :: commonFlags.short⟩

def reader? (name : Text) : Option (List Text → Except Rejection Invocation) :=
  let alone (invocation : Invocation) (arguments : List Text) :=
    ((readMixed commonFlags [] arguments).bind fun p ↦ noValues p.2).map fun _ ↦ invocation
  match String.ofList name with
  | "decode" => some fun arguments ↦
    (readMixed decodeFlags [] arguments).bind fun (flags, values) ↦
      (readWords values).map fun words ↦ decode words (.headerless ∈ flags)
  | "encode" => some fun arguments ↦
    ((readLeading commonFlags [] arguments).bind fun p ↦ atLeastOne p.2).map encode
  | "list" => some (alone list)
  | "shell" => some (alone shell)
  | _ => none

/-- Reads the program's arguments after those that raised the given flags. A flag may be
raised once before the command and once after it. -/
def read (raised : List Flag) : List Text → Except Rejection Invocation
  | [] => .error .missingSubcommand
  | first :: rest =>
    match reader? first, Spelling.of first with
    | some reader, _ => reader rest
    | none, .plain | none, .separator =>
      .error (rejectFirst (fun t ↦ (reader? t).isSome) first rest)
    | none, spelling => do
      let raised ← raiseFlags raised (programFlags.raisedBy spelling)
      read raised rest

def parse (arguments : List Text) : Except Rejection Invocation := read [] arguments

def versionLine : String := "mips-codec 0.1.0"

def run (shell : Shell) (input : List UInt8) : Invocation → Outcome
  | decode words headerless =>
    let rows := decodeOutput shell.instructions words
    ⟨0, if headerless then rows else Report.header :: rows⟩
  | encode mnemonic =>
    let result := shell.instructions.assemble (mnemonicText mnemonic)
    ⟨if result.isOk then 0 else 1, [Report.assembled result]⟩
  | list => ⟨0, Report.listing shell.instructions⟩
  | .shell => ⟨0, Session.run shell (Line.split input)⟩

def outcome (shell : Shell) (arguments : List Text) (input : List UInt8) : Outcome :=
  match parse arguments with
  | .ok invocation => invocation.run shell input
  | .error .version => ⟨0, [versionLine]⟩
  | .error _ => ⟨2, []⟩

end Invocation

end Mips32.Console
