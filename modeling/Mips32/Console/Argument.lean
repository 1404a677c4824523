import Mips32.Text.Basic

namespace Mips32.Console

/-- Why arguments do not make up a command. A request for the version ends the reading of
the arguments too. -/
inductive Rejection
  | missingSubcommand
  | invalidSubcommand
  | unknownArgument
  | missingArgument
  | invalidValue
  | repeatedFlag
  | version
deriving DecidableEq, Repr

inductive Flag
  | verbose
  | headerless
  | version
deriving DecidableEq, Repr

inductive Spelling
  | separator
  | long (name : Text) (hasValue : Bool)
  | short (letters : Text)
  | plain
deriving DecidableEq, Repr

def Spelling.of : Text → Spelling
  | ['-', '-'] => .separator
  | '-' :: '-' :: rest => .long (rest.takeWhile (· ≠ '=')) (rest.contains '=')
  | '-' :: letter :: letters => .short (letter :: letters)
  | _ => .plain

structure FlagNames where
  long : List (Text × Flag)
  short : List (Char × Flag)

namespace FlagNames

def none : FlagNames := ⟨[], []⟩

def raisedBy (names : FlagNames) : Spelling → List (Option Flag)
  | .long name hasValue => [if hasValue then Option.none else names.long.lookup name]
  | .short letters => letters.map fun c ↦ names.short.lookup c
  | _ => []

def knows (names : FlagNames) : Spelling → Bool
  | .long name _ => (names.long.lookup name).isSome
  | .short letters => letters.all fun c ↦ (names.short.lookup c).isSome
  | _ => false

end FlagNames

def raiseFlags (raised : List Flag) : List (Option Flag) → Except Rejection (List Flag)
  | [] => .ok raised
  | none :: _ => .error .unknownArgument
  | some .version :: _ => .error .version
  | some flag :: rest =>
    if flag ∈ raised then .error .repeatedFlag else raiseFlags (flag :: raised) rest

/-- Flags and values in any order. All that follows `--` is a value. -/
def readMixed (names : FlagNames) (raised : List Flag) :
    List Text → Except Rejection (List Flag × List Text)
  | [] => .ok (raised, [])
  | argument :: rest =>
    match Spelling.of argument with
    | .separator => .ok (raised, rest)
    | .plain => (readMixed names raised rest).map fun p ↦ (p.1, argument :: p.2)
    | spelling => do
      let raised ← raiseFlags raised (names.raisedBy spelling)
      readMixed names raised rest

/-- Known flags, then values. All that follows `--` or the first value is a value, and so is
an option that is not known. -/
def readLeading (names : FlagNames) (raised : List Flag) :
    List Text → Except Rejection (List Flag × List Text)
  | [] => .ok (raised, [])
  | argument :: rest =>
    match Spelling.of argument with
    | .separator => .ok (raised, rest)
    | spelling =>
      if names.knows spelling then do
        let raised ← raiseFlags raised (names.raisedBy spelling)
        readLeading names raised rest
      else .ok (raised, argument :: rest)

end Mips32.Console
