import Mips32.Text.Basic

namespace Mips32.Mnemonic

/-- Single spaces between words, a single space after each comma, nothing at either end. -/
def normalize (text : Text) : Text :=
  Text.trim <| List.intercalate [',', ' '] <|
    (text.splitOn ',').map fun group ↦ List.intercalate [' '] (Text.words group)

def name (text : Text) : Text := (Text.trimStart text).takeWhile Char.isAlphanum

def afterName (text : Text) : Text := (Text.trimStart text).dropWhile Char.isAlphanum

/-- Appends each word that opens with a parenthesis to the word before it, if there is one. -/
def attach : List Text → List Text
  | [] => []
  | word :: rest =>
    match attach rest with
    | ('(' :: base) :: others => (word ++ '(' :: base) :: others
    | others => word :: others

/-- The arguments: the words of each comma group, where a parenthesis belongs to the word
before it, so that `4 ($sp)` is one argument. -/
def arguments (text : Text) : List Text :=
  ((afterName text).splitOn ',').flatMap fun group ↦ attach (Text.words group)

def tokens (text : Text) : List Text :=
  if (name text).isEmpty then arguments text else name text :: arguments text

def join : List Text → Text
  | [] => []
  | [name] => name
  | name :: arguments => name ++ ' ' :: List.intercalate [',', ' '] arguments

def countCommas (text : Text) : Nat := text.count ','

def countArguments (text : Text) : Nat := (tokens text).length - 1

end Mips32.Mnemonic
