import Mips32.Field
import Mips32.Text.Numeral

namespace Mips32

inductive Format
  | r
  | i
  | j
  | exit
deriving DecidableEq, Repr

namespace Format

def all : List Format := [r, i, j, exit]

def name : Format → String
  | r => "R"
  | i => "I"
  | j => "J"
  | exit => "EXIT"

def ofName? (name : String) : Option Format := all.find? fun f ↦ f.name = name

@[simp] theorem ofName?_name (f : Format) : ofName? f.name = some f := by cases f <;> rfl

/-- The fields and their widths, most significant field first. -/
def layout : Format → List (Field × Nat)
  | r => [(.opcode, 6), (.rs, 5), (.rt, 5), (.rd, 5), (.shamt, 5), (.funct, 6)]
  | i => [(.opcode, 6), (.rs, 5), (.rt, 5), (.immediate, 16)]
  | j => [(.opcode, 6), (.target, 26)]
  | exit => [(.code, 32)]

theorem total_width (f : Format) : f.layout.foldr (fun e n ↦ e.2 + n) 0 = 32 := by
  cases f <;> rfl

def has (format : Format) (field : Field) : Bool := format.layout.any fun e ↦ e.1 = field

def slotsBelow (top : Nat) : List (Field × Nat) → List (Field × BitRange)
  | [] => []
  | (field, width) :: rest => (field, ⟨top - width, width⟩) :: slotsBelow (top - width) rest

def slots (format : Format) : List (Field × BitRange) := slotsBelow 32 format.layout

theorem width_pos (f : Format) : ∀ s ∈ f.slots, 0 < s.2.width := by cases f <;> decide

theorem low_add_width_le (f : Format) : ∀ s ∈ f.slots, s.2.low + s.2.width ≤ 32 := by
  cases f <;> decide

/-- The word that holds the given values. A value wider than its field is cut, and a field
the format lacks is ignored. -/
def pack (format : Format) (fields : Fields) : Word :=
  format.slots.foldl (fun word s ↦ word ||| s.2.write (fields.value s.1)) 0#32

def unpack (format : Format) (word : Word) : Fields :=
  fun field ↦ (format.slots.lookup field).map fun r ↦ r.read word

def decompose (format : Format) (word : Word) : List Word :=
  format.slots.map fun s ↦ s.2.read word

end Format

namespace Decomposition

def bracketed (parts : List Text) : Text := '[' :: (List.intercalate [' '] parts ++ [']'])

def decimal (values : List Word) : Text :=
  bracketed (values.map fun v ↦ Text.decimal v.toNat)

def hexadecimal (values : List Word) : Text :=
  bracketed (values.map fun v ↦
    if 9 < v.toNat then Text.hexadecimal v.toNat else Text.decimal v.toNat)

end Decomposition

end Mips32
