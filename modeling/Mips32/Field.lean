import Mips32.Word.Range

namespace Mips32

inductive Field
  | opcode
  | rs
  | rt
  | rd
  | shamt
  | funct
  | immediate
  | target
  | code
deriving DecidableEq, Repr

namespace Field

def all : List Field := [opcode, rs, rt, rd, shamt, funct, immediate, target, code]

def name : Field → String
  | opcode => "op"
  | rs => "rs"
  | rt => "rt"
  | rd => "rd"
  | shamt => "shamt"
  | funct => "funct"
  | immediate => "immediate"
  | target => "target"
  | code => "code"

def ofName? (name : String) : Option Field := all.find? fun f ↦ f.name = name

theorem mem_all (f : Field) : f ∈ all := by cases f <;> decide

@[simp] theorem ofName?_name (f : Field) : ofName? f.name = some f := by cases f <;> rfl

end Field

abbrev Fields := Field → Option Word

namespace Fields

def empty : Fields := fun _ ↦ none

def set (fields : Fields) (field : Field) (value : Word) : Fields :=
  fun f ↦ if f = field then some value else fields f

@[simp] theorem set_self (fields : Fields) (f : Field) (v : Word) : fields.set f v f = some v :=
  if_pos rfl

theorem set_of_ne (fields : Fields) {f g : Field} (v : Word) (h : g ≠ f) :
    fields.set f v g = fields g :=
  if_neg h

/-- A field without a value counts as zero. -/
def value (fields : Fields) (field : Field) : Word := (fields field).getD 0#32

def entries (fields : Fields) : List (Field × Word) :=
  Field.all.filterMap fun f ↦ (fields f).map fun v ↦ (f, v)

def ofEntries (entries : List (Field × Word)) : Fields :=
  entries.foldl (fun fields e ↦ set fields e.1 e.2) empty

end Fields

end Mips32
