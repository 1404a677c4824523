import Mips32.Assembly
import Mips32.Disassembly
import Std.Data.HashMap

namespace Mips32

/-- What identifies the operation of a word: the opcode alone, or together with a second
field for the opcodes that several operations share. -/
inductive Key
  | special (funct : BitVec 8)
  | regimm (rt : BitVec 8)
  | special2 (funct : BitVec 8)
  | plain (opcode : BitVec 8)
deriving DecidableEq, Repr

def Key.value : Key → BitVec 8
  | special funct => funct
  | regimm rt => rt
  | special2 funct => funct
  | plain opcode => opcode

/-- The key of an operation, unless it lacks the discriminant that its opcode needs. -/
def Operation.key? (op : Operation) : Option Key :=
  if op.opcode = 0x00#8 then
    match op.discriminant with
    | some (.funct value) => some (.special value)
    | _ => none
  else if op.opcode = 0x01#8 then
    match op.discriminant with
    | some (.rt value) => some (.regimm value)
    | _ => none
  else if op.opcode = 0x1c#8 then
    match op.discriminant with
    | some (.funct value) => some (.special2 value)
    | _ => none
  else some (.plain op.opcode)

def Word.key (word : Word) : Key :=
  if word.opcode = 0x00#6 then .special (word.funct.setWidth 8)
  else if word.opcode = 0x01#6 then .regimm (word.rt.setWidth 8)
  else if word.opcode = 0x1c#6 then .special2 (word.funct.setWidth 8)
  else .plain (word.opcode.setWidth 8)

inductive ClashError
  | missingDiscriminant (name : Text)
  | sameEncoding (name existing : Text)
  | sameName (name : Text)
deriving DecidableEq, Repr

def ClashError.message : ClashError → String
  | .missingDiscriminant name =>
    s!"Instruction {String.ofList name} shares its opcode but has no discriminant"
  | .sameEncoding name existing =>
    s!"Instruction {String.ofList name} has the same encoding as {String.ofList existing}"
  | .sameName name => s!"Instruction {String.ofList name} is already registered"

instance : Hashable Text := ⟨fun t ↦ hash (String.ofList t)⟩

/-- Operations in the order in which they joined, with tables from names and keys to their
positions: one for each opcode that operations share, and one for the other opcodes. The
operation named `nop` owns the zero word and has no key. -/
structure InstructionSet where
  operations : Array Operation
  byName : Std.HashMap Text Nat
  special : Std.HashMap (BitVec 8) Nat
  regimm : Std.HashMap (BitVec 8) Nat
  special2 : Std.HashMap (BitVec 8) Nat
  plain : Std.HashMap (BitVec 8) Nat
  nop : Option Nat
  formats : Std.HashMap (BitVec 8) Format

namespace InstructionSet

def empty : InstructionSet := ⟨#[], ∅, ∅, ∅, ∅, ∅, none, ∅⟩

def nopName : Text := "nop".toList

def size (set : InstructionSet) : Nat := set.operations.size

def position? (set : InstructionSet) : Key → Option Nat
  | .special funct => set.special[funct]?
  | .regimm rt => set.regimm[rt]?
  | .special2 funct => set.special2[funct]?
  | .plain opcode => set.plain[opcode]?

def store (set : InstructionSet) (opcode value : BitVec 8) (position : Nat) : InstructionSet :=
  if opcode = 0x00#8 then { set with special := set.special.insert value position }
  else if opcode = 0x01#8 then { set with regimm := set.regimm.insert value position }
  else if opcode = 0x1c#8 then { set with special2 := set.special2.insert value position }
  else { set with plain := set.plain.insert value position }

/-- Records a new operation, except for its key. The first operation of an opcode decides
the format of that opcode. -/
def append (set : InstructionSet) (op : Operation) : InstructionSet :=
  { set with
    operations := set.operations.push op
    byName := set.byName.insert op.name set.size
    formats := set.formats.insertIfNew op.opcode op.format }

/-- Enters an operation whose name and key are both new. What a failure finds written stays
written. -/
def enter (op : Operation) : EStateM ClashError InstructionSet Unit := do
  let set ← get
  if set.byName.contains op.name then throw (.sameName op.name)
  if op.name = nopName then
    modify fun s ↦ { s with nop := some set.size }
  else
    match op.key? with
    | none => throw (.missingDiscriminant op.name)
    | some key =>
      match set.position? key with
      | some position =>
        throw (.sameEncoding op.name ((set.operations[position]?.map Operation.name).getD []))
      | none => modify fun s ↦ s.store op.opcode key.value set.size
  modify fun s ↦ s.append op

def add (set : InstructionSet) (op : Operation) : Except ClashError InstructionSet :=
  match (enter op).run set with
  | .ok _ larger => .ok larger
  | .error e _ => .error e

def attempt (set : InstructionSet) (op : Operation) : InstructionSet :=
  match (enter op).run set with
  | .ok _ larger => larger
  | .error _ left => left

def ofList (ops : List Operation) : InstructionSet := ops.foldl attempt empty

def named? (set : InstructionSet) (name : Text) : Option Operation :=
  set.byName[name]?.bind fun position ↦ set.operations[position]?

/-- The operation of a word. Only `nop` owns the zero word. -/
def find? (set : InstructionSet) (word : Word) : Option Operation :=
  if word = 0#32 then set.nop.bind fun position ↦ set.operations[position]?
  else (set.position? word.key).bind fun position ↦ set.operations[position]?

def formatOf? (set : InstructionSet) (opcode : BitVec 8) : Option Format := set.formats[opcode]?

def disassemble (set : InstructionSet) (word : Word) : Disassembly :=
  match set.find? word with
  | some op => op.disassemble word
  | none => .unrecognized word (set.formatOf? (word.opcode.setWidth 8))

/-- Assembles a text by the operation that it names. An unknown name is reported only for a
text of legal characters. -/
def assemble (set : InstructionSet) (text : Text) : Except AssemblyError Instruction :=
  let normal := Mnemonic.normalize text
  if normal.isEmpty then .error (.malformed text .empty)
  else match set.named? (Mnemonic.name normal) with
    | some op => op.assemble text
    | none =>
      match Mnemonic.checkCharacters text with
      | .error e => .error (.malformed text e)
      | .ok () => .error (.unknownInstruction (Mnemonic.name normal))

end InstructionSet

end Mips32
