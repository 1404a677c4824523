import Mips32.Word.Range

namespace Mips32

/-- What a prefetch expects to happen to the data. -/
inductive Hint
  | load
  | store
  | loadStreamed
  | storeStreamed
  | loadRetained
  | storeRetained
deriving DecidableEq, Repr

namespace Hint

def all : List Hint := [load, store, loadStreamed, storeStreamed, loadRetained, storeRetained]

def value : Hint → Word
  | load => 0#32
  | store => 1#32
  | loadStreamed => 3#32
  | storeStreamed => 5#32
  | loadRetained => 6#32
  | storeRetained => 7#32

def ofValue? (value : Word) : Option Hint := all.find? fun h ↦ h.value = value

@[simp] theorem ofValue?_value (h : Hint) : ofValue? h.value = some h := by cases h <;> rfl

def name : Hint → String
  | load => "load"
  | store => "store"
  | loadStreamed => "load_streamed"
  | storeStreamed => "store_streamed"
  | loadRetained => "load_retained"
  | storeRetained => "store_retained"

def description : Hint → String
  | load => "Data is expected to be loaded, not modified"
  | store => "Data is expected to be stored or modified"
  | loadStreamed => "Data is expected to be loaded but not reused extensively"
  | storeStreamed => "Data is expected to be stored but not reused extensively"
  | loadRetained => "Data is expected to be loaded and reused extensively"
  | storeRetained => "Data is expected to be stored and reused extensively"

end Hint

end Mips32
