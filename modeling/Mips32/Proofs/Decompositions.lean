import Mips32.Proofs.Layouts
import Mips32.Proofs.Literals

namespace Mips32

namespace Decomposition

def parts? : Text → Option (List Text)
  | '[' :: rest =>
    if rest.getLast? = some ']' then some (rest.dropLast.splitOn ' ') else none
  | _ => none

theorem parts?_bracketed {parts : List Text} (hne : parts ≠ []) (h : ∀ p ∈ parts, ' ' ∉ p) :
    parts? (bracketed parts) = some parts := by
  rw [bracketed, parts?, List.getLast?_concat, if_pos rfl, List.dropLast_concat,
    List.splitOn_intercalate ' ' h hne]

/-- Values are printed in letters and digits, and each is read back. -/
structure Readable (part : Word → Text) : Prop where
  parse (v : Word) : Literal.parse (part v) = .ok v
  alphanum (v : Word) : ∀ c ∈ part v, c.isAlphanum

theorem readable_decimal : Readable fun v ↦ Text.decimal v.toNat where
  parse v := by rw [Literal.parse_decimal, BitVec.ofNat_toNat, BitVec.setWidth_eq]
  alphanum _ _ hc := Text.isAlphanum_of_isDigit (Literal.isDigit_of_mem_decimal hc)

theorem readable_hexadecimal : Readable fun v ↦
    if 9 < v.toNat then Text.hexadecimal v.toNat else Text.decimal v.toNat where
  parse v := by
    split
    · rw [Literal.parse_hexadecimal, BitVec.ofNat_toNat, BitVec.setWidth_eq]
    · exact readable_decimal.parse v
  alphanum v := by
    split
    · exact Literal.isAlphanum_of_mem_hexadecimal v.toNat
    · exact readable_decimal.alphanum v

theorem Readable.parts?_bracketed {part : Word → Text} (h : Readable part) {values : List Word}
    (hne : values ≠ []) : parts? (bracketed (values.map part)) = some (values.map part) := by
  refine Decomposition.parts?_bracketed (by simpa using hne) ?_
  rw [List.forall_mem_map]
  intro v _ hspace
  exact absurd (h.alphanum v ' ' hspace) (by decide)

theorem Readable.map_parse {part : Word → Text} (h : Readable part) (values : List Word) :
    (values.map part).map Literal.parse = values.map .ok := by
  rw [List.map_map]
  exact List.map_congr_left fun v _ ↦ h.parse v

end Decomposition

namespace Format

open Decomposition

variable (format : Format)

theorem length_decompose (w : Word) : (format.decompose w).length = format.layout.length := by
  simpa using congrArg List.length (format.map_some_decompose w)

theorem decompose_ne_nil (w : Word) : format.decompose w ≠ [] := by
  cases format <;> exact List.cons_ne_nil _ _

theorem ofEntries_decompose (w : Word) :
    Fields.ofEntries ((format.layout.map Prod.fst).zip (format.decompose w)) = format.unpack w := by
  funext f
  cases format <;> cases f <;> rfl

theorem exists_parts_of_readable {part : Word → Text} (h : Readable part) (w : Word) :
    ∃ parts, parts? (bracketed ((format.decompose w).map part)) = some parts ∧
      parts.length = format.layout.length ∧
      parts.map Literal.parse = (format.decompose w).map .ok :=
  ⟨_, h.parts?_bracketed (format.decompose_ne_nil w),
    by rw [List.length_map, format.length_decompose], h.map_parse _⟩

/-- Each of the two printed decompositions of a word has one part for each field of the layout. The
parts are read as the values of the fields, and these packed again are the word. -/
theorem decompose_reads_back (format : Format) (w : Word) :
    (∃ parts, parts? (decimal (format.decompose w)) = some parts ∧
      parts.length = format.layout.length ∧
      parts.map Literal.parse = (format.decompose w).map .ok) ∧
    (∃ parts, parts? (hexadecimal (format.decompose w)) = some parts ∧
      parts.length = format.layout.length ∧
      parts.map Literal.parse = (format.decompose w).map .ok) ∧
    format.pack (.ofEntries ((format.layout.map Prod.fst).zip (format.decompose w))) = w := by
  refine ⟨format.exists_parts_of_readable readable_decimal w,
    format.exists_parts_of_readable readable_hexadecimal w, ?_⟩
  rw [ofEntries_decompose, pack_unpack]

example : (parts? "[0x1c 8 1 9 0 2]".toList).map (List.map Literal.parse) =
    some ((r.decompose 0x71014802#32).map .ok) := rfl

end Format

end Mips32
