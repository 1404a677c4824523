import Mathlib.Algebra.Group.Int.Defs
import Mips32.Proofs.Fields

namespace Mips32

theorem BitRange.toNat_read {r : BitRange} (h : r.width ≤ 32) (w : Word) :
    (r.read w).toNat = w.toNat / 2 ^ r.low % 2 ^ r.width := by
  rw [read, Word.toNat_and_ones h, BitVec.toNat_ushiftRight, Nat.shiftRight_eq_div_pow]

theorem lowMask_of_le {width : Nat} (h : width ≤ 32) : lowMask width = .ok (Word.ones width) :=
  if_neg (by omega)

theorem place_of_le {r : BitRange} (h : r.low + r.width ≤ 32) (value : Word) :
    place value r.width r.low = .ok (r.write value) := by
  rw [place, BitRange.startingAt, if_neg (by omega)]
  rfl

theorem extract_between {high low : Nat} (hl : low ≤ high) (hh : high ≤ 31) (word : BitVec 64) :
    extract word high low = .ok (BitRange.read ⟨low, high - low + 1⟩ (word.setWidth 32)) := by
  rw [extract, BitRange.between_eq_ok_iff.2 ⟨hl, hh, rfl⟩]
  rfl

theorem extract_of_le {r : BitRange} (hpos : 0 < r.width) (h : r.low + r.width ≤ 32)
    (word : BitVec 64) :
    extract word (r.low + r.width - 1) r.low = .ok (r.read (word.setWidth 32)) := by
  rw [extract_between (by omega) (by omega),
    show r.low + r.width - 1 - r.low + 1 = r.width by omega]

namespace Format

inductive LayoutError
  | exhausted (width left : Nat)
  | range (error : RangeError)

variable {α : Type}

/-- Visits the fields of a layout from bit `top` downwards, each with its width and its lowest
bit. Stops where a field has more bits than are left and where a visit fails. -/
def walk (visit : α → Field → Nat → Nat → Except RangeError α) (top : Nat) (state : α) :
    List (Field × Nat) → Except LayoutError α
  | [] => .ok state
  | (field, width) :: rest =>
    if top < width then .error (.exhausted width top)
    else match visit state field width (top - width) with
      | .error e => .error (.range e)
      | .ok next => walk visit (top - width) next rest

/-- A walk visits the slots in order if there is room for the fields and no visit fails. -/
theorem walk_eq_foldl {visit : α → Field → Nat → Nat → Except RangeError α}
    {step : α → Field × BitRange → α} {layout : List (Field × Nat)} {top : Nat}
    (hroom : layout.foldr (fun e n ↦ e.2 + n) 0 ≤ top)
    (hvisit : ∀ s ∈ slotsBelow top layout, ∀ state,
      visit state s.1 s.2.width s.2.low = .ok (step state s)) (state : α) :
    walk visit top state layout = .ok ((slotsBelow top layout).foldl step state) := by
  induction layout generalizing top state with
  | nil => rfl
  | cons entry layout ih =>
    obtain ⟨field, width⟩ := entry
    rw [List.foldr_cons] at hroom
    rw [slotsBelow, List.forall_mem_cons] at hvisit
    dsimp only at hroom
    rw [walk, if_neg (by omega), hvisit.1]
    exact ih (by omega) hvisit.2 _

def packChecked (format : Format) (fields : Fields) : Except LayoutError Word :=
  walk (fun word field width shift ↦ (place (fields.value field) width shift).map (word ||| ·))
    32 0#32 format.layout

def unpackChecked (format : Format) (w : Word) : Except LayoutError Fields :=
  walk (fun fields field width shift ↦
    (extract (w.setWidth 64) (shift + width - 1) shift).map (fields.set field))
    32 Fields.empty format.layout

def decomposeChecked (format : Format) (w : Word) : Except LayoutError (List Word) :=
  walk (fun values _ width shift ↦
    (extract (w.setWidth 64) (shift + width - 1) shift).map (values ++ [·])) 32 [] format.layout

variable (format : Format)

theorem walk_layout {visit : α → Field → Nat → Nat → Except RangeError α}
    {step : α → Field × BitRange → α}
    (hvisit : ∀ s ∈ format.slots, ∀ state,
      visit state s.1 s.2.width s.2.low = .ok (step state s)) (state : α) :
    walk visit 32 state format.layout = .ok (format.slots.foldl step state) :=
  walk_eq_foldl (Nat.le_of_eq format.total_width) hvisit state

theorem extract_slot {s : Field × BitRange} (hs : s ∈ format.slots) (w : Word) :
    extract (w.setWidth 64) (s.2.low + s.2.width - 1) s.2.low = .ok (s.2.read w) := by
  rw [extract_of_le (format.width_pos s hs) (format.low_add_width_le s hs),
    BitVec.setWidth_setWidth_of_le w (by omega), BitVec.setWidth_eq]

theorem packChecked_eq (fields : Fields) :
    format.packChecked fields = .ok (format.pack fields) := by
  refine format.walk_layout (fun s hs word ↦ ?_) 0#32
  rw [place_of_le (format.low_add_width_le s hs)]
  rfl

theorem unpackChecked_eq (w : Word) : format.unpackChecked w = .ok (format.unpack w) := by
  have hfields : format.slots.foldl (fun fields s ↦ fields.set s.1 (s.2.read w)) Fields.empty =
      format.unpack w := by
    funext f
    cases format <;> cases f <;> rfl
  rw [← hfields]
  refine format.walk_layout (fun s hs fields ↦ ?_) Fields.empty
  rw [format.extract_slot hs]
  rfl

theorem decomposeChecked_eq (w : Word) :
    format.decomposeChecked w = .ok (format.decompose w) := by
  have hvalues : format.slots.foldl (fun values s ↦ values ++ [s.2.read w]) [] =
      format.decompose w := by
    rw [List.foldl_append_eq_append, List.nil_append]
    exact List.map_eq_flatMap.symm
  rw [← hvalues]
  refine format.walk_layout (fun s hs values ↦ ?_) []
  rw [format.extract_slot hs]
  rfl

/-- The map gives a value to every field of the format and to no other, and each value fits. -/
structure Fills (fields : Fields) : Prop where
  assigned (f : Field) : (fields f).isSome ↔ format.has f
  bounded {f : Field} {width : Nat} {v : Word} (hmem : (f, width) ∈ format.layout)
    (hv : fields f = some v) : v.toNat < 2 ^ width

theorem has_iff {f : Field} : format.has f ↔ ∃ width, (f, width) ∈ format.layout := by
  simp [has]

theorem unpack_pack (fields : Fields) (f : Field) :
    format.unpack (format.pack fields) f =
      if format.has f then some (f.cut (fields.value f)) else none := by
  rw [unpack_eq]
  by_cases hf : format.has f
  · rw [if_pos hf, if_pos hf, part_pack hf]
  · rw [if_neg hf, if_neg hf]

theorem pack_unpack (w : Word) : format.pack (format.unpack w) = w := by
  apply word_ext
  intro f hf
  rw [part_pack hf, Fields.value, unpack_eq, if_pos hf, Option.getD_some, Field.cut_part]

theorem unpack_pack_eq_iff (fields : Fields) :
    format.unpack (format.pack fields) = fields ↔ format.Fills fields := by
  constructor
  · intro h
    have heq (f : Field) := (format.unpack_pack fields f).symm.trans (congrFun h f)
    constructor
    · intro f
      rw [← heq f]
      split <;> simp_all
    · intro f width v hmem hv
      obtain ⟨hf, rfl⟩ := has_of_mem_layout hmem
      have hcut := heq f
      rw [if_pos hf, hv, Option.some.injEq] at hcut
      rw [← hcut, Field.toNat_cut]
      exact Nat.mod_lt _ (Nat.two_pow_pos _)
  · intro h
    funext f
    rw [unpack_pack]
    by_cases hf : format.has f
    · obtain ⟨v, hv⟩ := Option.isSome_iff_exists.1 ((h.assigned f).2 hf)
      obtain ⟨width, hmem⟩ := format.has_iff.1 hf
      have hlt := h.bounded hmem hv
      obtain ⟨-, rfl⟩ := has_of_mem_layout hmem
      rw [if_pos hf, Fields.value, hv, Option.getD_some, Field.cut_of_lt hlt]
    · have hnone : fields f = none := by
        rw [← Option.not_isSome_iff_eq_none, h.assigned]
        exact hf
      rw [if_neg hf, hnone]

theorem width_bounds_of_mem_layout {f : Field} {width : Nat} (h : (f, width) ∈ format.layout) :
    0 < width ∧ width ≤ 32 := by
  obtain ⟨hf, rfl⟩ := has_of_mem_layout h
  have hslot : (f, f.range) ∈ format.slots := mem_slots_iff.2 ⟨hf, rfl⟩
  exact ⟨format.width_pos _ hslot, f.width_le⟩

/-- Packing and unpacking are inverse to each other. Unpacking gives the fields of the format and
no others. What is packed comes back modulo the width of its field, whatever else is given, and a
map comes back as it was exactly if it fills the format. No check on the way fails: there are bits
left for every field, and every range of bits lies within the word. -/
theorem pack_inverse_unpack (format : Format) :
    (∀ w, format.pack (format.unpack w) = w) ∧
    (∀ w f, (format.unpack w f).isSome ↔ ∃ width, (f, width) ∈ format.layout) ∧
    (∀ fields f width, (f, width) ∈ format.layout → ∃ v,
      format.unpack (format.pack fields) f = some v ∧
        v.toNat = (fields.value f).toNat % 2 ^ width) ∧
    (∀ fields, format.unpack (format.pack fields) = fields ↔ format.Fills fields) ∧
    (∀ fields, format.packChecked fields = .ok (format.pack fields)) ∧
    (∀ w, format.unpackChecked w = .ok (format.unpack w) ∧
      format.decomposeChecked w = .ok (format.decompose w)) ∧
    ∀ f width, (f, width) ∈ format.layout → 0 < width ∧ lowMask width = .ok (Word.ones width) := by
  refine ⟨format.pack_unpack, fun w f ↦ ?_, fun fields f width hmem ↦ ?_,
    format.unpack_pack_eq_iff, format.packChecked_eq,
    fun w ↦ ⟨format.unpackChecked_eq w, format.decomposeChecked_eq w⟩, fun f width hmem ↦ ?_⟩
  · rw [unpack_eq, ← has_iff]
    split <;> simp_all
  · obtain ⟨hf, rfl⟩ := has_of_mem_layout hmem
    exact ⟨_, (format.unpack_pack fields f).trans (if_pos hf), f.toNat_cut _⟩
  · obtain ⟨hpos, hle⟩ := format.width_bounds_of_mem_layout hmem
    exact ⟨hpos, lowMask_of_le hle⟩

theorem map_some_decompose (w : Word) :
    (format.decompose w).map some = format.layout.map fun e ↦ format.unpack w e.1 := by
  cases format <;> rfl

end Format

namespace Word

theorem toNat_part (w : Word) (f : Field) :
    (w.part f).toNat = w.toNat / 2 ^ f.range.low % 2 ^ f.range.width := by
  rw [← f.read_range, BitRange.toNat_read f.width_le]

theorem signedImmediate_eq (w : Word) :
    w.signedImmediate = if w.immediate.toNat < 2 ^ 15 then (w.immediate.toNat : Int)
      else w.immediate.toNat - 2 ^ 16 := by
  rw [signedImmediate, BitVec.toInt_eq_toNat_cond]
  by_cases h : w.immediate.toNat < 2 ^ 15
  · rw [if_pos h, if_pos (by omega)]
  · rw [if_neg h, if_neg (by omega)]
    rfl

theorem immediate_signedImmediate (w : Word) :
    immediate (BitVec.ofInt 32 w.signedImmediate) = w.immediate := by
  rw [immediate, ← BitVec.setWidth_eq_extractLsb' (by omega)]
  exact setWidth_signExtend w.immediate

/-- In every format that has it, a field is what the views of the word read, the bits of its range.
The cache hint is `rt`, and the signed immediate is the immediate in two's complement, which keeps
its low bits. Taking a word apart gives the fields in the order of the layout. -/
theorem unpack_eq_views (w : Word) :
    (∀ (format : Format) f, format.unpack w f = if format.has f then some (w.part f) else none) ∧
    (∀ f, (w.part f).toNat = w.toNat / 2 ^ f.range.low % 2 ^ f.range.width) ∧
    w.hintBits = w.rt ∧
    (w.signedImmediate = if w.immediate.toNat < 2 ^ 15 then (w.immediate.toNat : Int)
      else w.immediate.toNat - 2 ^ 16) ∧
    immediate (BitVec.ofInt 32 w.signedImmediate) = w.immediate ∧
    (-32768 ≤ w.signedImmediate ∧ w.signedImmediate ≤ 32767) ∧
    ∀ format : Format,
      (format.decompose w).map some = format.layout.map fun e ↦ format.unpack w e.1 := by
  have hsigned := w.signedImmediate_eq
  have hlt := w.immediate.isLt
  refine ⟨fun format ↦ format.unpack_eq w, w.toNat_part, rfl, hsigned, w.immediate_signedImmediate,
    ?_, fun format ↦ format.map_some_decompose w⟩
  split at hsigned <;> omega

end Word

end Mips32
