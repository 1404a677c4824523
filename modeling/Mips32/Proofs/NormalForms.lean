import Mips32.Proofs.Spacing

namespace Mips32.Mnemonic

open Text

/-- Spaces and commas follow each other as in a normal form. -/
structure Regular (s : Text) : Prop where
  single : ¬[' ', ' '] <:+: s
  after_comma {c : Char} (h : [',', c] <:+: s) : c = ' '
  before_comma {c : Char} (h : [c, ' ', ','] <:+: s) : c = ','

/-- The blanks of a normal form are single plain spaces, none of them at either end. One follows
each comma but a comma that ends the text, and one stands before a comma only if it comes right
after another comma. -/
structure IsNormal (s : Text) : Prop extends Regular s where
  spaced : Spaced s
  leading : ∀ c ∈ s.head?, isBlank c = false
  trailing : ∀ c ∈ s.getLast?, isBlank c = false

variable {g : List Text} {gs : List (List Text)} {s t : Text}

theorem group_ne_nil (hg : ∀ w ∈ g, IsToken w) (hne : g ≠ []) :
    List.intercalate [' '] g ≠ [] := by
  intro h
  have hwords := words_group hg
  rw [h, words_nil] at hwords
  exact hne hwords.symm

theorem isSolid_of_mem_head?_group (hg : ∀ w ∈ g, IsToken w) :
    ∀ c ∈ (List.intercalate [' '] g).head?, isSolid c := by
  intro c hc
  cases g with
  | nil => simp at hc
  | cons w g =>
    rw [List.forall_mem_cons] at hg
    have hhead : (List.intercalate [' '] (w :: g)).head? = w.head? := by
      cases g with
      | nil => simp
      | cons u g => simp [List.intercalate_cons_cons, List.head?_append_of_ne_nil w hg.1.1]
    rw [hhead] at hc
    exact hg.1.2 c (List.mem_of_mem_head? hc)

theorem isSolid_of_mem_getLast?_group (hg : ∀ w ∈ g, IsToken w) :
    ∀ c ∈ (List.intercalate [' '] g).getLast?, isSolid c := by
  induction g with
  | nil => simp
  | cons w g ih =>
    rw [List.forall_mem_cons] at hg
    cases g with
    | nil =>
      intro c hc
      rw [List.intercalate_singleton] at hc
      exact hg.1.2 c (List.mem_of_getLast? hc)
    | cons u g =>
      rw [List.intercalate_cons_cons,
        List.getLast?_append_of_ne_nil _ (group_ne_nil hg.2 (by simp))]
      exact ih hg.2

theorem isBlank_of_mem_head?_unsplit (h : ∀ g ∈ gs, ∀ w ∈ g, IsToken w) :
    ∀ c ∈ (unsplit gs).head?, isBlank c = false := by
  cases gs with
  | nil => simp [unsplit]
  | cons g gs =>
    rw [List.forall_mem_cons] at h
    intro c hc
    by_cases hgs : gs = []
    · rw [hgs, unsplit, List.map_singleton, List.intercalate_singleton] at hc
      exact isBlank_of_isSolid (isSolid_of_mem_head?_group h.1 c hc)
    · rw [unsplit_cons g hgs, List.head?_append, Option.mem_def, Option.or_eq_some_iff] at hc
      rcases hc with hc | ⟨-, hc⟩
      · exact isBlank_of_isSolid (isSolid_of_mem_head?_group h.1 c hc)
      · rw [← Option.some.inj hc]
        exact isBlank_comma

theorem normalize_eq_trimEnd (t : Text) : normalize t = trimEnd (unsplit (groups t)) := by
  have hhead := isBlank_of_mem_head?_unsplit fun g hg w ↦ isToken_of_mem_group (t := t) hg (w := w)
  rw [normalize_eq, trim, trimStart_of_head hhead]

theorem isBlank_of_mem_head?_normalize (t : Text) :
    ∀ c ∈ (normalize t).head?, isBlank c = false := by
  rw [normalize_eq]
  exact isBlank_of_mem_head?_trim _

theorem isBlank_of_mem_getLast?_normalize (t : Text) :
    ∀ c ∈ (normalize t).getLast?, isBlank c = false := by
  rw [normalize_eq]
  exact isBlank_of_mem_getLast?_trim _

theorem normalize_of_not_mem {a : Text} (ha : ',' ∉ a) :
    normalize a = List.intercalate [' '] (words a) := by
  have hg : ∀ w ∈ words a, IsToken w := fun w ↦ isToken_of_mem_words ha
  rw [normalize_eq, groups_of_not_mem ha, unsplit, List.map_singleton, List.intercalate_singleton]
  exact trim_of_ends (fun c hc ↦ isBlank_of_isSolid (isSolid_of_mem_head?_group hg c hc))
    fun c hc ↦ isBlank_of_isSolid (isSolid_of_mem_getLast?_group hg c hc)

/-- The first comma group is normalized on its own, and so is the rest. The space between them is
trimmed away if nothing follows it. -/
theorem normalize_append_comma {a : Text} (ha : ',' ∉ a) (t : Text) :
    normalize (a ++ ',' :: t) = List.intercalate [' '] (words a) ++
      ',' :: if normalize t = [] then [] else ' ' :: normalize t := by
  obtain ⟨b, hb, hrest⟩ := exists_eq_trimEnd_append (unsplit (groups t))
  rw [← normalize_eq_trimEnd] at hrest
  rw [normalize_eq_trimEnd, groups_append_comma ha, unsplit_cons _ (by simp [groups]), hrest]
  by_cases ht : normalize t = []
  · have hblank : ∀ c ∈ ' ' :: b, isBlank c := List.forall_mem_cons.2 ⟨isBlank_space, hb⟩
    rw [if_pos ht, ht, List.nil_append, List.append_cons]
    exact trimEnd_append_of_blank (by simp [isBlank_comma]) hblank
  · rw [if_neg ht, ← List.cons_append, ← List.cons_append, ← List.append_assoc]
    refine trimEnd_append_of_blank ?_ hb
    rw [List.append_cons, List.append_cons, List.getLast?_append_of_ne_nil _ ht]
    exact isBlank_of_mem_getLast?_normalize t

theorem head?_of_isPrefix {c : Char} {u : Text} (h : c :: u <+: s) : s.head? = some c := by
  obtain ⟨v, rfl⟩ := h
  rfl

namespace Regular

theorem nil : Regular [] := ⟨by simp, by simp, by simp⟩

theorem cons (hs : Regular s) {c : Char} (hsingle : c = ' ' → s.head? ≠ some ' ')
    (hafter : c = ',' → ∀ d ∈ s.head?, d = ' ') (hbefore : [' ', ','] <+: s → c = ',') :
    Regular (c :: s) where
  single h := by
    rw [List.infix_cons_iff, List.cons_prefix_cons] at h
    rcases h with ⟨hc, hd⟩ | h
    · exact hsingle hc.symm (head?_of_isPrefix hd)
    · exact hs.single h
  after_comma h := by
    rw [List.infix_cons_iff, List.cons_prefix_cons] at h
    rcases h with ⟨hc, hd⟩ | h
    · exact hafter hc.symm _ (head?_of_isPrefix hd)
    · exact hs.after_comma h
  before_comma h := by
    rw [List.infix_cons_iff, List.cons_prefix_cons] at h
    rcases h with ⟨rfl, h⟩ | h
    · exact hbefore h
    · exact hs.before_comma h

theorem comma_cons (hs : Regular s) (hhead : ∀ c ∈ s.head?, c = ' ') : Regular (',' :: s) :=
  hs.cons (by simp) (fun _ ↦ hhead) fun _ ↦ rfl

theorem space_cons (hs : Regular s) (hhead : ∀ c ∈ s.head?, isBlank c = false) :
    Regular (' ' :: s) := by
  have hne : s.head? ≠ some ' ' := by
    intro h
    have hblank := hhead ' ' h
    contradiction
  refine hs.cons (fun _ ↦ hne) (by simp) fun h ↦ ?_
  exact absurd (head?_of_isPrefix h) hne

theorem solid_append (hs : Regular s) {w : Text} (hw : ∀ c ∈ w, isSolid c)
    (hstart : ¬[' ', ','] <+: s) : Regular (w ++ s) := by
  induction w with
  | nil => exact hs
  | cons c w ih =>
    rw [List.forall_mem_cons] at hw
    refine (ih hw.2).cons ?_ ?_ fun h ↦ ?_
    · rintro rfl
      exact absurd hw.1 (by decide)
    · rintro rfl
      exact absurd hw.1 (by decide)
    · cases w with
      | nil => exact absurd h hstart
      | cons d w =>
        rw [List.cons_append, List.cons_prefix_cons] at h
        have hd := hw.2 d List.mem_cons_self
        rw [← h.1] at hd
        contradiction

theorem group_append (hs : Regular s) (hhead : ∀ c ∈ s.head?, c = ',')
    (hg : ∀ w ∈ g, IsToken w) : Regular (List.intercalate [' '] g ++ s) := by
  induction g with
  | nil => exact hs
  | cons w g ih =>
    rw [List.forall_mem_cons] at hg
    cases g with
    | nil =>
      rw [List.intercalate_singleton]
      refine hs.solid_append hg.1.2 fun h ↦ ?_
      have hspace := hhead ' ' (head?_of_isPrefix h)
      contradiction
    | cons u g =>
      have hsolid : ∀ c ∈ (List.intercalate [' '] (u :: g) ++ s).head?, isSolid c := by
        rw [List.head?_append_of_ne_nil _ (group_ne_nil hg.2 (by simp))]
        exact isSolid_of_mem_head?_group hg.2
      have hrest := (ih hg.2).space_cons fun c hc ↦ isBlank_of_isSolid (hsolid c hc)
      rw [List.intercalate_cons_cons, List.append_assoc, List.append_assoc]
      refine hrest.solid_append hg.1.2 fun h ↦ ?_
      rw [List.cons_prefix_cons] at h
      exact absurd (hsolid ',' (head?_of_isPrefix h.2)) (by decide)

theorem of_isInfix (hs : Regular s) (h : t <:+: s) : Regular t :=
  ⟨fun ht ↦ hs.single (ht.trans h), fun ht ↦ hs.after_comma (ht.trans h),
    fun ht ↦ hs.before_comma (ht.trans h)⟩

end Regular

theorem regular_normalize (t : Text) : Regular (normalize t) := by
  induction t using comma_induction with
  | last a ha =>
    rw [normalize_of_not_mem ha, ← List.append_nil (List.intercalate _ _)]
    exact Regular.nil.group_append (by simp) fun w ↦ isToken_of_mem_words ha
  | comma a t ha ih =>
    rw [normalize_append_comma ha]
    refine Regular.group_append ?_ (by simp) fun w ↦ isToken_of_mem_words ha
    by_cases ht : normalize t = []
    · rw [if_pos ht]
      exact Regular.nil.comma_cons (by simp)
    · rw [if_neg ht]
      exact (ih.space_cons (isBlank_of_mem_head?_normalize t)).comma_cons (by simp)

theorem isNormal_normalize (t : Text) : IsNormal (normalize t) :=
  ⟨regular_normalize t, spaced_normalize t, isBlank_of_mem_head?_normalize t,
    isBlank_of_mem_getLast?_normalize t⟩

namespace IsNormal

theorem after_space {x u : Text} (h : IsNormal (x ++ ' ' :: u)) : u ≠ [] ∧ IsNormal u := by
  have hne : u ≠ [] := by
    rintro rfl
    have hlast := h.trailing ' ' (by simp)
    contradiction
  have hlast : (x ++ ' ' :: u).getLast? = u.getLast? := by
    rw [List.append_cons, List.getLast?_append_of_ne_nil _ hne]
  refine ⟨hne, h.of_isInfix ⟨x ++ [' '], [], by simp⟩, fun c hc ↦ h.spaced c (by simp [hc]), ?_,
    hlast ▸ h.trailing⟩
  intro c hc
  refine Bool.eq_false_iff.2 fun hblank ↦ ?_
  obtain ⟨u, rfl⟩ := List.head?_eq_some_iff.1 hc
  obtain rfl := h.spaced c (by simp) hblank
  exact h.single ⟨x, u, by simp⟩

theorem first_group {a : Text} (h : IsNormal (a ++ ',' :: t)) (ha : ',' ∉ a) : IsNormal a := by
  refine ⟨h.of_isInfix ⟨[], ',' :: t, by simp⟩, fun c hc ↦ h.spaced c (by simp [hc]), ?_, ?_⟩
  · intro c hc
    refine h.leading c ?_
    rw [List.head?_append, Option.mem_def.1 hc]
    rfl
  · intro c hc
    refine Bool.eq_false_iff.2 fun hblank ↦ ?_
    obtain ⟨b, rfl⟩ := List.getLast?_eq_some_iff.1 hc
    obtain rfl := h.spaced c (by simp) hblank
    cases hb : b.getLast? with
    | none =>
      obtain rfl := List.getLast?_eq_none_iff.1 hb
      have hhead := h.leading ' ' rfl
      contradiction
    | some d =>
      obtain ⟨b, rfl⟩ := List.getLast?_eq_some_iff.1 hb
      obtain rfl := h.before_comma (c := d) ⟨b, t, by simp⟩
      simp at ha

theorem intercalate_words {a : Text} (h : IsNormal a) :
    List.intercalate [' '] (words a) = a := by
  have hstart {b c : Text} (h : IsNormal (b ++ c)) (hb : ∀ d ∈ b, isBlank d) : b = [] := by
    cases b with
    | nil => rfl
    | cons d b =>
      have hblank := hb d List.mem_cons_self
      rw [h.leading d rfl] at hblank
      contradiction
  induction hws : words a generalizing a with
  | nil =>
    rw [← List.append_nil a] at h
    exact (hstart h (blank_of_words_eq_nil hws)).symm
  | cons w ws ih =>
    obtain ⟨b, v, rfl, hb, hv, rfl⟩ := exists_of_words_cons hws
    obtain rfl := hstart h hb
    rw [List.nil_append] at h ⊢
    cases v with
    | nil => simp
    | cons c u =>
      obtain rfl := h.spaced c (by simp) (hv c rfl)
      obtain ⟨hne, hu⟩ := h.after_space
      have hrest := ih hu (words_cons_blank isBlank_space u).symm
      cases hus : words (' ' :: u) with
      | nil =>
        rw [hus] at hrest
        exact absurd hrest.symm hne
      | cons x xs => rw [List.intercalate_cons_cons, ← hus, hrest, List.append_assoc]; rfl

theorem normalize_eq_self {s : Text} (h : IsNormal s) : normalize s = s := by
  obtain ⟨a, b, rfl, ha, hb⟩ := exists_first_group s
  cases b with
  | nil =>
    rw [List.append_nil] at h ⊢
    rw [normalize_of_not_mem ha, h.intercalate_words]
  | cons c t =>
    obtain rfl := hb c rfl
    rw [normalize_append_comma ha, (h.first_group ha).intercalate_words]
    cases t with
    | nil => rfl
    | cons d u =>
      obtain rfl := h.after_comma (c := d) ⟨a, u, by simp⟩
      rw [List.append_cons] at h
      obtain ⟨hne, hu⟩ := h.after_space
      -- what follows the comma and its space is a shorter normal form
      have hnormal : normalize (' ' :: u) = u := by
        rw [normalize_eq, groups_cons_blank isBlank_space, ← normalize_eq]
        exact normalize_eq_self hu
      rw [hnormal, if_neg hne]
termination_by s.length

end IsNormal

theorem eq_normalize_iff : s = normalize t ↔ IsNormal s ∧ groups s = groups t := by
  constructor
  · rintro rfl
    exact ⟨isNormal_normalize t, groups_normalize t⟩
  · rintro ⟨hs, hgroups⟩
    rw [normalize_eq, ← hgroups, ← normalize_eq, hs.normalize_eq_self]

theorem normalize_eq_normalize_iff : normalize s = normalize t ↔ groups s = groups t := by
  rw [eq_normalize_iff, groups_normalize]
  exact and_iff_right (isNormal_normalize s)

/-- Normalizing keeps the words of each comma group and gives a text in normal form, the only one
with these words. So it changes nothing when done again, and texts of the same words in the same
comma groups, and no others, have one normal form. -/
theorem normalize_canonical (t : Text) :
    normalize (normalize t) = normalize t ∧ groups (normalize t) = groups t ∧
    IsNormal (normalize t) ∧
    (∀ u, normalize u = normalize t ↔ groups u = groups t) ∧
    ∀ s, s = normalize t ↔ IsNormal s ∧ groups s = groups t :=
  ⟨(isNormal_normalize t).normalize_eq_self, groups_normalize t, isNormal_normalize t,
    fun _ ↦ normalize_eq_normalize_iff, fun _ ↦ eq_normalize_iff⟩

-- empty groups at the start, in the middle and at the end
example : normalize " ,\ta  b ,,".toList = ", a b, ,".toList := by decide

theorem isToken_of_mem_tokens {w : Text} (h : w ∈ tokens t) : IsToken w := by
  unfold tokens at h
  split at h
  · exact isToken_of_mem_arguments h
  · next hne =>
    rcases List.mem_cons.1 h with rfl | h
    · refine ⟨by simpa using hne, fun c hc ↦ ?_⟩
      exact isSolid_of_isAlphanum (isAlphanum_of_mem_name hc)
    · exact isToken_of_mem_arguments h

/-- A text has the tokens and the name of its normal form. The tokens are not empty and hold all
that is neither a blank nor a comma. After a name, the tokens joined and split again are the same,
with one comma less than arguments. -/
theorem tokens_stable (t : Text) :
    tokens (normalize t) = tokens t ∧ name (normalize t) = name t ∧
    (∀ w ∈ tokens t, IsToken w) ∧ (tokens t).flatten = t.filter isSolid ∧
    (name t ≠ [] → (tokens t).head? = some (name t) ∧ tokens (join (tokens t)) = tokens t ∧
      countCommas (join (tokens t)) + 1 = max (countArguments (join (tokens t))) 1) := by
  refine ⟨tokens_of_groups_eq (groups_normalize t), name_normalize t,
    fun w ↦ isToken_of_mem_tokens, flatten_tokens t, fun hne ↦ ?_⟩
  have hname : ∀ c ∈ name t, c.isAlphanum := fun c ↦ isAlphanum_of_mem_name
  have hargs : ∀ a ∈ arguments t, IsToken a := fun a ↦ isToken_of_mem_arguments
  rw [tokens_of_name_ne_nil hne]
  have hjoin := tokens_join hname hne hargs
  refine ⟨rfl, hjoin, ?_⟩
  rw [countCommas_join hname hargs, countArguments, hjoin, List.length_cons]
  omega

theorem tokens_stable_of_load :
    join (tokens "lw $t1,4 ($sp)".toList) = "lw $t1, 4($sp)".toList ∧
      tokens "lw $t1, 4($sp)".toList = tokens "lw $t1,4 ($sp)".toList ∧
      countCommas "lw $t1, 4($sp)".toList + 1 =
        max (countArguments "lw $t1, 4($sp)".toList) 1 := by
  have hjoin : join (tokens "lw $t1,4 ($sp)".toList) = "lw $t1, 4($sp)".toList := by decide
  obtain ⟨-, htokens, hcommas⟩ := (tokens_stable "lw $t1,4 ($sp)".toList).2.2.2.2 (by decide)
  rw [hjoin] at htokens hcommas
  exact ⟨hjoin, htokens, hcommas⟩

-- with no name to stand first, a joined text may glue tokens together
example : tokens "$a, (b".toList = ["$a".toList, "(b".toList] ∧
    tokens (join ["$a".toList, "(b".toList]) = ["$a(b".toList] := by decide

end Mips32.Mnemonic
