import Mips32.Text.Basic

namespace Mips32.Text

theorem isBlank_iff (c : Char) :
    isBlank c ↔ 0x09 ≤ c.toNat ∧ c.toNat ≤ 0x0d ∨ c.toNat = 0x20 ∨ c.toNat = 0x85 ∨
      c.toNat = 0xa0 ∨ c.toNat = 0x1680 ∨ 0x2000 ≤ c.toNat ∧ c.toNat ≤ 0x200a ∨
      0x2028 ≤ c.toNat ∧ c.toNat ≤ 0x2029 ∨ c.toNat = 0x202f ∨ c.toNat = 0x205f ∨
      c.toNat = 0x3000 := by
  simp only [isBlank, inRanges, blankRanges, List.any_cons, List.any_nil, Bool.or_false,
    Bool.or_eq_true, Bool.and_eq_true, decide_eq_true_eq]
  omega

theorem isBlank_space : isBlank ' ' = true := by decide

theorem isBlank_comma : isBlank ',' = false := by decide

theorem isAlphanum_iff (c : Char) :
    c.isAlphanum ↔ 65 ≤ c.toNat ∧ c.toNat ≤ 90 ∨ 97 ≤ c.toNat ∧ c.toNat ≤ 122 ∨
      48 ≤ c.toNat ∧ c.toNat ≤ 57 := by
  delta Char.isAlphanum Char.isAlpha Char.isUpper Char.isLower Char.isDigit
  simp only [Bool.or_eq_true, Bool.and_eq_true, decide_eq_true_eq, UInt32.le_iff_toNat_le,
    ge_iff_le, or_assoc]
  rfl

theorem isDigit_iff (c : Char) : c.isDigit ↔ 48 ≤ c.toNat ∧ c.toNat ≤ 57 := by
  delta Char.isDigit
  simp only [Bool.and_eq_true, decide_eq_true_eq, UInt32.le_iff_toNat_le, ge_iff_le]
  rfl

theorem isAlphanum_of_isDigit {c : Char} (h : c.isDigit) : c.isAlphanum := by
  rw [isDigit_iff] at h
  exact (isAlphanum_iff c).2 (.inr (.inr h))

theorem isBlank_of_isAlphanum {c : Char} (h : c.isAlphanum) : isBlank c = false := by
  rw [Bool.eq_false_iff, ne_eq, isBlank_iff]
  rw [isAlphanum_iff] at h
  omega

theorem not_isAlphanum_of_isBlank {c : Char} (h : isBlank c) : c.isAlphanum = false := by
  apply Bool.eq_false_iff.2
  intro halnum
  rw [isBlank_of_isAlphanum halnum] at h
  contradiction

theorem takeWhile_append_of_stop {p : Char → Bool} {a b : Text}
    (hb : ∀ c ∈ b.head?, p c = false) : (a ++ b).takeWhile p = a.takeWhile p := by
  induction a with
  | nil =>
    cases b with
    | nil => rfl
    | cons c b => simp [hb c (by simp)]
  | cons c a ih =>
    by_cases hc : p c
    · simp [hc, ih]
    · simp [hc]

theorem dropWhile_append_of_stop {p : Char → Bool} {a b : Text}
    (hb : ∀ c ∈ b.head?, p c = false) : (a ++ b).dropWhile p = a.dropWhile p ++ b := by
  have hsplit : (a ++ b).takeWhile p ++ (a ++ b).dropWhile p = a ++ b :=
    List.takeWhile_append_dropWhile
  have hsplit' : a.takeWhile p ++ (a.dropWhile p ++ b) = a ++ b := by
    rw [← List.append_assoc, List.takeWhile_append_dropWhile]
  rw [takeWhile_append_of_stop hb] at hsplit
  exact List.append_cancel_left (hsplit.trans hsplit'.symm)

theorem trimStart_append_of_blank {a : Text} (ha : ∀ c ∈ a, isBlank c) (t : Text) :
    trimStart (a ++ t) = trimStart t := by
  induction a with
  | nil => rfl
  | cons c a ih =>
    rw [List.forall_mem_cons] at ha
    simp only [trimStart, List.cons_append, List.dropWhile_cons, ha.1, if_true]
    exact ih ha.2

theorem trimStart_of_head {t : Text} (h : ∀ c ∈ t.head?, isBlank c = false) : trimStart t = t := by
  cases t with
  | nil => rfl
  | cons c t => simp [trimStart, h c (by simp)]

theorem exists_eq_append_trimStart (t : Text) :
    ∃ a : Text, (∀ c ∈ a, isBlank c) ∧ t = a ++ trimStart t :=
  ⟨t.takeWhile isBlank, fun _ hc ↦ List.all_eq_true.1 List.all_takeWhile _ hc,
    List.takeWhile_append_dropWhile.symm⟩

theorem exists_eq_trimEnd_append (t : Text) :
    ∃ a : Text, (∀ c ∈ a, isBlank c) ∧ t = trimEnd t ++ a := by
  obtain ⟨a, ha, h⟩ := exists_eq_append_trimStart t.reverse
  refine ⟨a.reverse, fun c hc ↦ ha c (List.mem_reverse.1 hc), ?_⟩
  have hr := congrArg List.reverse h
  rwa [List.reverse_reverse, List.reverse_append] at hr

theorem exists_eq_append_trim_append (t : Text) :
    ∃ a b : Text, (∀ c ∈ a, isBlank c) ∧ (∀ c ∈ b, isBlank c) ∧ t = a ++ (trim t ++ b) := by
  obtain ⟨a, ha, hstart⟩ := exists_eq_append_trimStart t
  obtain ⟨b, hb, hend⟩ := exists_eq_trimEnd_append (trimStart t)
  exact ⟨a, b, ha, hb, by rw [trim, ← hend, ← hstart]⟩

theorem mem_of_mem_trim {t : Text} {c : Char} (h : c ∈ trim t) : c ∈ t := by
  obtain ⟨a, b, -, -, ht⟩ := exists_eq_append_trim_append t
  rw [ht]
  exact List.mem_append_right a (List.mem_append_left b h)

theorem filter_trim {p : Char → Bool} (hp : ∀ c, isBlank c → p c = false) (t : Text) :
    (trim t).filter p = t.filter p := by
  obtain ⟨a, b, ha, hb, ht⟩ := exists_eq_append_trim_append t
  have hnil {u : Text} (hu : ∀ c ∈ u, isBlank c) : u.filter p = [] := by
    rw [List.filter_eq_nil_iff]
    intro c hc
    simp [hp c (hu c hc)]
  have hfilter := congrArg (List.filter p) ht
  rw [List.filter_append, List.filter_append, hnil ha, hnil hb, List.nil_append,
    List.append_nil] at hfilter
  exact hfilter.symm

theorem mem_trim_iff {t : Text} {c : Char} (hc : isBlank c = false) : c ∈ trim t ↔ c ∈ t := by
  have hfilter := filter_trim (p := fun d ↦ !isBlank d) (by simp) t
  have hmem : c ∈ (trim t).filter (fun d ↦ !isBlank d) ↔ c ∈ t.filter fun d ↦ !isBlank d := by
    rw [hfilter]
  simpa [hc] using hmem

theorem head?_trim {t : Text} (h : ∀ c ∈ t.head?, isBlank c = false) :
    (trim t).head? = t.head? := by
  obtain ⟨b, hb, hend⟩ := exists_eq_trimEnd_append t
  rw [trim, trimStart_of_head h]
  cases hempty : trimEnd t with
  | cons c u => rw [hend, hempty]; rfl
  | nil =>
    rw [hempty, List.nil_append] at hend
    subst hend
    cases t with
    | nil => rfl
    | cons c t => exact absurd (hb c List.mem_cons_self) (by simp [h c (by simp)])

theorem isBlank_of_mem_head?_trimStart (t : Text) :
    ∀ c ∈ (trimStart t).head?, isBlank c = false := by
  intro c hc
  have hstop := List.head?_dropWhile_not isBlank t
  rwa [show (t.dropWhile isBlank).head? = some c from hc] at hstop

theorem isBlank_of_mem_head?_trim (t : Text) : ∀ c ∈ (trim t).head?, isBlank c = false := by
  have h := isBlank_of_mem_head?_trimStart t
  have hhead := head?_trim h
  rw [trim, trimStart_of_head h, ← trim] at hhead
  rwa [hhead]

theorem isBlank_of_mem_getLast?_trim (t : Text) :
    ∀ c ∈ (trim t).getLast?, isBlank c = false := by
  rw [trim, trimEnd, List.getLast?_reverse]
  exact isBlank_of_mem_head?_trimStart _

theorem trimEnd_append_of_blank {t b : Text} (h : ∀ c ∈ t.getLast?, isBlank c = false)
    (hb : ∀ c ∈ b, isBlank c) : trimEnd (t ++ b) = t := by
  have hblank := trimStart_append_of_blank (a := b.reverse) (by simpa using hb) t.reverse
  have hsolid : trimStart t.reverse = t.reverse := trimStart_of_head (by rwa [List.head?_reverse])
  rw [hsolid, trimStart] at hblank
  rw [trimEnd, List.reverse_append, hblank, List.reverse_reverse]

theorem trim_eq_nil_iff {t : Text} : trim t = [] ↔ ∀ c ∈ t, isBlank c := by
  constructor
  · intro h c hc
    obtain ⟨a, b, ha, hb, ht⟩ := exists_eq_append_trim_append t
    rw [ht, h, List.nil_append, List.mem_append] at hc
    exact hc.elim (ha c) (hb c)
  · intro h
    have hstart := trimStart_append_of_blank h []
    rw [List.append_nil] at hstart
    rw [trim, hstart]
    rfl

theorem trim_of_ends {t : Text} (hhead : ∀ c ∈ t.head?, isBlank c = false)
    (hlast : ∀ c ∈ t.getLast?, isBlank c = false) : trim t = t := by
  have hend := trimEnd_append_of_blank (b := []) hlast (by simp)
  rw [List.append_nil] at hend
  rw [trim, trimStart_of_head hhead, hend]

theorem trim_of_solid {t : Text} (h : ∀ c ∈ t, isBlank c = false) : trim t = t :=
  trim_of_ends (fun c hc ↦ h c (List.mem_of_mem_head? hc)) fun c hc ↦ h c (List.mem_of_getLast? hc)

@[simp] theorem words_nil : words [] = [] := rfl

/-- A blank separates the words before it from those after it. -/
theorem words_append_blank {c : Char} (hc : isBlank c) (a b : Text) :
    words (a ++ c :: b) = words a ++ words b := by
  rw [words, List.splitOnP_append_cons a b hc, List.filter_append, words, words]

theorem words_cons_blank {c : Char} (hc : isBlank c) (t : Text) : words (c :: t) = words t :=
  words_append_blank hc [] t

theorem words_append_blanks (t : Text) {a : Text} (ha : ∀ c ∈ a, isBlank c) :
    words (t ++ a) = words t := by
  induction a generalizing t with
  | nil => rw [List.append_nil]
  | cons c a ih =>
    rw [List.forall_mem_cons] at ha
    have hnil := ih [] ha.2
    rw [words_append_blank ha.1, ← List.nil_append a, hnil, words_nil, List.append_nil]

theorem words_blanks_append {a : Text} (ha : ∀ c ∈ a, isBlank c) (t : Text) :
    words (a ++ t) = words t := by
  induction a with
  | nil => rfl
  | cons c a ih =>
    rw [List.forall_mem_cons] at ha
    rw [List.cons_append, words_cons_blank ha.1, ih ha.2]

theorem words_trim (t : Text) : words (trim t) = words t := by
  obtain ⟨a, b, ha, hb, ht⟩ := exists_eq_append_trim_append t
  calc words (trim t) = words (a ++ (trim t ++ b)) := by
        rw [words_blanks_append ha, words_append_blanks _ hb]
    _ = words t := by rw [← ht]

theorem words_of_solid {w : Text} (hne : w ≠ []) (h : ∀ c ∈ w, isBlank c = false) :
    words w = [w] := by
  rw [words, List.splitOnP_eq_singleton h, List.filter_cons_of_pos (by simpa using hne),
    List.filter_nil]

theorem mem_splitOnP {t w : Text} {p : Char → Bool} (h : w ∈ t.splitOnP p) :
    ∀ c ∈ w, p c = false := by
  induction t generalizing w with
  | nil =>
    rw [List.splitOnP_nil, List.mem_singleton] at h
    simp [h]
  | cons d t ih =>
    rw [List.splitOnP_cons_eq_if_modifyHead] at h
    by_cases hd : p d
    · rw [if_pos hd, List.mem_cons] at h
      rcases h with rfl | h
      · simp
      · exact ih h
    · obtain ⟨u, us, hu⟩ := List.exists_cons_of_ne_nil (List.splitOnP_ne_nil p t)
      rw [if_neg hd, hu, List.modifyHead_cons, List.mem_cons] at h
      rcases h with rfl | h
      · rw [List.forall_mem_cons]
        exact ⟨Bool.eq_false_iff.2 hd, ih (hu ▸ List.mem_cons_self)⟩
      · exact ih (hu ▸ List.mem_cons_of_mem u h)

theorem solid_of_mem_words {t w : Text} (h : w ∈ words t) :
    w ≠ [] ∧ ∀ c ∈ w, isBlank c = false := by
  rw [words, List.mem_filter] at h
  exact ⟨by simpa using h.2, mem_splitOnP h.1⟩

theorem flatten_splitOnP (t : Text) (p : Char → Bool) :
    (t.splitOnP p).flatten = t.filter fun c ↦ !p c := by
  induction t with
  | nil => simp
  | cons c t ih =>
    obtain ⟨u, us, hu⟩ := List.exists_cons_of_ne_nil (List.splitOnP_ne_nil p t)
    rw [hu] at ih
    rw [List.splitOnP_cons_eq_if_modifyHead, hu]
    by_cases hc : p c
    · simpa [hc] using ih
    · simpa [hc] using ih

/-- The words hold every character that is not blank, in order. -/
theorem flatten_words (t : Text) : (words t).flatten = t.filter fun c ↦ !isBlank c := by
  rw [words, List.flatten_filter_not_isEmpty, flatten_splitOnP]

theorem blank_of_words_eq_nil {t : Text} (h : words t = []) : ∀ c ∈ t, isBlank c := by
  have hsolid := flatten_words t
  rw [h] at hsolid
  intro c hc
  simpa using List.filter_eq_nil_iff.1 hsolid.symm c hc

theorem words_intercalate {ws : List Text} (h : ∀ w ∈ ws, w ≠ [] ∧ ∀ c ∈ w, isBlank c = false) :
    words (List.intercalate [' '] ws) = ws := by
  induction ws with
  | nil => rfl
  | cons w ws ih =>
    rw [List.forall_mem_cons] at h
    have hw := words_of_solid h.1.1 h.1.2
    cases ws with
    | nil => simpa using hw
    | cons u us =>
      rw [List.intercalate_cons_cons, List.append_assoc, List.singleton_append,
        words_append_blank isBlank_space, hw, ih h.2, List.singleton_append]

theorem words_append_of_stop {w b : Text} (hb : ∀ c ∈ b.head?, isBlank c) :
    words (w ++ b) = words w ++ words b := by
  cases b with
  | nil => simp
  | cons c b => rw [words_append_blank (hb c (by simp)), words_cons_blank (hb c (by simp))]

/-- The first word of a text stands between blanks and a blank or the end. -/
theorem exists_of_words_cons {t w : Text} {ws : List Text} (h : words t = w :: ws) :
    ∃ a b : Text, t = a ++ (w ++ b) ∧ (∀ c ∈ a, isBlank c) ∧ (∀ c ∈ b.head?, isBlank c) ∧
      words b = ws := by
  induction t with
  | nil => simp at h
  | cons c t ih =>
    by_cases hc : isBlank c
    · rw [words_cons_blank hc] at h
      obtain ⟨a, b, ht, ha, hb, hws⟩ := ih h
      exact ⟨c :: a, b, by rw [ht, List.cons_append], List.forall_mem_cons.2 ⟨hc, ha⟩, hb, hws⟩
    · let solid (d : Char) := !isBlank d
      let u := (c :: t).takeWhile solid
      let b := (c :: t).dropWhile solid
      have ht : c :: t = u ++ b := List.takeWhile_append_dropWhile.symm
      have hb : ∀ d ∈ b.head?, isBlank d := by
        intro d hd
        have hstop := List.head?_dropWhile_not solid (c :: t)
        rw [show ((c :: t).dropWhile solid).head? = some d from hd] at hstop
        simpa [solid] using hstop
      have hu : words u = [u] := by
        apply words_of_solid
        · simp [u, solid, hc]
        · intro d hd
          simpa [solid] using List.all_eq_true.1 List.all_takeWhile d hd
      rw [ht, words_append_of_stop hb, hu, List.singleton_append, List.cons.injEq] at h
      obtain ⟨rfl, hws⟩ := h
      exact ⟨[], b, ht, by simp, hb, hws⟩

end Mips32.Text
