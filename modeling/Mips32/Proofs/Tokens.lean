import Mips32.Mnemonic.Token
import Mips32.Proofs.Words

namespace Mips32.Mnemonic

open Text

/-- The words of each comma group. -/
def groups (text : Text) : List (List Text) := (text.splitOn ',').map words

def isSolid (c : Char) : Bool := !isBlank c && c ≠ ','

theorem isSolid_iff {c : Char} : isSolid c ↔ isBlank c = false ∧ c ≠ ',' := by
  simp [isSolid]

theorem isBlank_of_isSolid {c : Char} (h : isSolid c) : isBlank c = false := (isSolid_iff.1 h).1

theorem isSolid_of_isAlphanum {c : Char} (h : c.isAlphanum) : isSolid c := by
  refine isSolid_iff.2 ⟨isBlank_of_isAlphanum h, fun hc ↦ ?_⟩
  rw [hc] at h
  contradiction

def IsToken (w : Text) : Prop := w ≠ [] ∧ ∀ c ∈ w, isSolid c

theorem groups_of_not_mem {t : Text} (h : ',' ∉ t) : groups t = [words t] := by
  rw [groups, List.splitOn_eq_singleton h, List.map_singleton]

theorem groups_append_comma {a : Text} (ha : ',' ∉ a) (t : Text) :
    groups (a ++ ',' :: t) = words a :: groups t := by
  rw [groups, List.splitOn_append_cons_self_of_not_mem ha, List.map_cons, groups]

/-- A text is its first comma group, alone or before a comma and another text. -/
theorem comma_induction {motive : Text → Prop} (last : ∀ a, ',' ∉ a → motive a)
    (comma : ∀ a t, ',' ∉ a → motive t → motive (a ++ ',' :: t)) (t : Text) : motive t := by
  by_cases h : ',' ∈ t
  · obtain ⟨a, u, hu, ha⟩ := List.eq_append_cons_of_mem h
    have hlen : u.length < t.length := by simp [hu]; omega
    exact hu ▸ comma a u ha (comma_induction last comma u)
  · exact last t h
termination_by t.length

theorem length_groups (t : Text) : (groups t).length = countCommas t + 1 := by
  induction t using comma_induction with
  | last a ha => simp [groups_of_not_mem ha, countCommas, List.count_eq_zero_of_not_mem ha]
  | comma a t ha ih =>
    simp [groups_append_comma ha, ih, countCommas, List.count_eq_zero_of_not_mem ha]

theorem isToken_of_mem_group {t w : Text} {g : List Text} (hg : g ∈ groups t) (hw : w ∈ g) :
    IsToken w := by
  rw [groups, List.mem_map] at hg
  obtain ⟨u, hu, rfl⟩ := hg
  obtain ⟨hne, hsolid⟩ := solid_of_mem_words hw
  refine ⟨hne, fun c hc ↦ isSolid_iff.2 ⟨hsolid c hc, ?_⟩⟩
  have hcu : c ∈ u := by
    have hmem : c ∈ (words u).flatten := List.mem_flatten_of_mem hw hc
    rw [flatten_words] at hmem
    exact (List.mem_filter.1 hmem).1
  rw [List.splitOn_eq_splitOnP] at hu
  simpa using mem_splitOnP hu c hcu

theorem isToken_of_mem_words {a w : Text} (ha : ',' ∉ a) (hw : w ∈ words a) : IsToken w :=
  isToken_of_mem_group (by rw [groups_of_not_mem ha]; exact List.mem_singleton_self _) hw

theorem flatten_groups (t : Text) : (groups t).flatten.flatten = t.filter isSolid := by
  have hfilter {a : Text} (ha : ',' ∉ a) : (words a).flatten = a.filter isSolid := by
    rw [flatten_words]
    apply List.filter_congr
    intro c hc
    have hne : c ≠ ',' := fun h ↦ ha (h ▸ hc)
    simp [isSolid, hne]
  induction t using comma_induction with
  | last a ha => simp [groups_of_not_mem ha, hfilter ha]
  | comma a t ha ih => simp [groups_append_comma ha, hfilter ha, ih, isSolid]

theorem groups_blank_append {a : Text} (ha : ∀ c ∈ a, isBlank c) (t : Text) :
    groups (a ++ t) = groups t := by
  induction a with
  | nil => rfl
  | cons c a ih =>
    rw [List.forall_mem_cons] at ha
    have hc : (c == ',') = false := by
      have hne : c ≠ ',' := fun h ↦ by simp [h, isBlank_comma] at ha
      simpa using hne
    obtain ⟨u, us, hu⟩ := List.exists_cons_of_ne_nil (List.splitOn_ne_nil ',' (a ++ t))
    rw [← ih ha.2, groups, groups, List.cons_append, List.splitOn_cons_eq_if_modifyHead, hc, hu]
    simp [words_cons_blank ha.1]

theorem groups_cons_blank {c : Char} (hc : isBlank c) (t : Text) : groups (c :: t) = groups t :=
  groups_blank_append (List.forall_mem_singleton.2 hc) t

theorem groups_append_blank (t : Text) {a : Text} (ha : ∀ c ∈ a, isBlank c) :
    groups (t ++ a) = groups t := by
  have hcomma : ',' ∉ a := fun h ↦ by simpa [isBlank_comma] using ha _ h
  induction t using comma_induction with
  | last u hu =>
    rw [groups_of_not_mem hu, groups_of_not_mem (by simp [hu, hcomma]), words_append_blanks u ha]
  | comma u t hu ih =>
    rw [List.append_assoc, List.cons_append, groups_append_comma hu, groups_append_comma hu, ih]

theorem groups_trim (t : Text) : groups (trim t) = groups t := by
  obtain ⟨a, b, ha, hb, ht⟩ := exists_eq_append_trim_append t
  have hgroups := groups_blank_append ha (trim t ++ b)
  rw [← ht, groups_append_blank (trim t) hb] at hgroups
  exact hgroups.symm

theorem groups_eq_blank_iff {t : Text} : groups t = [[]] ↔ ∀ c ∈ t, isBlank c := by
  constructor
  · intro h
    have hlen := length_groups t
    have hsolid := flatten_groups t
    rw [h] at hlen hsolid
    have hcomma : ',' ∉ t := List.count_eq_zero.1 (Nat.succ.inj hlen).symm
    intro c hc
    have hfalse := List.filter_eq_nil_iff.1 hsolid.symm c hc
    have hne : c ≠ ',' := fun h ↦ hcomma (h ▸ hc)
    simpa [isSolid, hne] using hfalse
  · intro h
    exact groups_append_blank [] h

def unsplit (gs : List (List Text)) : Text :=
  List.intercalate [',', ' '] (gs.map (List.intercalate [' ']))

theorem normalize_eq (t : Text) : normalize t = trim (unsplit (groups t)) := by
  rw [normalize, unsplit, groups, List.map_map]
  rfl

theorem words_group {g : List Text} (hg : ∀ w ∈ g, IsToken w) :
    words (List.intercalate [' '] g) = g :=
  words_intercalate fun w hw ↦ ⟨(hg w hw).1, fun c hc ↦ isBlank_of_isSolid ((hg w hw).2 c hc)⟩

theorem comma_not_mem_group {g : List Text} (hg : ∀ w ∈ g, IsToken w) :
    ',' ∉ List.intercalate [' '] g := by
  intro hmem
  have hsolid : ',' ∈ (words (List.intercalate [' '] g)).flatten := by
    rw [flatten_words, List.mem_filter]
    exact ⟨hmem, by simp [isBlank_comma]⟩
  rw [words_group hg, List.mem_flatten] at hsolid
  obtain ⟨w, hw, hc⟩ := hsolid
  exact (isSolid_iff.1 ((hg w hw).2 _ hc)).2 rfl

theorem unsplit_cons (g : List Text) {gs : List (List Text)} (hgs : gs ≠ []) :
    unsplit (g :: gs) = List.intercalate [' '] g ++ ',' :: ' ' :: unsplit gs := by
  obtain ⟨g', gs, rfl⟩ := List.exists_cons_of_ne_nil hgs
  rw [unsplit, List.map_cons, List.map_cons, List.intercalate_cons_cons, List.append_assoc]
  rfl

theorem groups_unsplit {gs : List (List Text)} (hgs : gs ≠ []) (h : ∀ g ∈ gs, ∀ w ∈ g, IsToken w) :
    groups (unsplit gs) = gs := by
  induction gs with
  | nil => exact absurd rfl hgs
  | cons g gs ih =>
    rw [List.forall_mem_cons] at h
    cases gs with
    | nil =>
      rw [unsplit, List.map_singleton, List.intercalate_singleton,
        groups_of_not_mem (comma_not_mem_group h.1), words_group h.1]
    | cons g' gs =>
      rw [unsplit_cons g (by simp), groups_append_comma (comma_not_mem_group h.1),
        words_group h.1, groups_cons_blank isBlank_space, ih (by simp) h.2]

/-- Normalizing keeps the words of each comma group. -/
theorem groups_normalize (t : Text) : groups (normalize t) = groups t := by
  rw [normalize_eq, groups_trim]
  apply groups_unsplit
  · simp [groups]
  · intro g hg w hw
    exact isToken_of_mem_group hg hw

theorem normalize_eq_nil_iff {t : Text} : normalize t = [] ↔ ∀ c ∈ t, isBlank c := by
  rw [← groups_eq_blank_iff]
  constructor
  · intro h
    rw [← groups_normalize t, h]
    rfl
  · intro h
    rw [normalize_eq, h]
    rfl

def leadingName : List (List Text) → Text
  | (w :: _) :: _ => w.takeWhile Char.isAlphanum
  | _ => []

theorem exists_trimStart_append {a w : Text} {ws : List Text} (h : words a = w :: ws) (b : Text) :
    ∃ v : Text, trimStart (a ++ b) = w ++ (v ++ b) ∧ (∀ c ∈ v.head?, isBlank c) ∧ words v = ws ∧
      ∀ c ∈ v, c ∈ a := by
  obtain ⟨hne, hsolid⟩ := solid_of_mem_words (h ▸ List.mem_cons_self : w ∈ words a)
  obtain ⟨u, v, rfl, hu, hv, hws⟩ := exists_of_words_cons h
  have hstart : ∀ c ∈ (w ++ (v ++ b)).head?, isBlank c = false := by
    intro c hc
    obtain ⟨d, w, rfl⟩ := List.exists_cons_of_ne_nil hne
    exact hsolid c (List.mem_of_mem_head? hc)
  refine ⟨v, ?_, hv, hws, fun c hc ↦ by simp [hc]⟩
  rw [List.append_assoc, List.append_assoc, trimStart_append_of_blank hu, trimStart_of_head hstart]

theorem not_isAlphanum_of_stop {v b : Text} (hv : ∀ c ∈ v.head?, isBlank c)
    (hb : ∀ c ∈ b.head?, c = ',') : ∀ c ∈ (v ++ b).head?, c.isAlphanum = false := by
  cases v with
  | nil => exact fun c hc ↦ hb c hc ▸ rfl
  | cons d v => exact fun c hc ↦ not_isAlphanum_of_isBlank (hv c hc)

theorem trimStart_append_of_no_words {a b : Text} (ha : words a = [])
    (hb : ∀ c ∈ b.head?, c = ',') : trimStart (a ++ b) = b := by
  rw [trimStart_append_of_blank (blank_of_words_eq_nil ha), trimStart_of_head]
  exact fun c hc ↦ hb c hc ▸ isBlank_comma

theorem name_append {a b : Text} (hb : ∀ c ∈ b.head?, c = ',') :
    name (a ++ b) = leadingName [words a] := by
  cases hw : words a with
  | nil =>
    have hstop := not_isAlphanum_of_stop (v := []) (by simp) hb
    rw [name, trimStart_append_of_no_words hw hb]
    exact takeWhile_append_of_stop (a := []) hstop
  | cons w ws =>
    obtain ⟨v, htrim, hv, -⟩ := exists_trimStart_append hw b
    rw [name, htrim, takeWhile_append_of_stop (not_isAlphanum_of_stop hv hb), leadingName]

theorem name_eq (t : Text) : name t = leadingName (groups t) := by
  induction t using comma_induction with
  | last a ha =>
    rw [groups_of_not_mem ha]
    simpa using name_append (a := a) (b := []) (by simp)
  | comma a t ha ih =>
    rw [groups_append_comma ha, name_append (by simp)]
    cases words a <;> rfl

theorem name_normalize (t : Text) : name (normalize t) = name t := by
  rw [name_eq, groups_normalize, ← name_eq]

theorem name_append_afterName (t : Text) : name t ++ afterName t = trimStart t :=
  List.takeWhile_append_dropWhile

theorem isAlphanum_of_mem_name {t : Text} {c : Char} (h : c ∈ name t) : c.isAlphanum :=
  List.all_eq_true.1 List.all_takeWhile c h

theorem tokens_of_name_ne_nil {t : Text} (h : name t ≠ []) : tokens t = name t :: arguments t :=
  if_neg (by simpa using h)

theorem arguments_eq (t : Text) : arguments t = (groups (afterName t)).flatMap attach := by
  rw [arguments, groups, List.flatMap_map]

theorem exists_first_group (t : Text) :
    ∃ a b : Text, t = a ++ b ∧ ',' ∉ a ∧ ∀ c ∈ b.head?, c = ',' := by
  induction t using comma_induction with
  | last a ha => exact ⟨a, [], by simp, ha, by simp⟩
  | comma a t ha _ => exact ⟨a, ',' :: t, rfl, ha, by simp⟩

theorem groups_append_rest {a b : Text} (ha : ',' ∉ a) (hb : ∀ c ∈ b.head?, c = ',') :
    groups (a ++ b) = words a :: (groups b).tail := by
  cases b with
  | nil => rw [List.append_nil, groups_of_not_mem ha]; rfl
  | cons c t =>
    obtain rfl := hb c (by simp)
    have hrest : groups (',' :: t) = [] :: groups t := groups_append_comma (a := []) (by simp) t
    rw [groups_append_comma ha, hrest, List.tail_cons]

def dropName : List Text → List Text
  | [] => []
  | w :: ws => words (w.dropWhile Char.isAlphanum) ++ ws

theorem groups_afterName (t : Text) : groups (afterName t) = (groups t).modifyHead dropName := by
  obtain ⟨a, b, rfl, ha, hb⟩ := exists_first_group t
  rw [groups_append_rest ha hb, List.modifyHead_cons]
  cases hw : words a with
  | nil =>
    have hstop := not_isAlphanum_of_stop (v := []) (by simp) hb
    have hdrop : b.dropWhile Char.isAlphanum = b := dropWhile_append_of_stop (a := []) hstop
    rw [afterName, trimStart_append_of_no_words hw hb, hdrop, dropName]
    exact groups_append_rest (a := []) (by simp) hb
  | cons w ws =>
    obtain ⟨v, htrim, hv, hws, hmem⟩ := exists_trimStart_append hw b
    have hcomma : ',' ∉ w.dropWhile Char.isAlphanum ++ v := by
      rw [List.mem_append, not_or]
      refine ⟨fun h ↦ ?_, fun h ↦ ha (hmem _ h)⟩
      have hsolid := (isToken_of_mem_words ha (w := w) (by simp [hw])).2 ','
      exact absurd (hsolid ((List.dropWhile_suffix _).mem h)) (by decide)
    rw [afterName, htrim, dropWhile_append_of_stop (not_isAlphanum_of_stop hv hb),
      ← List.append_assoc, groups_append_rest hcomma hb, words_append_of_stop hv, hws, dropName]

/-- The tokens are those of the words of each comma group, however they are spaced. -/
theorem tokens_of_groups_eq {a b : Text} (h : groups a = groups b) : tokens a = tokens b := by
  have hname : name a = name b := by rw [name_eq, h, ← name_eq]
  have harguments : arguments a = arguments b := by
    rw [arguments_eq, groups_afterName, h, ← groups_afterName, ← arguments_eq]
  rw [tokens, hname, harguments, ← tokens]

theorem flatten_attach (ws : List Text) : (attach ws).flatten = ws.flatten := by
  fun_induction attach ws with
  | case1 => rfl
  | case2 w rest base others heq ih => simp [← ih, heq]
  | case3 w rest hne ih => simp [ih]

/-- The tokens hold every character but blanks and commas, in order. -/
theorem flatten_tokens (t : Text) : (tokens t).flatten = t.filter isSolid := by
  have hargs : (arguments t).flatten = (afterName t).filter isSolid := by
    rw [arguments_eq, ← flatten_groups]
    induction groups (afterName t) with
    | nil => rfl
    | cons g gs ih => simp [flatten_attach, ih]
  have hname : (name t).filter isSolid = name t := by
    rw [List.filter_eq_self]
    intro c hc
    exact isSolid_of_isAlphanum (isAlphanum_of_mem_name hc)
  have htokens : (tokens t).flatten = name t ++ (arguments t).flatten := by
    unfold tokens
    split
    · simp_all
    · rfl
  obtain ⟨a, ha, ht⟩ := exists_eq_append_trimStart t
  have hblank : a.filter isSolid = [] := by
    rw [List.filter_eq_nil_iff]
    intro c hc
    simp [isSolid, ha c hc]
  have hfilter := congrArg (List.filter isSolid) ht
  rw [List.filter_append, hblank, List.nil_append] at hfilter
  rw [htokens, hargs, ← hname, ← List.filter_append, name_append_afterName, hfilter]

theorem isSolid_of_mem_token {t w : Text} (hw : w ∈ tokens t) {c : Char} (hc : c ∈ w) :
    c ∈ t ∧ isSolid c := by
  have hmem : c ∈ (tokens t).flatten := List.mem_flatten.2 ⟨w, hw, hc⟩
  rw [flatten_tokens] at hmem
  exact List.mem_filter.1 hmem

theorem isToken_of_mem_attach {ws : List Text} (h : ∀ w ∈ ws, IsToken w) :
    ∀ w ∈ attach ws, IsToken w := by
  fun_induction attach ws with
  | case1 => simp
  | case2 w rest base others heq ih =>
    rw [List.forall_mem_cons] at h
    obtain ⟨hbase, hothers⟩ := List.forall_mem_cons.1 (heq ▸ ih h.2)
    refine List.forall_mem_cons.2 ⟨⟨by simp, fun c hc ↦ ?_⟩, hothers⟩
    exact (List.mem_append.1 hc).elim (h.1.2 c) (hbase.2 c)
  | case3 w rest hne ih =>
    rw [List.forall_mem_cons] at h
    exact List.forall_mem_cons.2 ⟨h.1, ih h.2⟩

theorem isToken_of_mem_arguments {t a : Text} (h : a ∈ arguments t) : IsToken a := by
  rw [arguments_eq] at h
  obtain ⟨g, hg, ha⟩ := List.mem_flatMap.1 h
  exact isToken_of_mem_attach (fun w hw ↦ isToken_of_mem_group hg hw) a ha

variable {n : Text} {args : List Text}

theorem groups_intercalate (hne : args ≠ []) (hargs : ∀ a ∈ args, IsToken a) :
    groups (List.intercalate [',', ' '] args) = args.map fun a ↦ [a] := by
  have h : groups (unsplit (args.map fun a ↦ [a])) = args.map fun a ↦ [a] :=
    groups_unsplit (by simpa using hne) (by simpa using hargs)
  have hmap : (args.map fun a ↦ [a]).map (List.intercalate [' ']) = args := by
    simp [Function.comp_def]
  rwa [unsplit, hmap] at h

def joinedTail (args : List Text) : Text :=
  if args = [] then [] else ' ' :: List.intercalate [',', ' '] args

theorem join_cons (n : Text) (args : List Text) : join (n :: args) = n ++ joinedTail args := by
  cases args with
  | nil => simp [join, joinedTail]
  | cons a args => rfl

theorem joinedTail_head (args : List Text) : ∀ c ∈ (joinedTail args).head?, c = ' ' := by
  intro c hc
  unfold joinedTail at hc
  split at hc
  · simp at hc
  · simpa [eq_comm] using hc

theorem mem_intercalate {separator : Text} {ts : List Text} {c : Char}
    (h : c ∈ List.intercalate separator ts) : c ∈ separator ∨ ∃ t ∈ ts, c ∈ t := by
  induction ts with
  | nil => simp at h
  | cons t ts ih =>
    cases ts with
    | nil => exact .inr ⟨t, List.mem_cons_self, by simpa using h⟩
    | cons u ts =>
      rw [List.intercalate_cons_cons, List.append_assoc, List.mem_append, List.mem_append] at h
      rcases h with h | h | h
      · exact .inr ⟨t, List.mem_cons_self, h⟩
      · exact .inl h
      · rcases ih h with h | ⟨v, hv, h⟩
        · exact .inl h
        · exact .inr ⟨v, List.mem_cons_of_mem t hv, h⟩

theorem mem_join {c : Char} (h : c ∈ join (n :: args)) :
    c ∈ n ∨ c = ' ' ∨ c = ',' ∨ ∃ a ∈ args, c ∈ a := by
  rw [join_cons, List.mem_append] at h
  rcases h with h | h
  · exact .inl h
  unfold joinedTail at h
  split at h
  · simp at h
  rcases List.mem_cons.1 h with h | h
  · exact .inr (.inl h)
  rcases mem_intercalate h with h | h
  · have hc : c = ',' ∨ c = ' ' := by simpa using h
    exact .inr (hc.elim (fun h ↦ .inr (.inl h)) .inl)
  · exact .inr (.inr (.inr h))

theorem trimStart_join (hn : ∀ c ∈ n, c.isAlphanum) (hne : n ≠ []) :
    trimStart (join (n :: args)) = n ++ joinedTail args := by
  obtain ⟨c, n, rfl⟩ := List.exists_cons_of_ne_nil hne
  have hc := isBlank_of_isAlphanum (hn c List.mem_cons_self)
  rw [join_cons]
  apply trimStart_of_head
  simpa using hc

theorem name_join (hn : ∀ c ∈ n, c.isAlphanum) (hne : n ≠ []) : name (join (n :: args)) = n := by
  have hstop : ∀ c ∈ (joinedTail args).head?, c.isAlphanum = false :=
    fun c hc ↦ joinedTail_head args c hc ▸ rfl
  rw [name, trimStart_join hn hne, takeWhile_append_of_stop hstop]
  have h : (n ++ []).takeWhile Char.isAlphanum = n ++ [] := List.takeWhile_append_of_pos hn
  rwa [List.append_nil] at h

theorem afterName_join (hn : ∀ c ∈ n, c.isAlphanum) (hne : n ≠ []) :
    afterName (join (n :: args)) = joinedTail args := by
  have h := name_append_afterName (join (n :: args))
  rw [name_join hn hne, trimStart_join hn hne] at h
  exact List.append_cancel_left h

theorem groups_joinedTail (hargs : ∀ a ∈ args, IsToken a) :
    (groups (joinedTail args)).flatMap attach = args := by
  unfold joinedTail
  split
  · next h => subst h; rfl
  · next h =>
    rw [groups_cons_blank isBlank_space, groups_intercalate h hargs, List.flatMap_map]
    simp [attach]

/-- Splitting a joined text gives back its name and arguments. -/
theorem tokens_join (hn : ∀ c ∈ n, c.isAlphanum) (hne : n ≠ []) (hargs : ∀ a ∈ args, IsToken a) :
    tokens (join (n :: args)) = n :: args := by
  have hname : name (join (n :: args)) = n := name_join hn hne
  rw [tokens_of_name_ne_nil (by rwa [hname]), arguments_eq, hname, afterName_join hn hne,
    groups_joinedTail hargs]

theorem countCommas_join (hn : ∀ c ∈ n, c.isAlphanum) (hargs : ∀ a ∈ args, IsToken a) :
    countCommas (join (n :: args)) = args.length - 1 := by
  have hcomma : ',' ∉ n := fun h ↦ by simpa using hn _ h
  have hcount := length_groups (joinedTail args)
  rw [join_cons, countCommas, List.count_append, List.count_eq_zero_of_not_mem hcomma]
  rw [countCommas] at hcount
  unfold joinedTail at hcount ⊢
  split
  · next h => simp [h]
  · next h =>
    rw [if_neg h, groups_cons_blank isBlank_space, groups_intercalate h hargs,
      List.length_map] at hcount
    omega

end Mips32.Mnemonic
