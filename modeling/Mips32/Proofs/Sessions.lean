import Mathlib.Data.List.Basic
import Mathlib.Data.List.TakeWhile
import Mips32.Console.Invocation
import Mips32.Proofs.Words

namespace Mips32.Console

open Text

namespace Line

def Quits (shell : Shell) : Line → Prop
  | text content => (¬∀ c ∈ content, isBlank c) ∧ shell.reader (words content) = .ok .quit
  | unreadable _ => False

/-- A line that is no command, and what is printed for it. -/
inductive Idle (shell : Shell) : Line → List String → Prop
  | blank {content : Text} (h : ∀ c ∈ content, isBlank c) : Idle shell (text content) []
  | rejected {content : Text} {printed : List String} (hsome : ¬∀ c ∈ content, isBlank c)
      (h : shell.reader (words content) = .error printed) : Idle shell (text content) printed
  | unreadable (error : String) :
      Idle shell (unreadable error) ["Error reading line: " ++ error]

variable {shell : Shell} {content : Text}

theorem reply_of_blank (h : ∀ c ∈ content, isBlank c) :
    (text content).reply shell = ⟨[], false⟩ := by
  rw [reply, trim_eq_nil_iff.2 h]
  rfl

theorem reply_of_not_blank (hsome : ¬∀ c ∈ content, isBlank c) :
    (text content).reply shell = match shell.reader (words content) with
      | .ok command => command.reply shell.instructions
      | .error printed => ⟨printed, false⟩ := by
  have hne : ¬(trim content).isEmpty := by rwa [List.isEmpty_iff, trim_eq_nil_iff]
  cases hread : shell.reader (words content) <;>
    simp only [reply, if_neg hne, words_trim, hread]

theorem reply_of_command (hsome : ¬∀ c ∈ content, isBlank c) {command : Command}
    (h : shell.reader (words content) = .ok command) :
    (text content).reply shell = command.reply shell.instructions := by
  rw [reply_of_not_blank hsome, h]

theorem reply_of_rejection (hsome : ¬∀ c ∈ content, isBlank c) {printed : List String}
    (h : shell.reader (words content) = .error printed) :
    (text content).reply shell = ⟨printed, false⟩ := by
  rw [reply_of_not_blank hsome, h]

theorem Idle.reply_eq {line : Line} {own : List String} (h : line.Idle shell own) :
    line.reply shell = ⟨own, false⟩ := by
  cases h with
  | blank h => exact reply_of_blank h
  | rejected hsome h => exact reply_of_rejection hsome h
  | unreadable error => rfl

theorem Quits.reply_eq {line : Line} (h : line.Quits shell) : line.reply shell = ⟨[], true⟩ := by
  cases line with
  | unreadable error => contradiction
  | text content => exact reply_of_command h.1 h.2

theorem quits_reply_iff (line : Line) : (line.reply shell).quits ↔ line.Quits shell := by
  refine ⟨?_, fun h ↦ by rw [h.reply_eq]⟩
  cases line with
  | unreadable error => simp [reply]
  | text content =>
    by_cases hblank : ∀ c ∈ content, isBlank c
    · simp [reply_of_blank hblank]
    cases hread : shell.reader (words content) with
    | error printed => simp [reply_of_rejection hblank hread]
    | ok command =>
      rw [reply_of_command hblank hread]
      cases command with
      | quit => exact fun _ ↦ ⟨hblank, hread⟩
      | _ => simp [Command.reply]

theorem quits_reply_eq_false_iff (line : Line) :
    (line.reply shell).quits = false ↔ ¬line.Quits shell := by
  rw [← quits_reply_iff, Bool.not_eq_true]

theorem split_append {input : List UInt8} (h : input.getLast? = some 10) (rest : List UInt8) :
    split (input ++ rest) = split input ++ split rest := by
  obtain ⟨front, rfl⟩ := List.getLast?_eq_some_iff.1 h
  have hsplit (after : List UInt8) :
      (front ++ 10 :: after).splitOn 10 = front.splitOn 10 ++ after.splitOn 10 := by
    simp only [List.splitOn_eq_splitOnP]
    exact List.splitOnP_append_cons front after (by simp)
  have hfront : split (front ++ [10]) = (front.splitOn 10).map ofBytes := by
    simp [split, hsplit]
  have hne : rest.splitOn 10 ≠ [] := List.splitOn_ne_nil 10 rest
  have hlast : (front.splitOn 10 ++ rest.splitOn 10).getLast? = (rest.splitOn 10).getLast? :=
    List.getLast?_append_of_ne_nil _ hne
  rw [hfront, List.append_assoc, List.singleton_append, split, split, hsplit]
  simp only [hlast, List.dropLast_append_of_ne_nil hne]
  split <;> rw [List.map_append]

end Line

namespace Session

variable (shell : Shell)

theorem run_cons (line : Line) (rest : List Line) :
    run shell (line :: rest) = (line.reply shell).output ++
      if (line.reply shell).quits then [] else run shell rest := by
  rw [run]
  split <;> simp [*]

/-- A session prints what each line prints on its own, up to the line that ends it. -/
theorem run_eq_flatMap (lines : List Line) :
    run shell lines = (lines.takeWhile fun line ↦ !(line.reply shell).quits).flatMap fun line ↦
      (line.reply shell).output := by
  induction lines with
  | nil => rfl
  | cons line rest ih =>
    rw [run_cons, ih]
    cases hquits : (line.reply shell).quits with
    | false => simp [hquits]
    | true => simp [((Line.quits_reply_iff line).1 hquits).reply_eq]

theorem run_append_of_not_quits {a : List Line} (h : ∀ line ∈ a, ¬line.Quits shell)
    (b : List Line) : run shell (a ++ b) = run shell a ++ run shell b := by
  have hgoes : ∀ line ∈ a, (!(line.reply shell).quits) = true := by
    intro line hline
    rw [(Line.quits_reply_eq_false_iff line).2 (h line hline)]
    rfl
  rw [run_eq_flatMap, List.takeWhile_append_of_pos hgoes, List.flatMap_append, run_eq_flatMap,
    run_eq_flatMap, List.takeWhile_eq_self_iff.2 hgoes]

theorem run_append_of_quits {a : List Line} (h : ∃ line ∈ a, line.Quits shell) (b : List Line) :
    run shell (a ++ b) = run shell a := by
  obtain ⟨line, hline, hquits⟩ := h
  rw [run_eq_flatMap, List.takeWhile_append, if_neg, ← run_eq_flatMap]
  intro hlength
  have hself := (List.takeWhile_prefix _).eq_of_length hlength
  have hgoes := List.takeWhile_eq_self_iff.1 hself line hline
  rw [(Line.quits_reply_iff line).2 hquits] at hgoes
  contradiction

/-- However a shell reads the words of a line, what a session prints for some lines depends on
nothing before them but a line that ends it. Lines that are no command print what they print
alone, and the session goes on. The lines of an input are those of its parts. -/
theorem run_line_by_line (a b : List Line) :
    ((∀ line ∈ a, ¬line.Quits shell) → run shell (a ++ b) = run shell a ++ run shell b) ∧
    ((∃ line ∈ a, line.Quits shell) → run shell (a ++ b) = run shell a) ∧
    (∀ line own, line.Idle shell own → (∀ other ∈ a, ¬other.Quits shell) →
      run shell (a ++ line :: b) = run shell a ++ own ++ run shell b) ∧
    ∀ input rest, input.getLast? = some 10 → Line.split input = a → Line.split rest = b →
      Line.split (input ++ rest) = a ++ b := by
  refine ⟨fun h ↦ run_append_of_not_quits shell h b, fun h ↦ run_append_of_quits shell h b, ?_, ?_⟩
  · intro line own hidle ha
    rw [run_append_of_not_quits shell ha, run_cons, hidle.reply_eq]
    simp
  · intro input rest hinput ha hb
    rw [Line.split_append hinput, ha, hb]

example :
    run (.ofHelp fun words ↦ if words = ["help".toList] then some ["Commands:"] else none)
      [.text "help".toList, .text "q".toList, .text "list".toList] = ["Commands:"] := rfl

theorem run_mixed_lines :
    ¬Line.Quits .standard (.text "d 0".toList) ∧ Line.Quits .standard (.text " q\r".toList) ∧
    run .standard [.text "d 0".toList, .text " q\r".toList] =
      run .standard [.text "d 0".toList] ++ run .standard [.text " q\r".toList] ∧
    run .standard [.text " q\r".toList, .text "list".toList] =
      run .standard [.text " q\r".toList] ∧
    Line.Idle .standard (.text "step".toList) [] ∧
    run .standard [.text "d 0".toList, .text "step".toList, .text "list".toList] =
      run .standard [.text "d 0".toList] ++ [] ++ run .standard [.text "list".toList] ∧
    run .standard [.text "d 0".toList, .unreadable "stream did not contain valid UTF-8",
        .text "list".toList] =
      run .standard [.text "d 0".toList] ++
        ["Error reading line: stream did not contain valid UTF-8"] ++
        run .standard [.text "list".toList] ∧
    Line.split [108, 10, 113] = Line.split [108, 10] ++ Line.split [113] := by
  have hshow : ¬Line.Quits .standard (.text "d 0".toList) := by
    intro h
    have hparse : Shell.standard.reader (words "d 0".toList) = .ok (.decode [0#32]) := rfl
    exact Command.noConfusion (Except.ok.inj (hparse.symm.trans h.2))
  have hquit : Line.Quits .standard (.text " q\r".toList) :=
    ⟨fun h ↦ absurd (h 'q' (by decide)) (by decide), rfl⟩
  have hstep : Line.Idle .standard (.text "step".toList) [] :=
    .rejected (fun h ↦ absurd (h 's' (by decide)) (by decide)) rfl
  have hshowAll : ∀ line ∈ [Line.text "d 0".toList], ¬line.Quits .standard := by simpa using hshow
  have hquitSome : ∃ line ∈ [Line.text " q\r".toList], line.Quits .standard :=
    ⟨_, List.mem_singleton_self _, hquit⟩
  refine ⟨hshow, hquit, (run_line_by_line .standard _ _).1 hshowAll, ?_, hstep, ?_, ?_, ?_⟩
  · exact (run_line_by_line .standard _ [.text "list".toList]).2.1 hquitSome
  · exact (run_line_by_line .standard _ [.text "list".toList]).2.2.1 _ _ hstep hshowAll
  · exact (run_line_by_line .standard _ [.text "list".toList]).2.2.1 _ _ (.unreadable _) hshowAll
  · exact (run_line_by_line .standard _ _).2.2.2 [108, 10] [113] rfl rfl rfl

end Session

end Mips32.Console
