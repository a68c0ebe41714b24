import ThreadForge.Lib.Clipping
import ThreadForge.Lib.SplitJoin
import ThreadForge.Pico.AgentLoop
import ThreadForge.Pico.ToolResults

/-!
# The exit code of a command, and the text that shows it

`_verify_done_when` runs a `cmd:` criterion through the executor and looks for `exit_code: 0` in the
text that comes back. A command that exited with code 0 shows that text (`contains_of_exit_zero`):
`dedent` and `strip` leave it, and the output is cut far behind it. The other direction fails, since
the text also holds what the command printed.
-/

namespace ThreadForge

open Eff AgentM

/-! ## The text of a shell result -/

section ShellText

variable {txt : PyText}

/-- The table does not take `e` or `0` for a blank. -/
structure ShowsExit (txt : PyText) : Prop where
  letter : txt.isSpace 'e' = false
  digit : txt.isSpace '0' = false

theorem isPrefix_commonStart : ∀ as bs : List Char, commonStart as bs <+: as
  | [], _ => List.nil_prefix
  | _ :: _, [] => List.nil_prefix
  | a :: as, b :: bs => by
    rw [commonStart]
    split
    · exact List.cons_prefix_cons.mpr ⟨rfl, isPrefix_commonStart as bs⟩
    · exact List.nil_prefix

theorem isPrefix_foldl_commonStart (rest : List (List Char)) :
    ∀ first : List Char, rest.foldl commonStart first <+: first := by
  induction rest with
  | nil => exact fun first => List.prefix_refl first
  | cons next rest ih =>
    exact fun first => (ih (commonStart first next)).trans (isPrefix_commonStart first next)

/-- `dedent` takes no more than blanks from the first line. -/
theorem toList_dedent {text : String} {first more : List Char}
    (htext : text.toList = first ++ '\n' :: more) (hline : '\n' ∉ first)
    (hsolid : first.all isBlankChar = false) :
    ∃ k rest, k ≤ (first.takeWhile isBlankChar).length ∧
      (dedent text).toList = first.drop k ++ '\n' :: rest := by
  have hjoin : ∀ (line : String) (lines : List String), lines ≠ [] → ∃ rest,
      (joinLines (line :: lines)).toList = line.toList ++ '\n' :: rest := by
    intro line lines hlines
    unfold joinLines
    rw [String.toList_intercalate, List.map_cons, List.intercalate_cons_of_ne_nil
      fun hnil => hlines (List.map_eq_nil_iff.mp hnil), List.append_assoc]
    exact ⟨_, rfl⟩
  have hfirst : first ≠ [] := by
    rintro rfl
    cases hsolid
  unfold dedent
  rw [PyChars.splitOn_eq, htext, List.splitOn_append_cons_self_of_not_mem hline, List.map_cons,
    if_neg (by simp [hsolid])]
  dsimp only
  rw [List.filter_cons_of_pos (by simpa using hfirst), List.map_cons]
  dsimp only
  rw [List.map_cons]
  generalize hmargin : List.foldl commonStart (first.takeWhile isBlankChar) _ = margin
  have hle : margin.length ≤ (first.takeWhile isBlankChar).length := by
    rw [← hmargin]
    exact (isPrefix_foldl_commonStart _ _).length_le
  generalize hlines : List.map (fun line : List Char => String.ofList (line.drop margin.length))
    (List.map _ (List.splitOn '\n' more)) = lines
  have hne : lines ≠ [] := by
    rw [← hlines, Ne, List.map_eq_nil_iff, List.map_eq_nil_iff]
    exact List.splitOn_ne_nil _ _
  obtain ⟨rest, hrest⟩ := hjoin (String.ofList (first.drop margin.length)) lines hne
  exact ⟨margin.length, rest, hle, by rw [hrest, String.toList_ofList]⟩

/-- What `tool_run_shell` returns starts with the exit code, on a line of its own. -/
theorem toList_shellText {result : ShellResult} {digits : List Char} {last : Char}
    (hletter : txt.isSpace 'e' = false) (hlast : txt.isSpace last = false)
    (hdigits : (toString result.returncode).toList = digits ++ [last])
    (hline : '\n' ∉ digits ++ [last]) (timeout : Nat) :
    ∃ k rest, k ≤ 8 ∧ (rest = [] ∨ ∃ more, rest = '\n' :: more) ∧
      (shellText txt timeout result).toList =
        List.replicate k ' ' ++ "exit_code: ".toList ++ (toString result.returncode).toList ++
          rest := by
  have hstart : ∀ more : String, ∃ k rest, k ≤ 8 ∧
      (dedent ("        exit_code: " ++ toString result.returncode ++ "\n" ++ more)).toList =
        List.replicate (8 - k) ' ' ++
          'e' :: (("xit_code: ".toList ++ digits) ++ last :: '\n' :: rest) := by
    intro more
    have hblanks : "        exit_code: ".toList =
        List.replicate 8 ' ' ++ 'e' :: "xit_code: ".toList := by decide
    have htext : ("        exit_code: " ++ toString result.returncode ++ "\n" ++ more).toList =
        (List.replicate 8 ' ' ++ 'e' :: ("xit_code: ".toList ++ (digits ++ [last]))) ++
          '\n' :: more.toList := by
      have hbreak : "\n".toList = ['\n'] := rfl
      rw [String.toList_append, String.toList_append, String.toList_append, hblanks, hdigits,
        hbreak]
      simp only [List.append_assoc, List.cons_append, List.nil_append]
    have hfirst : '\n' ∉ List.replicate 8 ' ' ++
        'e' :: ("xit_code: ".toList ++ (digits ++ [last])) := by
      rw [List.mem_append, List.mem_cons, List.mem_append]
      rintro (h | h | h | h)
      · exact absurd (List.eq_of_mem_replicate h) (by decide)
      · exact absurd h (by decide)
      · exact absurd h (by decide)
      · exact hline h
    have hsolid : (List.replicate 8 ' ' ++
        'e' :: ("xit_code: ".toList ++ (digits ++ [last]))).all isBlankChar = false := by
      rw [List.all_append, List.all_cons, show isBlankChar 'e' = false from by decide,
        Bool.false_and, Bool.and_false]
    obtain ⟨k, rest, hk, hdedent⟩ := toList_dedent htext hfirst hsolid
    have hk8 : k ≤ 8 := by
      have hblank : ∀ c ∈ List.replicate 8 ' ', isBlankChar c = true := by
        intro c hc
        rw [List.eq_of_mem_replicate hc]
        rfl
      have hsolid' : ¬isBlankChar 'e' = true := by decide
      rw [List.takeWhile_append_of_pos hblank, List.takeWhile_cons_of_neg hsolid',
        List.append_nil, List.length_replicate] at hk
      exact hk
    refine ⟨k, rest, hk8, ?_⟩
    rw [hdedent, List.drop_append_of_le_length (by rw [List.length_replicate]; exact hk8),
      List.drop_replicate]
    simp only [List.append_assoc, List.cons_append, List.nil_append]
  have hshown : ∃ more flags, shellText txt timeout result =
      pyStrip txt (dedent ("        exit_code: " ++ toString result.returncode ++ "\n" ++ more)) ++
        flags ∧ (flags = "" ∨ ∃ m, flags.toList = '\n' :: m) := by
    unfold shellText
    refine ⟨"        stdout:\n        " ++ shownStream txt result.stdout ++ "\n" ++
      "        stderr:\n        " ++ shownStream txt result.stderr ++ "\n" ++ "        ",
      (if result.timedOut then "\n[tool timed out after " ++ toString timeout ++ "s]" else "") ++
        (if result.outputTruncated then "\n[output truncated]" else ""), ?_, ?_⟩
    · simp only [String.append_assoc]
      rfl
    · have hcut : "\n[output truncated]".toList = '\n' :: "[output truncated]".toList := by decide
      have hstopped : "\n[tool timed out after ".toList =
          '\n' :: "[tool timed out after ".toList := by decide
      rcases result.timedOut with _ | _
      · rcases result.outputTruncated with _ | _
        · exact Or.inl rfl
        · exact Or.inr ⟨"[output truncated]".toList, hcut⟩
      · right
        rw [if_pos rfl, String.toList_append, String.toList_append, String.toList_append, hstopped]
        exact ⟨_, rfl⟩
  obtain ⟨more, flags, hshown, hflags⟩ := hshown
  obtain ⟨k, rest, hk, hdedent⟩ := hstart more
  obtain ⟨front, rest', hstrip, hfront, hrest⟩ :=
    toList_pyStrip_of_solid hletter hlast hdedent
  obtain ⟨hlen, hblank⟩ := List.suffix_replicate_iff.mp hfront
  refine ⟨front.length, rest' ++ flags.toList, by omega, ?_, ?_⟩
  · -- the line goes on with its end, or with nothing
    cases rest' with
    | nil =>
      rcases hflags with rfl | hflags
      · exact Or.inl rfl
      · exact Or.inr hflags
    | cons c rest' =>
      obtain ⟨rfl, -⟩ := List.cons_prefix_cons.mp hrest
      exact Or.inr ⟨_, rfl⟩
  · have hcode : "exit_code: ".toList = 'e' :: "xit_code: ".toList := by decide
    rw [hshown, String.toList_append, hstrip, hcode, hdigits, ← hblank]
    simp only [List.append_assoc, List.cons_append, List.nil_append]

/-- The text of a command that exited with code 0 shows the code near its start. -/
theorem toList_shellText_zero {timeout : Nat} {result : ShellResult} (htable : ShowsExit txt)
    (hexit : result.returncode = 0) :
    ∃ front rest, (shellText txt timeout result).toList =
      front ++ "exit_code: 0".toList ++ rest ∧ front.length ≤ 8 := by
  have hdigits : (toString result.returncode).toList = [] ++ ['0'] := by rw [hexit]; rfl
  obtain ⟨k, rest, hk, -, htext⟩ :=
    toList_shellText htable.letter htable.digit hdigits (by decide) timeout
  refine ⟨List.replicate k ' ', rest, ?_, by rw [List.length_replicate]; exact hk⟩
  have hcode : "exit_code: 0".toList = "exit_code: ".toList ++ ['0'] := by decide
  rw [htext, hdigits, hcode]
  simp only [List.append_assoc, List.nil_append]

end ShellText

/-! ## Running a criterion -/

theorem pyContains_of_toList {text sub : String} {front rest : List Char} (hne : sub.toList ≠ [])
    (htext : text.toList = front ++ sub.toList ++ rest) : pyContains text sub = true := by
  unfold pyContains
  rcases hbreak : PyChars.breakAt sub.toList text.toList with _ | parts
  · exact absurd ⟨front, rest, htext.symm⟩ ((PyChars.breakAt_eq_none_iff hne).mp hbreak)
  · rfl

/-- The text of a command that exited with code 0 shows it, also where the output is cut. -/
theorem contains_of_exit_zero {txt : PyText} {timeout : Nat} {result : ShellResult}
    (htable : ShowsExit txt) (hexit : result.returncode = 0) :
    pyContains (clipText (shellText txt timeout result) maxToolOutput) "exit_code: 0" = true := by
  obtain ⟨front, rest, htext, hlen⟩ : ∃ front rest, (shellText txt timeout result).toList =
      front ++ "exit_code: 0".toList ++ rest ∧ front.length ≤ 8 :=
    toList_shellText_zero htable hexit
  have hcode : "exit_code: 0".toList.length = 12 := by decide
  have hne : "exit_code: 0".toList ≠ [] := by decide
  unfold clipText
  split
  · exact pyContains_of_toList hne htext
  -- the cut is far behind the code
  · have hcut : (pyClip (shellText txt timeout result) maxToolOutput).toList =
        front ++ "exit_code: 0".toList ++
          rest.take (maxToolOutput - (front ++ "exit_code: 0".toList).length) := by
      rw [pyClip, String.toList_ofList, htext, List.take_append, List.take_of_length_le]
      rw [List.length_append, hcode]
      show front.length + 12 ≤ 4000
      omega
    have happend : ∀ more : String,
        (pyClip (shellText txt timeout result) maxToolOutput ++ more).toList =
          front ++ "exit_code: 0".toList ++
            (rest.take (maxToolOutput - (front ++ "exit_code: 0".toList).length) ++
              more.toList) := by
      intro more
      rw [String.toList_append, hcut, List.append_assoc]
    simp only [String.append_assoc]
    exact pyContains_of_toList hne (happend _)

variable {X : Type} {env : AgentEnv X}

/-- The arguments with which a `cmd:` criterion runs its command. -/
def commandArgs (command : String) : PyDict := [("command", .str command), ("timeout", .int 30)]

/-- A shell call whose command ran returns the text of the result, or raises what no handler of
the executor catches. -/
theorem runShell_cases {route : Route} {args : PyDict} {command : String} {timeout : Nat}
    {result : ShellResult} {s t : AgentState X} {w : World X} {r : Except Failure String}
    (hargs : shellArguments env.files args = .ok (command, timeout))
    (hshell : env.shell command timeout s.world = (.ok result, w))
    (h : (runShell env route args).run s = (r, t)) :
    r = .ok (shellText env.txt timeout result) ∨ ∃ e, r = .error e ∧ e.isError = false := by
  have harguments : (onFiles (Eff.ofExcept (shellArguments env.files args)) :
      AgentM X (String × Nat)).run s = (.ok (command, timeout), s) := by
    rw [hargs]
    rfl
  have hran : (outer (env.shell command timeout)).run s = (.ok result, { s with world := w }) := by
    unfold outer
    dsimp only
    rw [hshell]
  unfold runShell at h
  rw [run_bind_ok harguments] at h
  dsimp only at h
  rw [run_bind_ok hran] at h
  split at h
  · cases h
    exact Or.inr ⟨.cleanupFailed, rfl, rfl⟩
  split at h
  · cases h
    exact Or.inr ⟨.cancelled, rfl, rfl⟩
  · cases h
    exact Or.inl rfl

/-- What is left of a shell call that went well: the text of the result, cut to the limit. -/
theorem perform_runShell {name : PyValue} {call : ReadyCall env name} {command : String}
    {route : Route} {timeout : Nat} {args : PyDict} {result : ShellResult} {s t : AgentState X}
    {w : World X} {outcome : Except String String} (htool : call.tool = .runShell)
    (hargs : shellArguments env.files args = .ok (command, timeout))
    (hshell : env.shell command timeout s.world = (.ok result, w))
    (h : (perform env route call args).run s = (.ok outcome, t)) :
    outcome = .ok (clipText (shellText env.txt timeout result) maxToolOutput) := by
  unfold perform at h
  rw [htool, run_tryExcept] at h
  rcases hrun : (runTool env route .runShell args).run s with ⟨r, u⟩
  have hstarted : (note (.started route .runShell)).run s =
      (.ok (), { s with log := s.log ++ [.started route .runShell] }) := run_modify _ _
  have hshelled := hrun
  unfold runTool at hshelled
  rw [run_bind_ok hstarted, if_pos rfl] at hshelled
  generalize hmarked : ({ s with log := s.log ++ [.started route .runShell] } :
    AgentState X) = marked at hshelled
  have hworld : marked.world = s.world := by rw [← hmarked]
  rw [← hworld] at hshell
  rcases runShell_cases hargs hshell hshelled with rfl | ⟨e, rfl, hpassed⟩
  · rw [run_bind_ok hrun] at h
    cases h
    rfl
  · rw [run_bind_error hrun] at h
    dsimp only at h
    rw [if_neg (by rw [hpassed]; exact Bool.false_ne_true)] at h
    cases h

end ThreadForge
