import ThreadForge.Pico.CommandExit
import ThreadForge.Pico.Review

/-!
# Three readers of one shell result

`tool_run_shell` prints the exit code and the streams of a command into one text, and the executor
cuts it. Three places read from this text whether the command went well: the executor looks for the
first exit code and for the notice of a timeout, the `cmd:` check and the review for
`exit_code: 0` anywhere.

## Main results

* `exitCodeOf_shellText` : the first exit code in the text is 0 exactly where the command's is
* `shell_success_iff` : exactly when each of the three reads a result right
-/

namespace ThreadForge

open Eff AgentM

/-! ## The digits of an exit code -/

section Digits

/-- What the table of characters says of a printed number. -/
structure ExitTable (txt : PyText) : Prop where
  letter : txt.isSpace 'e' = false
  blank : txt.isSpace ' ' = true
  minus : txt.isSpace '-' = false
  newline : txt.digit '\n' = none
  digit : ∀ c : Char, c.isDigit = true →
    txt.isSpace c = false ∧ txt.digit c = some (c.toNat - '0'.toNat)

theorem ExitTable.digit_newline {txt : PyText} (htable : ExitTable txt) :
    ¬(txt.digit '\n').isSome = true := by
  rw [htable.newline]
  exact Bool.false_ne_true

/-- The text of a number ends with a digit and holds no line end. -/
theorem toString_int_last (n : Int) :
    ∃ digits last, (toString n).toList = digits ++ [last] ∧ last.isDigit = true ∧
      '\n' ∉ digits ++ [last] := by
  have hdigits : ∀ c ∈ Nat.toDigits 10 n.natAbs, c.isDigit = true :=
    fun c hc => Nat.isDigit_of_mem_toDigits (by decide) (by decide) hc
  have hne : Nat.toDigits 10 n.natAbs ≠ [] := Nat.toDigits_ne_nil
  refine ⟨(if n < 0 then ['-'] else []) ++ (Nat.toDigits 10 n.natAbs).dropLast,
    (Nat.toDigits 10 n.natAbs).getLast hne, ?_, hdigits _ (List.getLast_mem hne), ?_⟩
  · rw [toString_int, List.append_assoc, List.dropLast_append_getLast]
  · rw [List.append_assoc, List.dropLast_append_getLast, List.mem_append]
    rintro (hsign | hdigit)
    · split at hsign
      · exact absurd hsign (by decide)
      · exact absurd hsign List.not_mem_nil
    · exact absurd (hdigits '\n' hdigit) (by decide)

/-- More digits do not make a number 0. -/
theorem digitsValue_pos {txt : PyText} :
    ∀ (cs : List Char) (n : Nat), (∀ c ∈ cs, (txt.digit c).isSome) → 0 < n →
      ∃ m, PyValue.digitsValue txt cs (some n) = some m ∧ 0 < m := by
  intro cs n hcs hn
  generalize hacc : some n = acc
  induction cs, acc using PyValue.digitsValue.induct generalizing n with
  | case1 acc => exact ⟨n, hacc.symm, hn⟩
  | case2 c cs n' ih =>
    cases hacc
    obtain ⟨d, hd⟩ := Option.isSome_iff_exists.mp
      (hcs c (List.mem_cons_of_mem _ List.mem_cons_self))
    rw [PyValue.digitsValue, hd, Option.bind_some]
    exact ih d (10 * n' + d)
      (fun x hx => hcs x (List.mem_cons_of_mem _ (List.mem_cons_of_mem _ hx))) (by omega) rfl
  | case3 c cs acc hnot ih =>
    subst hacc
    obtain ⟨d, hd⟩ := Option.isSome_iff_exists.mp (hcs c List.mem_cons_self)
    rw [PyValue.digitsValue, hd, Option.bind_some]
    · exact ih d (10 * n + d) (fun x hx => hcs x (List.mem_cons_of_mem _ hx)) (by omega) rfl
    · exact hnot

/-- The value of a digit that is not 0, and of what follows it. -/
theorem digitsValue_head {txt : PyText} (htable : ExitTable txt) {c : Char}
    (hdigit : c.isDigit = true) (hc : c ≠ '0') (cs : List Char) :
    ∃ m, 0 < m ∧ PyValue.digitsValue txt ((c :: cs).takeWhile fun c => (txt.digit c).isSome) none =
      some m := by
  have hd := (htable.digit c hdigit).2
  have hpos : 0 < c.toNat - '0'.toNat := by
    have hrange := Char.isDigit_iff_toNat.mp hdigit
    have hne : c.toNat ≠ '0'.toNat := fun h => hc (Char.toNat_inj.mp h)
    have hzero : '0'.toNat = 48 := rfl
    omega
  rw [List.takeWhile_cons_of_pos (by rw [hd]; rfl), PyValue.digitsValue, hd, Option.bind_some]
  · obtain ⟨m, hm, hmpos⟩ := digitsValue_pos (cs.takeWhile fun c => (txt.digit c).isSome)
      (10 * 0 + (c.toNat - '0'.toNat))
      (fun x hx => List.mem_takeWhile_imp (p := fun c => (txt.digit c).isSome) hx) (by omega)
    exact ⟨m, hmpos, hm⟩
  · intro _ _ _ h
    cases h

end Digits

/-! ## The first exit code -/

section ExitCode

variable {txt : PyText} {timeout : Nat} {result : ShellResult}

/-- Where the text of a command is cut. -/
theorem toList_clipText {text : String} {front rest : List Char}
    (htext : text.toList = front ++ rest) (hfront : front.length ≤ 19) :
    ∃ k tail, 3981 ≤ k ∧ (tail = [] ∨ ∃ more, tail = '\n' :: more) ∧
      (clipText text maxToolOutput).toList = front ++ (rest.take k ++ tail) := by
  unfold clipText
  split
  · next hfits =>
    have hlen : text.length = front.length + rest.length := by
      rw [← String.length_toList, htext, List.length_append]
    refine ⟨rest.length + 3981, [], by omega, Or.inl rfl, ?_⟩
    rw [htext, List.take_of_length_le (by omega), List.append_nil]
  · have hnotice : "\n...[truncated ".toList = '\n' :: "...[truncated ".toList := by decide
    have hmax : maxToolOutput = 4000 := rfl
    refine ⟨maxToolOutput - front.length, '\n' :: ("...[truncated ".toList ++
      ((toString (text.length - maxToolOutput)).toList ++ " chars]".toList)), by omega,
      Or.inr ⟨_, rfl⟩, ?_⟩
    rw [String.toList_append, String.toList_append, String.toList_append, pyClip,
      String.toList_ofList, htext, List.take_append, List.take_of_length_le (by omega), hnotice]
    simp only [List.append_assoc, List.cons_append]

theorem exitCodeOf_blanks (cs : List Char) :
    ∀ k, exitCodeOf txt (List.replicate k ' ' ++ cs) = exitCodeOf txt cs
  | 0 => rfl
  | k + 1 => by
    have hnone : exitCodeAt txt (' ' :: (List.replicate k ' ' ++ cs)) = none := by
      rw [exitCodeAt, if_neg]
      exact Bool.false_ne_true
    rw [List.replicate_succ, List.cons_append, exitCodeOf, hnone, Option.getD_none,
      exitCodeOf_blanks cs k]

theorem exitCodeAt_digit (htable : ExitTable txt) {c : Char} (hdigit : c.isDigit = true)
    (cs : List Char) :
    exitCodeAt txt ("exit_code: ".toList ++ c :: cs) =
      (PyValue.digitsValue txt ((c :: cs).takeWhile fun c => (txt.digit c).isSome) none).map
        fun n => (n : Int) := by
  have hminus : c ≠ '-' := by
    rintro rfl
    exact absurd hdigit (by decide)
  have hvalue : (("exit_code: ".toList ++ c :: cs).drop 10).dropWhile txt.isSpace = c :: cs := by
    show (' ' :: c :: cs).dropWhile txt.isSpace = c :: cs
    rw [List.dropWhile_cons_of_pos htable.blank, List.dropWhile_cons_of_neg]
    rw [(htable.digit c hdigit).1]
    exact Bool.false_ne_true
  unfold exitCodeAt
  rw [if_pos (show "exit_code:".toList.isPrefixOf ("exit_code: ".toList ++ c :: cs) = true
    from rfl)]
  dsimp only
  rw [hvalue]
  split
  · next h =>
    exact absurd (List.cons.inj h).1 hminus
  · rfl

theorem exitCodeAt_negative (htable : ExitTable txt) (cs : List Char) :
    exitCodeAt txt ("exit_code: ".toList ++ '-' :: cs) =
      (PyValue.digitsValue txt (cs.takeWhile fun c => (txt.digit c).isSome) none).map
        fun n => -(n : Int) := by
  have hvalue : (("exit_code: ".toList ++ '-' :: cs).drop 10).dropWhile txt.isSpace =
      '-' :: cs := by
    show (' ' :: '-' :: cs).dropWhile txt.isSpace = '-' :: cs
    rw [List.dropWhile_cons_of_pos htable.blank, List.dropWhile_cons_of_neg]
    rw [htable.minus]
    exact Bool.false_ne_true
  unfold exitCodeAt
  rw [if_pos (show "exit_code:".toList.isPrefixOf ("exit_code: ".toList ++ '-' :: cs) = true
    from rfl)]
  dsimp only
  rw [hvalue]
  rfl

/-- The first exit code in the text is 0 exactly where the command's is, wherever the text is
cut. -/
theorem exitCodeOf_shellText (htable : ExitTable txt) :
    exitCodeOf txt (clipText (shellText txt timeout result) maxToolOutput).toList = 0 ↔
      result.returncode = 0 := by
  obtain ⟨digits, last, hdigits, hlast, hline⟩ := toString_int_last result.returncode
  obtain ⟨k, rest, hk, hrest, htext⟩ :=
    toList_shellText htable.letter (htable.digit last hlast).1 hdigits hline timeout
  have hfront : (List.replicate k ' ' ++ "exit_code: ".toList).length ≤ 19 := by
    rw [List.length_append, List.length_replicate]
    show k + 11 ≤ 19
    omega
  rw [List.append_assoc] at htext
  obtain ⟨room, tail, hroom, htail, hclip⟩ := toList_clipText htext hfront
  have hdigit : ∀ c ∈ Nat.toDigits 10 result.returncode.natAbs, c.isDigit = true :=
    fun c hc => Nat.isDigit_of_mem_toDigits (by decide) (by decide) hc
  have hcode : ∀ c cs n, exitCodeAt txt ("exit_code: ".toList ++ c :: cs) = some n →
      exitCodeOf txt ("exit_code: ".toList ++ c :: cs) = n := by
    intro c cs n h
    show exitCodeOf txt ('e' :: ("xit_code: ".toList ++ c :: cs)) = n
    rw [exitCodeOf]
    show (exitCodeAt txt ("exit_code: ".toList ++ c :: cs)).getD _ = n
    rw [h, Option.getD_some]
  obtain ⟨room, rfl⟩ : ∃ n, room = n + 2 := ⟨room - 2, by omega⟩
  rw [hclip, List.append_assoc, exitCodeOf_blanks, toString_int]
  rcases lt_trichotomy result.returncode 0 with hneg | hzero | hpos
  · -- a sign, and a digit that is not 0
    obtain ⟨c, cs, hhead, hc⟩ := toDigits_head result.returncode.natAbs (by omega)
    rw [if_pos hneg, hhead, List.cons_append, List.nil_append, List.cons_append, List.cons_append,
      List.take_succ_cons, List.take_succ_cons, List.cons_append, List.cons_append]
    obtain ⟨m, hm, hvalue⟩ := digitsValue_head htable
      (hdigit c (by rw [hhead]; exact List.mem_cons_self)) hc ((cs ++ rest).take room ++ tail)
    rw [hcode _ _ (-(m : Int)) ?_]
    · omega
    · rw [exitCodeAt_negative htable, hvalue]
      rfl
  · -- the digit 0, and the end of the line
    have hends : ∀ cs : List Char, (cs = [] ∨ ∃ more, cs = '\n' :: more) →
        cs.takeWhile (fun c => (txt.digit c).isSome) = [] := by
      rintro cs (rfl | ⟨more, rfl⟩)
      · rfl
      · exact List.takeWhile_cons_of_neg htable.digit_newline
    have hmore : rest.take (room + 1) ++ tail = [] ∨
        ∃ more, rest.take (room + 1) ++ tail = '\n' :: more := by
      rcases hrest with rfl | ⟨more, rfl⟩
      · rw [List.take_nil, List.nil_append]
        exact htail
      · exact Or.inr ⟨_, rfl⟩
    have hvalue := (htable.digit '0' (by decide)).2
    rw [if_neg (by omega), hzero, List.nil_append, Int.natAbs_zero, Nat.toDigits_zero,
      List.cons_append, List.nil_append, List.take_succ_cons, List.cons_append]
    rw [hcode _ _ 0 ?_]
    rw [exitCodeAt_digit htable (by decide), List.takeWhile_cons_of_pos (by rw [hvalue]; rfl),
      hends _ hmore, PyValue.digitsValue, hvalue]
    · rfl
    · intro _ _ _ h
      cases h
  · obtain ⟨c, cs, hhead, hc⟩ := toDigits_head result.returncode.natAbs (by omega)
    have hcdigit := hdigit c (by rw [hhead]; exact List.mem_cons_self)
    rw [if_neg (by omega), hhead, List.nil_append, List.cons_append, List.take_succ_cons,
      List.cons_append]
    obtain ⟨m, hm, hvalue⟩ := digitsValue_head htable hcdigit hc
      ((cs ++ rest).take (room + 1) ++ tail)
    rw [hcode _ _ (m : Int) ?_]
    · omega
    · rw [exitCodeAt_digit htable hcdigit, hvalue]
      rfl

end ExitCode

/-! ## What the text shows -/

section Shown

variable {txt : PyText} {timeout : Nat} {result : ShellResult}

/-- A text stands in the first 4000 characters of what `tool_run_shell` prints. -/
def Shows (txt : PyText) (timeout : Nat) (result : ShellResult) (text : String) : Prop :=
  pyContains (pyClip (shellText txt timeout result) maxToolOutput) text = true

theorem pyContains_iff {text sub : String} (hne : sub.toList ≠ []) :
    pyContains text sub = true ↔ sub.toList <:+: text.toList := by
  have hnone : PyChars.breakAt sub.toList text.toList = none ↔ ¬sub.toList <:+: text.toList :=
    PyChars.breakAt_eq_none_iff hne
  unfold pyContains
  rcases hbreak : PyChars.breakAt sub.toList text.toList with _ | parts
  · exact ⟨fun h => absurd h Bool.false_ne_true, fun h => absurd h (hnone.mp hbreak)⟩
  · refine ⟨fun _ => ?_, fun _ => rfl⟩
    by_contra hnot
    rw [hnone.mpr hnot] at hbreak
    exact absurd hbreak (Option.some_ne_none parts).symm

/-- A text of one line does not run across the end of a line. -/
theorem infix_append_newline {sub front behind : List Char} (hline : '\n' ∉ sub) :
    sub <:+: front ++ '\n' :: behind ↔ sub <:+: front ∨ sub <:+: behind := by
  constructor
  · intro h
    rcases List.infix_append_iff.mp h with hin | hin | ⟨l₁, l₂, rfl, hfront, hbehind⟩
    · exact Or.inl hin
    · rcases List.infix_cons_iff.mp hin with hstart | hlater
      · cases sub with
        | nil => exact Or.inl List.nil_infix
        | cons c sub =>
          obtain ⟨rfl, -⟩ := List.cons_prefix_cons.mp hstart
          exact absurd List.mem_cons_self hline
      · exact Or.inr hlater
    · cases l₂ with
      | nil => exact Or.inl (by rw [List.append_nil]; exact hfront.isInfix)
      | cons c l₂ =>
        obtain ⟨rfl, -⟩ := List.cons_prefix_cons.mp hbehind
        exact absurd (List.mem_append_right l₁ List.mem_cons_self) hline
  · rintro (hin | hin)
    · exact hin.trans (List.prefix_append _ _).isInfix
    · exact hin.trans ((List.suffix_cons _ _).trans (List.suffix_append _ _)).isInfix

/-- The notice of the cut shows no text with a letter that it does not have. -/
theorem contains_clipText_iff {text sub : String} {c : Char} (hline : '\n' ∉ sub.toList)
    (hc : c ∈ sub.toList) (hdigit : c.isDigit = false)
    (hnotice : c ∉ "...[truncated ".toList ++ " chars]".toList) :
    pyContains (clipText text maxToolOutput) sub = true ↔
      pyContains (pyClip text maxToolOutput) sub = true := by
  have hne : sub.toList ≠ [] := List.ne_nil_of_mem hc
  unfold clipText
  split
  · next hfits => rw [pyClip_of_length_le hfits]
  · have hbreak : "\n...[truncated ".toList = '\n' :: "...[truncated ".toList := by decide
    rw [List.mem_append, not_or] at hnotice
    rw [pyContains_iff hne, pyContains_iff hne, String.toList_append, String.toList_append,
      String.toList_append, hbreak, List.append_assoc, List.append_assoc, List.cons_append,
      infix_append_newline hline]
    refine or_iff_left fun hin => ?_
    have hmem := hin.subset hc
    rw [List.mem_append, List.mem_append] at hmem
    rcases hmem with hstart | hnumber | hend
    · exact hnotice.1 hstart
    · have hnat : (toString (text.length - maxToolOutput)).toList =
          Nat.toDigits 10 (text.length - maxToolOutput) := Nat.toList_repr
      rw [hnat] at hnumber
      rw [Nat.isDigit_of_mem_toDigits (by decide) (by decide) hnumber] at hdigit
      exact absurd hdigit.symm Bool.false_ne_true
    · exact hnotice.2 hend

theorem contains_timeout_iff :
    pyContains (clipText (shellText txt timeout result) maxToolOutput) "[tool timed out" = true ↔
      Shows txt timeout result "[tool timed out" :=
  contains_clipText_iff (c := 'o') (by decide) (by decide) (by decide) (by decide)

theorem contains_success_iff :
    pyContains (clipText (shellText txt timeout result) maxToolOutput) "exit_code: 0" = true ↔
      Shows txt timeout result "exit_code: 0" :=
  contains_clipText_iff (c := '_') (by decide) (by decide) (by decide) (by decide)

end Shown

/-! ## The three readers -/

section Readers

variable {X : Type} {env : AgentEnv X}

/-- The command of a shell call ran: it was not cancelled, and left no process. -/
structure ShellRan (env : AgentEnv X) (args : PyDict) (s : AgentState X) (timeout : Nat)
    (result : ShellResult) : Prop where
  ran : ∃ command w, shellArguments env.files args = .ok (command, timeout) ∧
    env.shell command timeout s.world = (.ok result, w)
  cleaned : result.cleanupSucceeded = true
  kept : result.cancelled = false

/-- The command exited with code 0 in time. -/
def ShellResult.Succeeded (result : ShellResult) : Prop :=
  result.returncode = 0 ∧ result.timedOut = false

theorem concludeReturned_status {name : PyValue} {call : ReadyCall env name} {args : PyDict}
    {content : String} {s t : AgentState X} {result : ToolResult}
    (h : (concludeReturned env call args content).run s = (.ok result, t)) :
    ∃ changed, result.status = (statusOf env call.tool content changed).1 := by
  unfold concludeReturned at h
  obtain ⟨s', _, _, h⟩ := bind_eq_ok h
  dsimp only at h
  obtain ⟨_, _, _, h⟩ := bind_eq_ok h
  obtain ⟨_, _, _, h⟩ := bind_eq_ok h
  obtain ⟨_, _, _, h⟩ := bind_eq_ok h
  cases h
  exact ⟨_, rfl⟩

theorem tool_of_runShell (call : ReadyCall env (.str "run_shell")) : call.tool = .runShell := by
  have hnamed := PyValue.str.inj call.named
  have hfound := ToolName.ofText?_text call.tool
  rw [← hnamed] at hfound
  exact (Option.some.inj hfound).symm

/-- What the executor returns of a command that ran. -/
theorem execute_runShell {route : Route} {args : PyDict} {s u t : AgentState X} {timeout : Nat}
    {call : ReadyCall env (.str "run_shell")} {result : ShellResult} {res : ToolResult}
    (hadmitted : (admitCall env (.str "run_shell") args).run s = (.ok (.inr call), u))
    (hran : ShellRan env args u timeout result)
    (h : (ToolExecutor.execute env route (.str "run_shell") args).run s = (.ok res, t)) :
    res.content = clipText (shellText env.txt timeout result) maxToolOutput ∧
      ∃ changed, res.status = (statusOf env .runShell res.content changed).1 := by
  obtain ⟨command, w, hargs, hshell⟩ := hran.ran
  have htool := tool_of_runShell call
  unfold ToolExecutor.execute at h
  rw [run_bind_ok hadmitted] at h
  obtain ⟨outcome, v, hperform, hconclude⟩ := bind_eq_ok h
  rw [perform_runShell htool hargs hshell hperform] at hconclude
  have hcontent := concludeReturned_ok hconclude
  obtain ⟨changed, hstatus⟩ := concludeReturned_status hconclude
  rw [htool] at hstatus
  exact ⟨hcontent, changed, by rw [hstatus, hcontent]⟩

/-- The executor reports success where the first exit code is 0 and no timeout is shown. -/
theorem statusOf_ok_iff {content : String} {changed : Bool} :
    (statusOf env .runShell content changed).1 = .ok ↔
      ¬pyContains content "[tool timed out" = true ∧ exitCodeOf env.txt content.toList = 0 := by
  unfold statusOf
  rw [if_neg fun h => h rfl]
  by_cases htimeout : pyContains content "[tool timed out" = true
  · rw [if_pos htimeout]
    refine ⟨fun h => ?_, fun h => absurd htimeout h.1⟩
    rcases changed with _ | _
    · cases h
    · cases h
  rw [if_neg htimeout]
  by_cases hexit : exitCodeOf env.txt content.toList = 0
  · rw [if_pos hexit]
    exact ⟨fun _ => ⟨htimeout, hexit⟩, fun _ => rfl⟩
  · rw [if_neg hexit]
    refine ⟨fun h => ?_, fun h => absurd h.2 hexit⟩
    rcases changed with _ | _
    · cases h
    · cases h

/-- What the review gets of a command that ran. -/
theorem executeReviewTool_runShell {args : PyDict} {s t : AgentState X} {timeout : Nat}
    {result : ShellResult} {content : String}
    (htool : toolNamed env (.str "run_shell") = some .runShell)
    (hran : ShellRan env args s timeout result)
    (h : (executeReviewTool env "run_shell" (.dict args)).run s = (.ok content, t)) :
    content = clipText (shellText env.txt timeout result) maxToolOutput := by
  obtain ⟨command, w, hargs, hshell⟩ := hran.ran
  have hvalid : (onFiles (validateTool env.files .runShell args) : AgentM X Unit).run s =
      (.ok (), s) := by
    have hrun : (onFiles (validateTool env.files .runShell args) : AgentM X Unit) =
        onFiles (Eff.ofExcept (shellArguments env.files args) >>= fun _ => pure ()) := rfl
    rw [hrun, hargs]
    rfl
  have hstarted : (note (.started .review .runShell)).run s =
      (.ok (), { s with log := s.log ++ [.started .review .runShell] }) := run_modify _ _
  have hrun : (runTool env .review .runShell args).run s =
      (.ok (shellText env.txt timeout result), { s with
        log := s.log ++ [.started .review .runShell], world := w }) := by
    unfold runTool
    rw [run_bind_ok hstarted, if_pos rfl]
    unfold runShell
    have harguments : (onFiles (Eff.ofExcept (shellArguments env.files args)) :
        AgentM X (String × Nat)).run { s with log := s.log ++ [.started .review .runShell] } =
        (.ok (command, timeout), { s with log := s.log ++ [.started .review .runShell] }) := by
      rw [hargs]
      rfl
    rw [run_bind_ok harguments]
    dsimp only
    have houter : (outer (env.shell command timeout)).run
        { s with log := s.log ++ [.started .review .runShell] } =
        (.ok result, { s with log := s.log ++ [.started .review .runShell], world := w }) := by
      unfold outer
      dsimp only
      rw [hshell]
    rw [run_bind_ok houter, hran.cleaned, hran.kept]
    rfl
  have hwhole : (validateAndRun env .runShell (.dict args)).run s =
      (.ok (clipText (shellText env.txt timeout result) maxToolOutput), { s with
        log := s.log ++ [.started .review .runShell], world := w }) := by
    unfold validateAndRun
    dsimp only
    rw [run_bind_ok hvalid, run_bind_ok hrun]
    rfl
  unfold executeReviewTool at h
  rw [if_neg (by decide), htool] at h
  dsimp only at h
  rw [run_tryExcept_ok hwhole] at h
  exact (Except.ok.inj (Prod.mk.inj h).1).symm

/-- A round of the review looks for `exit_code: 0` in what its tool returned. -/
theorem reviewToolRound_shellOk {name : String} {args : PyValue} {s t : AgentState X}
    {progress progress' : ReviewProgress}
    (h : (reviewToolRound env progress name args).run s = (.ok progress', t)) :
    ∃ content u, (executeReviewTool env name args).run s = (.ok content, u) ∧
      progress'.shellOk =
        (progress.shellOk ||
          (decide (name = "run_shell") && pyContains content "exit_code: 0")) := by
  unfold reviewToolRound at h
  obtain ⟨content, u, hexecute, h⟩ := bind_eq_ok h
  refine ⟨content, u, hexecute, ?_⟩
  generalize hverified : (decide (name = "run_shell") && pyContains content "exit_code: 0") =
    verified at h ⊢
  obtain ⟨_, v, -, h⟩ := bind_eq_ok h
  cases h
  rfl

/-- A `cmd:` check whose result is not known looks for `exit_code: 0` in what the executor
returned. -/
theorem verifyDoneWhen_cmd {doneWhen command : String} {cache cache' : CommandCache}
    {s v t : AgentState X} {res : ToolResult} {ok : Bool}
    (hparse : parseCriterion env.txt doneWhen = .cmd command) (hcache : cache.lookup command = none)
    (hexecute : (ToolExecutor.execute env .checklist (.str "run_shell")
      (commandArgs command)).run s = (.ok res, v))
    (h : (verifyDoneWhen env doneWhen cache).run s = (.ok (some ok, cache'), t)) :
    ok = pyContains res.content "exit_code: 0" := by
  have hcriterion : (runCriterion env command).run s = (.ok (some res.content), v) := by
    unfold runCriterion
    refine run_tryExcept_ok ?_
    have hsame : (ToolExecutor.execute env .checklist (.str "run_shell")
        [("command", .str command), ("timeout", .int 30)]).run s = (.ok res, v) := hexecute
    rw [run_bind_ok hsame]
    rfl
  unfold verifyDoneWhen at h
  rw [hparse] at h
  dsimp only at h
  obtain ⟨⟨found, cache''⟩, u, hcommand, h⟩ := bind_eq_ok h
  unfold verifyCommand at hcommand
  rw [hcache] at hcommand
  dsimp only at hcommand
  rw [run_bind_ok hcriterion] at hcommand
  cases hcommand
  cases h
  rfl

/-- The verdict of a search for `exit_code: 0` is right where no failed command shows it, and every
command that exited with code 0 did so in time. -/
theorem textVerdict_iff (htable : ExitTable env.txt) {timeout : Nat} {result : ShellResult} :
    ((pyContains (clipText (shellText env.txt timeout result) maxToolOutput) "exit_code: 0" = true ↔
        result.Succeeded) ↔
      (result.returncode = 0 → result.timedOut = false) ∧
        (result.returncode ≠ 0 → ¬Shows env.txt timeout result "exit_code: 0")) := by
  have hshows : ShowsExit env.txt := ⟨htable.letter, (htable.digit '0' (by decide)).1⟩
  rw [← contains_success_iff]
  by_cases hexit : result.returncode = 0
  · have hfound : pyContains (clipText (shellText env.txt timeout result) maxToolOutput)
        "exit_code: 0" = true := contains_of_exit_zero hshows hexit
    constructor
    · exact fun h => ⟨fun _ => (h.mp hfound).2, fun hne => absurd hexit hne⟩
    · exact fun h => ⟨fun _ => ⟨hexit, h.1 hexit⟩, fun _ => hfound⟩
  · constructor
    · exact fun h => ⟨fun hzero => absurd hzero hexit, fun _ hfound => hexit (h.mp hfound).1⟩
    · exact fun h => ⟨fun hfound => absurd hfound (h.2 hexit), fun hgood => absurd hgood.1 hexit⟩

/-- When each of the three reads the result of a command right: the executor where a command that
exited with code 0 shows the notice of a timeout exactly if it was stopped; the `cmd:` check and the
review where every command that exited with code 0 did so in time, and no other shows
`exit_code: 0`. -/
theorem shell_success_iff (htable : ExitTable env.txt) (timeout : Nat) (result : ShellResult) :
    (∀ (route : Route) (args : PyDict) (s u t : AgentState X)
        (call : ReadyCall env (.str "run_shell")) (res : ToolResult),
      (admitCall env (.str "run_shell") args).run s = (.ok (.inr call), u) →
      ShellRan env args u timeout result →
      (ToolExecutor.execute env route (.str "run_shell") args).run s = (.ok res, t) →
      ((res.status = .ok ↔ result.Succeeded) ↔
        (result.returncode = 0 →
          (Shows env.txt timeout result "[tool timed out" ↔ result.timedOut = true)))) ∧
    (∀ (doneWhen command : String) (cache cache' : CommandCache) (s u v t : AgentState X)
        (call : ReadyCall env (.str "run_shell")) (res : ToolResult) (ok : Bool),
      parseCriterion env.txt doneWhen = .cmd command → cache.lookup command = none →
      (admitCall env (.str "run_shell") (commandArgs command)).run s = (.ok (.inr call), u) →
      ShellRan env (commandArgs command) u timeout result →
      (ToolExecutor.execute env .checklist (.str "run_shell") (commandArgs command)).run s =
        (.ok res, v) →
      (verifyDoneWhen env doneWhen cache).run s = (.ok (some ok, cache'), t) →
      ((ok = true ↔ result.Succeeded) ↔
        (result.returncode = 0 → result.timedOut = false) ∧
          (result.returncode ≠ 0 → ¬Shows env.txt timeout result "exit_code: 0"))) ∧
    ∀ (args : PyDict) (s t : AgentState X) (progress progress' : ReviewProgress),
      toolNamed env (.str "run_shell") = some .runShell → ShellRan env args s timeout result →
      progress.shellOk = false →
      (reviewToolRound env progress "run_shell" (.dict args)).run s = (.ok progress', t) →
      ((progress'.shellOk = true ↔ result.Succeeded) ↔
        (result.returncode = 0 → result.timedOut = false) ∧
          (result.returncode ≠ 0 → ¬Shows env.txt timeout result "exit_code: 0")) := by
  refine ⟨?_, ?_, ?_⟩
  · intro route args s u t call res hadmitted hran hexecute
    obtain ⟨hcontent, changed, hstatus⟩ := execute_runShell hadmitted hran hexecute
    rw [hstatus, statusOf_ok_iff, hcontent, contains_timeout_iff, exitCodeOf_shellText htable]
    unfold ShellResult.Succeeded
    by_cases hexit : result.returncode = 0
    · rcases htimed : result.timedOut with _ | _
      · simp [hexit]
      · simp [hexit]
    · simp [hexit]
  · intro doneWhen command cache cache' s u v t call res ok hparse hcache hadmitted hran hexecute
      hverify
    rw [verifyDoneWhen_cmd hparse hcache hexecute hverify,
      (execute_runShell hadmitted hran hexecute).1]
    exact textVerdict_iff htable
  · intro args s t progress progress' htool hran hbefore hround
    obtain ⟨content, u, hexecute, hshell⟩ := reviewToolRound_shellOk hround
    rw [hbefore, Bool.false_or, decide_eq_true rfl, Bool.true_and,
      executeReviewTool_runShell htool hran hexecute] at hshell
    rw [hshell]
    exact textVerdict_iff htable

end Readers

/-! ## Two commands -/

/-- The arguments of the command `make`. -/
def makeArgs : PyDict := [("command", .str "make")]

/-- The agent whose next command ends with `result`. -/
def afterCommand (result : ShellResult) : AgentState Script := .fresh { shells := [result] }

def shellAgent : AgentEnv Script := .scripted [] .auto false false

theorem exitTable_ascii : ExitTable PyText.ascii where
  letter := by decide
  blank := by decide
  minus := by decide
  newline := by decide
  digit c hc := by
    have hrange := Char.isDigit_iff_toNat.mp hc
    have hzero : '0'.toNat = 48 := rfl
    have hnine : '9'.toNat = 57 := rfl
    refine ⟨decide_eq_false fun h => ?_, if_pos hc⟩
    rcases h with rfl | hctrl
    · exact absurd hc (by decide)
    · omega

theorem shellRan_make (result : ShellResult) (hcleaned : result.cleanupSucceeded = true)
    (hkept : result.cancelled = false) :
    ShellRan shellAgent makeArgs (afterCommand result) 20 result :=
  ⟨⟨"make", _, by decide +kernel, rfl⟩, hcleaned, hkept⟩

/-- Whether a round of the review comes to an end. -/
def reviewReturns (result : ShellResult) : Bool :=
  match ((reviewToolRound shellAgent { context := "" } "run_shell" (.dict makeArgs)).run
    (afterCommand result)).1 with
  | .ok _ => true
  | .error _ => false

/-- A command that goes well is recognised by the review. -/
theorem shell_success_iff_quiet :
    ∃ progress t, (reviewToolRound shellAgent { context := "" } "run_shell" (.dict makeArgs)).run
        (afterCommand { returncode := 0, stdout := "done", stderr := "" }) = (.ok progress, t) ∧
      progress.shellOk = true := by
  have hreturns : reviewReturns { returncode := 0, stdout := "done", stderr := "" } = true := by
    decide +kernel
  unfold reviewReturns at hreturns
  rcases hrun : (reviewToolRound shellAgent { context := "" } "run_shell" (.dict makeArgs)).run
    (afterCommand { returncode := 0, stdout := "done", stderr := "" }) with ⟨_ | progress, t⟩
  · rw [hrun] at hreturns
    exact absurd hreturns Bool.false_ne_true
  · have hright := ((shell_success_iff exitTable_ascii 20
      { returncode := 0, stdout := "done", stderr := "" }).2.2 makeArgs _ t _ progress
        (by decide) (shellRan_make _ rfl rfl) rfl hrun).mpr
      ⟨fun _ => rfl, fun hne => absurd rfl hne⟩
    exact ⟨progress, t, rfl, hright.mpr ⟨rfl, rfl⟩⟩

/-- A command that fails and prints `exit_code: 0` counts as a verification. -/
theorem not_shell_success :
    ∃ progress t, (reviewToolRound shellAgent { context := "" } "run_shell" (.dict makeArgs)).run
        (afterCommand { returncode := 1, stdout := "exit_code: 0", stderr := "" }) =
          (.ok progress, t) ∧
      ShellRan shellAgent makeArgs
        (afterCommand { returncode := 1, stdout := "exit_code: 0", stderr := "" }) 20
        { returncode := 1, stdout := "exit_code: 0", stderr := "" } ∧
      ¬(progress.shellOk = true ↔
        ShellResult.Succeeded { returncode := 1, stdout := "exit_code: 0", stderr := "" }) := by
  have hfooled : ((((reviewToolRound shellAgent { context := "" } "run_shell" (.dict makeArgs)).run
      (afterCommand { returncode := 1, stdout := "exit_code: 0", stderr := "" })).1.toOption.map
        ReviewProgress.shellOk)) = some true := by
    decide +kernel
  rcases hrun : (reviewToolRound shellAgent { context := "" } "run_shell" (.dict makeArgs)).run
    (afterCommand { returncode := 1, stdout := "exit_code: 0", stderr := "" }) with
    ⟨_ | progress, t⟩
  · rw [hrun] at hfooled
    exact absurd hfooled (Option.some_ne_none true).symm
  · rw [hrun] at hfooled
    refine ⟨progress, t, rfl, shellRan_make _ rfl rfl, fun h => ?_⟩
    exact absurd (h.mp (Option.some.inj hfooled)).1 (by decide)

end ThreadForge
