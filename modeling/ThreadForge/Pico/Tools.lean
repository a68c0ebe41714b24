import ThreadForge.Pico.FileTree

/-!
# The tools of the agent

`tools.py`: how the arguments of a call are validated, and what the file tools do. They run on a
file tree and note every file whose content they read or write, at the place where the kernel
opened it.

## What is a parameter

`FileEnv` holds the codec, the regular expressions and the wording of CPython's own exceptions.
A `SearchOracle` is what one `search` meets outside: the external `rg`, and the clock.
-/

namespace ThreadForge

/-- An exception. There is no message where CPython words it. -/
structure PyExc where
  kind : PyError
  message : Option String := none
  deriving DecidableEq, Repr

/-- `raise ValueError(message)`. -/
def PyExc.value (message : String) : PyExc := ⟨.valueError, some message⟩

/-- What the file tools take from outside this model, and the root of the workspace. `escaped` are
the lone surrogates that stand for a byte of a file name. -/
structure FileEnv where
  txt : PyText
  root : Parts
  escaped : Char → Bool
  decode : List UInt8 → Option String
  decodeReplace : List UInt8 → String
  decodeIgnore : List UInt8 → String
  encode : String → List UInt8
  isUpper : Char → Bool
  regex : String → Bool → Except String (String → Bool)
  errorText : PyError → String

/-- ASCII files, and patterns that mean themselves. -/
def FileEnv.ascii (root : Parts) : FileEnv where
  txt := .ascii
  root := root
  escaped _ := false
  decode content := if content.all (· < 128) then some (String.ofList (content.map fun b => .ofNat b.toNat)) else none
  decodeReplace content := String.ofList (content.map fun b => if b < 128 then .ofNat b.toNat else '?')
  decodeIgnore content := String.ofList ((content.filter (· < 128)).map fun b => .ofNat b.toNat)
  encode text := text.toList.map fun c => .ofNat c.toNat
  isUpper c := c.isUpper
  regex pattern _ := .ok fun line => pyContains line pattern
  errorText _ := ""

/-- The operating system takes no path with a NUL or a surrogate that stands for no byte. -/
def FileEnv.badPath (env : FileEnv) (text : String) : Bool :=
  text.toList.any fun c => c = '\x00' || (env.txt.surrogate c && !env.escaped c)

/-- `str(exc)`. -/
def FileEnv.text (env : FileEnv) (exc : PyExc) : String :=
  exc.message.getD (env.errorText exc.kind)

/-- One run of the external `rg`. -/
inductive RgOutcome
  | absent
  | failed
  | finished (code : Int) (stdout stderr : String)

/-- What one `search` meets outside: `rg`, and whether its deadline has passed when it comes to the
`n`-th file. -/
structure SearchOracle where
  rg : RgOutcome
  expired : Nat → Bool

/-- A file whose content was read or written, where the kernel opened it. -/
inductive Access
  | read (location : Parts)
  | write (location : Parts)
  deriving DecidableEq, Repr

def Access.location : Access → Parts
  | .read location => location
  | .write location => location

/-- The tree, and the files opened so far. -/
structure FileState where
  tree : FileTree
  accesses : List Access := []

/-- A computation on files. -/
abbrev FileM := Eff FileState PyExc

/-- The tools of the registry. -/
inductive ToolName
  | listFiles
  | readFile
  | search
  | runShell
  | writeFile
  | patchFile
  deriving DecidableEq, Repr

namespace ToolName

def text : ToolName → String
  | .listFiles => "list_files"
  | .readFile => "read_file"
  | .search => "search"
  | .runShell => "run_shell"
  | .writeFile => "write_file"
  | .patchFile => "patch_file"

/-- `agent.tools.get(name)`. -/
def ofText? (name : String) : Option ToolName :=
  [listFiles, readFile, search, runShell, writeFile, patchFile].find? fun tool => tool.text = name

/-- `tool["risky"]`. -/
def risky : ToolName → Bool
  | .runShell | .writeFile | .patchFile => true
  | _ => false

theorem text_of_ofText? {name : String} {tool : ToolName} (h : ofText? name = some tool) :
    tool.text = name := by
  have hfound := List.find?_some h
  exact of_decide_eq_true hfound

@[simp] theorem ofText?_text (tool : ToolName) : ofText? tool.text = some tool := by
  cases tool <;> rfl

end ToolName

namespace FileM

/-! ## Files -/

/-- `raise ValueError(message)`. -/
def fail {α : Type} (message : String) : FileM α := Eff.raise (.value message)

/-- A call of the language that can raise. -/
def python {α : Type} : Except PyError α → FileM α
  | .ok a => pure a
  | .error kind => Eff.raise ⟨kind, none⟩

/-- `path.read_bytes()`. -/
def readBytes (path : Parts) : FileM (List UInt8) where
  run s := match s.tree.locate path, s.tree.content? path with
    | some location, some content =>
      (.ok content, { s with accesses := s.accesses ++ [.read location] })
    | _, _ => (.error ⟨.osError, none⟩, s)

/-- `path.read_text(encoding="utf-8")`. -/
def readText (env : FileEnv) (path : Parts) : FileM String := do
  let content ← readBytes path
  match env.decode content with
  | some text => pure (String.ofList (PyChars.universalNewlines text.toList))
  | none => Eff.raise ⟨.valueError, none⟩

/-- `path.read_text(encoding="utf-8", errors=...)`, which never fails to decode. -/
def readTextWith (decode : List UInt8 → String) (path : Parts) : FileM String := do
  let content ← readBytes path
  pure (String.ofList (PyChars.universalNewlines (decode content).toList))

/-- Where `open(path, "w")` puts the file: at the file that is there, or at a new name in a
directory. -/
def openForWriting (t : FileTree) (path : Parts) : Option Parts :=
  match t.locate path with
  | some location => if (t.node? location) = some .dir then none else some location
  | none =>
    match t.locate path.dropLast, path.getLast? with
    | some parent, some name =>
      if t.node? parent = some .dir ∧ t.node? (parent ++ [name]) = none then some (parent ++ [name])
      else none
    | _, _ => none

/-- `path.write_text(content, encoding="utf-8")`. Opening empties the file; a text that cannot be
encoded leaves it so. -/
def writeText (env : FileEnv) (path : Parts) (content : String) : FileM Unit where
  run s := match openForWriting s.tree path with
    | some location =>
      let accesses := s.accesses ++ [.write location]
      if env.txt.encodable content then
        (.ok (), ⟨s.tree.put location (.file (env.encode content)), accesses⟩)
      else (.error ⟨.unicodeEncodeError, none⟩, ⟨s.tree.put location (.file []), accesses⟩)
    | none => (.error ⟨.osError, none⟩, s)

/-- `path.mkdir(parents=True, exist_ok=True)`. -/
def makeParents (path : Parts) : FileM Unit where
  run s := match s.tree.mkdirs [] path with
    | some tree => (.ok (), { s with tree := tree })
    | none => (.error ⟨.osError, none⟩, s)

/-- What the tree says, with nothing opened. -/
def look {α : Type} (f : FileTree → α) : FileM α := ⟨fun s => (.ok (f s.tree), s)⟩

/-! ### What they can do -/

@[simp] theorem run_look_bind {α β : Type} (f : FileTree → α) (k : α → FileM β) (s : FileState) :
    (look f >>= k).run s = (k (f s.tree)).run s := rfl

theorem readBytes_cases (path : Parts) (s : FileState) :
    (∃ location content, s.tree.locate path = some location ∧
      s.tree.content? path = some content ∧
      (readBytes path).run s = (.ok content, { s with accesses := s.accesses ++ [.read location] })) ∨
    (readBytes path).run s = (.error ⟨.osError, none⟩, s) := by
  unfold readBytes
  dsimp only
  split
  · next location content hlocate hcontent =>
    exact Or.inl ⟨location, content, hlocate, hcontent, rfl⟩
  · exact Or.inr rfl

theorem makeParents_cases (path : Parts) (s : FileState) :
    (∃ tree, s.tree.mkdirs [] path = some tree ∧
      (makeParents path).run s = (.ok (), { s with tree := tree })) ∨
    (makeParents path).run s = (.error ⟨.osError, none⟩, s) := by
  unfold makeParents
  dsimp only
  split
  · next tree hmk => exact Or.inl ⟨tree, hmk, rfl⟩
  · exact Or.inr rfl

end FileM

open FileM

variable (env : FileEnv)

/-! ## Paths -/

/-- `Pico.path` on a tree: a path that resolves under the root, or an exception. -/
def picoPathIn (t : FileTree) (raw : PyValue) : Except PyExc Parts :=
  match raw with
  | .str text =>
    if env.badPath text then .error ⟨.valueError, none⟩
    else
      let path := parsePath text
      match t.realpath (if path.absolute then path.parts else env.root ++ path.parts) with
      | none => .error ⟨.runtimeError, none⟩
      | some resolved =>
        if env.root.isPrefixOf resolved then .ok resolved
        else .error (.value ("path escapes workspace: " ++ text))
  | _ => .error ⟨.typeError, none⟩

/-- `Pico.path`. -/
def picoPath (raw : PyValue) : FileM Parts := ⟨fun s => (picoPathIn env s.tree raw, s)⟩

theorem run_picoPath (raw : PyValue) (s : FileState) :
    (picoPath env raw).run s = (picoPathIn env s.tree raw, s) := rfl

theorem run_picoPath_ok {raw : PyValue} {s : FileState} {path : Parts}
    (h : picoPathIn env s.tree raw = .ok path) : (picoPath env raw).run s = (.ok path, s) := by
  rw [run_picoPath, h]

theorem run_picoPath_error {raw : PyValue} {s : FileState} {exc : PyExc}
    (h : picoPathIn env s.tree raw = .error exc) : (picoPath env raw).run s = (.error exc, s) := by
  rw [run_picoPath, h]

/-- `args["path"]`. -/
def pathArgument (args : PyDict) : FileM Parts :=
  match args.get? "path" with
  | some raw => picoPath env raw
  | none => Eff.raise ⟨.keyError, some "'path'"⟩

/-- `path.relative_to(context.root)`, as text. -/
def relativeText (path : Parts) : String :=
  let parts := path.drop env.root.length
  if parts.isEmpty then "." else "/".intercalate parts

/-! ## Arguments that several tools share -/

/-- `args.get("path", ".")`. -/
def defaultPath (args : PyDict) : PyValue := args.getD "path" (.str ".")

/-- The line range of a `read_file` call. -/
def lineRange (args : PyDict) : FileM (Nat × Nat) := do
  let start ← python ((args.getD "start" (.int 1)).toInt env.txt)
  let stop ← python ((args.getD "end" (.int 200)).toInt env.txt)
  if start < 1 ∨ stop < start then fail "invalid line range"
  else pure (start.toNat, stop.toNat)

/-- The path of a `read_file` call. -/
def fileArgument (args : PyDict) : FileM Parts := do
  let path ← pathArgument env args
  let isFile ← look fun t => t.isFile path
  if isFile then pure path else fail "path is not a file"

/-- The path of a `list_files` call. -/
def dirArgument (args : PyDict) : FileM Parts := do
  let path ← picoPath env (defaultPath args)
  let isDir ← look fun t => t.isDir path
  if isDir then pure path else fail "path is not a directory"

/-- The pattern of a `search` call. -/
def patternArgument (args : PyDict) : FileM String :=
  let pattern := pyStrip env.txt (args.textOf env.txt "pattern")
  if pattern = "" then fail "pattern must not be empty" else pure pattern

/-- The command and the timeout of a `run_shell` call: they do not depend on the files. -/
def shellArguments (args : PyDict) : Except PyExc (String × Nat) :=
  let command := pyStrip env.txt (args.textOf env.txt "command")
  if command = "" then .error (.value "command must not be empty")
  else match (args.getD "timeout" (.int 20)).toInt env.txt with
    | .error kind => .error ⟨kind, none⟩
    | .ok timeout =>
      if timeout < 1 ∨ 120 < timeout then .error (.value "timeout must be in [1, 120]")
      else .ok (command, timeout.toNat)

/-- The path, the old text and the new text of a `patch_file` call, with the text of the file: the
old text occurs in it exactly once. -/
def patchArguments (args : PyDict) : FileM (Parts × String × PyValue × String) := do
  let path ← fileArgument env args
  let old := args.textOf env.txt "old_text"
  if old = "" then fail "old_text must not be empty"
  else match args.get? "new_text" with
    | none => fail "missing new_text"
    | some new =>
      let text ← readText env path
      let count := pyCount text old
      if count ≠ 1 then
        fail ("old_text must occur exactly once, found " ++ toString count)
      else pure (path, old, new, text)

/-! ## `validate_tool` -/

/-- `validate_tool`. -/
def validateTool (tool : ToolName) (args : PyDict) : FileM Unit :=
  match tool with
  | .listFiles => do
    let _ ← dirArgument env args
    pure ()
  | .readFile => do
    let _ ← fileArgument env args
    let _ ← lineRange env args
    pure ()
  | .search => do
    let _ ← patternArgument env args
    let _ ← picoPath env (defaultPath args)
    pure ()
  | .runShell => do
    let _ ← Eff.ofExcept (shellArguments env args)
    pure ()
  | .writeFile => do
    let path ← pathArgument env args
    let isDir ← look fun t => t.isDir path
    if isDir then fail "path is a directory"
    else if (args.get? "content").isNone then fail "missing content"
    else pure ()
  | .patchFile => do
    let _ ← patchArguments env args
    pure ()

/-! ## `list_files` and `read_file` -/

/-- `IGNORED_PATH_NAMES`. -/
def ignoredPathNames : List String :=
  [".git", ".pico", "__pycache__", ".pytest_cache", ".ruff_cache", ".venv", "venv"]

/-- The order of `list_files`: directories first, then by name. -/
def listedBefore (t : FileTree) (dir : Parts) (a b : String) : Bool :=
  let fileA := t.isFile (dir ++ [a])
  let fileB := t.isFile (dir ++ [b])
  (!fileA && fileB) || (fileA == fileB && decide (env.txt.lower a ≤ env.txt.lower b))

/-- The lines of `list_files`. -/
def listing (t : FileTree) (dir : Parts) : List String :=
  let entries := ((t.children dir).insertionSort fun a b => listedBefore env t dir a b).filter
    fun name => name ∉ ignoredPathNames
  (entries.take 200).map fun name =>
    (if t.isDir (dir ++ [name]) then "[D]" else "[F]") ++ " " ++ relativeText env (dir ++ [name])

/-- `tool_list_files`. -/
def toolListFiles (args : PyDict) : FileM String := do
  let dir ← dirArgument env args
  let lines ← look fun t => listing env t dir
  let text := joinLines lines
  pure (if text = "" then "(empty)" else text)

/-- The lines `start` to `stop` of a text, numbered. -/
def numberedLines (text : String) (start stop : Nat) : List String :=
  let lines := ((pySplitLines text).take stop).drop (start - 1)
  lines.zipIdx.map fun line => padLeft (start + line.2) 4 ++ ": " ++ line.1

/-- `tool_read_file`. -/
def toolReadFile (args : PyDict) : FileM String := do
  let path ← fileArgument env args
  let range ← lineRange env args
  let text ← readTextWith env.decodeReplace path
  pure ("# " ++ relativeText env path ++ "\n" ++ joinLines (numberedLines text range.1 range.2))

/-! ## `search` -/

/-- `SEARCH_IGNORED_PATH_NAMES`. -/
def searchIgnoredPathNames : List String :=
  ignoredPathNames ++ ["node_modules", "build", "dist", "release-desktop", "coverage", "target"]

/-- `SEARCH_MAX_FILES`. -/
def searchMaxFiles : Nat := 5000

/-- `SEARCH_MAX_FILE_BYTES`. -/
def searchMaxFileBytes : Nat := 2 * 1024 * 1024

/-- `SEARCH_MAX_MATCHES`. -/
def searchMaxMatches : Nat := 200

/-- The files `os.walk` yields below a directory. A link to a directory is listed with the
directories and not entered; every other link is a file of the walk. -/
def walkFiles (t : FileTree) : Nat → Parts → List Parts
  | 0, _ => []
  | depth + 1, dir =>
    let names := t.children dir
    ((names.filter fun name => !t.isDir (dir ++ [name])).map fun name => dir ++ [name]) ++
      (names.filter fun name => t.isDir (dir ++ [name]) && name ∉ searchIgnoredPathNames &&
        (t.link? (dir ++ [name])).isNone).flatMap fun name => walkFiles t depth (dir ++ [name])

/-- The files `search` goes through for a path. -/
def searchFiles (t : FileTree) (path : Parts) : List Parts :=
  if t.isFile path then [path]
  else if t.isDir path then walkFiles t t.nodes.length path
  else []

/-- The content `search` looks at in one file, where it reads it. -/
def searchContent (file : Parts) : FileM (Option (List UInt8)) := do
  let size ← look fun t => (t.content? file).map List.length
  match size with
  | none => pure none
  | some size =>
    if searchMaxFileBytes < size then pure none
    else
      let raw ← readBytes file
      pure (some raw)

/-- The matching lines of one file. -/
def matchesOf (expression : String → Bool) (file : Parts) (raw : List UInt8) : List String :=
  if raw.contains 0 then []
  else ((pySplitLines (env.decodeReplace raw)).zipIdx.filter fun line => expression line.1).map
    fun line => relativeText env file ++ ":" ++ toString (line.2 + 1) ++ ":" ++ line.1

/-- The scan through the files, after `scanned` of them: the matches, and whether it was cut off. -/
def scanFiles (expression : String → Bool) (expired : Nat → Bool) :
    List Parts → Nat → List String → FileM (List String × Bool)
  | [], _, found => pure (found, false)
  | file :: rest, scanned, found =>
    if searchMaxFiles ≤ scanned ∨ expired scanned = true then pure (found, true)
    else do
      let content ← searchContent file
      let more := found ++ (content.map (matchesOf env expression file)).getD []
      if searchMaxMatches ≤ more.length then pure (more.take searchMaxMatches, false)
      else scanFiles expression expired rest (scanned + 1) more

/-- The fallback scanner of `tool_search`. -/
def fallbackSearch (expired : Nat → Bool) (degraded : String) (pattern : String) (path : Parts) :
    FileM String := do
  let ignoreCase := !pattern.toList.any env.isUpper
  match env.regex pattern ignoreCase with
  | .error problem => fail ("invalid search pattern: " ++ problem)
  | .ok expression =>
    let files ← look fun t => searchFiles t path
    let result ← scanFiles env expression expired files 0 []
    if result.1 ≠ [] then pure (joinLines result.1)
    else if result.2 ∨ degraded ≠ "" then
      pure ("(no matches; fallback search reached its scan limit" ++
        (if degraded = "" then "" else "; " ++ degraded) ++ ")")
    else pure "(no matches)"

/-- `tool_search`. -/
def toolSearch (oracle : SearchOracle) (args : PyDict) : FileM String := do
  let pattern ← patternArgument env args
  let path ← picoPath env (defaultPath args)
  match oracle.rg with
  | .absent => fallbackSearch env oracle.expired "" pattern path
  | .failed =>
    fallbackSearch env oracle.expired "rg unavailable or timed out; used fallback scanner" pattern path
  | .finished code stdout stderr =>
    if code = 0 ∨ code = 1 then
      let out := pyStrip env.txt stdout
      pure (if out = "" then "(no matches)" else out)
    else if pyStrip env.txt stderr ≠ "" then pure (pyStrip env.txt stderr)
    else fallbackSearch env oracle.expired "rg exited unexpectedly" pattern path

/-! ## `write_file` and `patch_file` -/

/-- `tool_write_file`. -/
def toolWriteFile (args : PyDict) : FileM String := do
  let path ← pathArgument env args
  match args.get? "content" with
  | none => Eff.raise ⟨.keyError, some "'content'"⟩
  | some value =>
    let content := value.text env.txt
    makeParents path.dropLast
    writeText env path content
    pure ("wrote " ++ relativeText env path ++ " (" ++ toString content.length ++ " chars)")

/-- `tool_patch_file`. -/
def toolPatchFile (args : PyDict) : FileM String := do
  let (path, old, new, text) ← patchArguments env args
  writeText env path (pyReplaceFirst text old (new.text env.txt))
  pure ("patched " ++ relativeText env path)

/-- The runner of a tool that works on files. `run_shell` is not one of them. -/
def runFileTool (oracle : SearchOracle) (tool : ToolName) (args : PyDict) : FileM String :=
  match tool with
  | .listFiles => toolListFiles env args
  | .readFile => toolReadFile env args
  | .search => toolSearch env oracle args
  | .writeFile => toolWriteFile env args
  | .patchFile => toolPatchFile env args
  | .runShell => pure ""

/-! ## Acceptance criteria of a checklist

`_verify_done_when` reads one `done_when` text. Its `file:` and `grep:` forms join the path they
name to the root on their own. -/

/-- What a `done_when` text asks for. -/
inductive Criterion
  | file (path : String)
  | grep (path pattern : String)
  | cmd (command : String)
  | malformed
  | freeText
  deriving DecidableEq, Repr

/-- How `_verify_done_when` takes its text apart. -/
def parseCriterion (txt : PyText) (doneWhen : String) : Criterion :=
  let text := pyStrip txt doneWhen
  if pyStartsWith text "file:" then
    let path := pyStrip txt (pyDrop text 5)
    if path = "" then .malformed else .file path
  else if pyStartsWith text "grep:" then
    let parts := pyPartition (pyDrop text 5) ":"
    if parts.1 = "" ∨ parts.2 = "" then .malformed else .grep parts.1 parts.2
  else if pyStartsWith text "cmd:" then
    let command := pyStrip txt (pyDrop text 4)
    if command = "" then .malformed else .cmd command
  else .freeText

/-- `agent.root / path`. -/
def joinRoot (path : String) : Parts :=
  let written := parsePath path
  if written.absolute then written.parts else env.root ++ written.parts

/-- The `file:` check. -/
def verifyFile (path : String) : FileM Bool := do
  let found ← look fun t => t.isFile (joinRoot env path)
  pure (found && !env.badPath path)

/-- The `grep:` check. Whatever goes wrong, the criterion is not met. -/
def verifyGrep (path pattern : String) : FileM Bool :=
  Eff.tryExcept
    (do
      if env.badPath path then Eff.raise ⟨.valueError, none⟩
      else
        let content ← readTextWith env.decodeIgnore (joinRoot env path)
        pure (pyContains content pattern))
    (fun _ => true) (fun _ => pure false)

theorem verifyGrep_returns (path pattern : String) (s : FileState) :
    ∃ met t, (verifyGrep env path pattern).run s = (.ok met, t) := by
  unfold verifyGrep
  rw [Eff.run_tryExcept]
  split
  · next met t _ => exact ⟨met, t, rfl⟩
  · next t _ => exact ⟨false, t, rfl⟩

end ThreadForge
