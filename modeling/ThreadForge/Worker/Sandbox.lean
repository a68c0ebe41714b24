import ThreadForge.Lib.PyString

/-!
# The memory limit of a sandbox

`_sandbox_shell_factory` of the Worker, with the two readers of a memory limit: `_validate_memory`
of the container backend, which refuses a limit that is not a positive number, and
`parse_memory_to_bytes` of the native backend, which makes 0 of it. The child process sets no limit
that is not positive.

## What is a parameter

The tables of CPython, what `float` makes of a value, and whether Docker is installed. `setrlimit`
succeeds.

## Main results

* `parseMemoryToBytes_pos_iff` — the two readers agree on every text.
* `sandbox_failsClosed_iff` — when a sandbox without a valid limit runs no shell.
-/

/-- `x <= 0`, which is false of NaN. -/
def PyFloat.nonpos : PyFloat → Bool
  | .finite mantissa _ => mantissa ≤ 0
  | .inf negative => negative
  | .nan => false

namespace ThreadForge

structure SandboxEnv where
  txt : PyText
  floatOf : PyValue → Except PyError PyFloat
  dockerInstalled : Bool

/-- The exceptions that keep a shell from being built. -/
inductive SandboxError
  | unsafeConfig (message : String)
  | unavailable (message : String)
  | python (error : PyError)
  deriving DecidableEq, Repr

/-! ## Reading a memory limit -/

/-- The power of 1024 that a unit stands for. -/
def memoryUnit : Char → Option Nat
  | 'k' => some 1
  | 'm' => some 2
  | 'g' => some 3
  | _ => none

/-- The text of a limit as it is read. -/
def limitText (txt : PyText) (value : String) : List Char := (txt.lower (pyStrip txt value)).toList

/-- `_validate_memory`. -/
def validateMemory (txt : PyText) (value : String) : Bool :=
  let text := limitText txt value
  match text.getLast? with
  | none => false
  | some last =>
    match PyValue.intOfString txt
        (String.ofList (if (memoryUnit last).isNone then text else text.dropLast)) with
    | .error _ => false
    | .ok number => 0 < number

/-- `parse_memory_to_bytes`. -/
def parseMemoryToBytes (txt : PyText) (value : String) : Int :=
  let text := limitText txt value
  match text.getLast? with
  | none => 0
  | some unit =>
    match PyValue.intOfString txt
        (String.ofList (if (memoryUnit unit).isSome then text.dropLast else text)) with
    | .error _ => 0
    | .ok number => number * 1024 ^ (memoryUnit unit).getD 0

/-- The bytes that a limit stands for: a positive number, and the power of its unit. -/
def Denotes (txt : PyText) (value : String) (bytes : Int) : Prop :=
  ∃ number : Int, 0 < number ∧
    ((∃ digits unit power, limitText txt value = digits ++ [unit] ∧ memoryUnit unit = some power ∧
        PyValue.intOfString txt (String.ofList digits) = .ok number ∧
          bytes = number * 1024 ^ power) ∨
      ((∀ unit ∈ (limitText txt value).getLast?, memoryUnit unit = none) ∧
        limitText txt value ≠ [] ∧
        PyValue.intOfString txt (String.ofList (limitText txt value)) = .ok number ∧
          bytes = number))

variable {txt : PyText} {value : String} {bytes : Int}

theorem denotes_iff : Denotes txt value bytes ↔
    validateMemory txt value = true ∧ parseMemoryToBytes txt value = bytes := by
  unfold Denotes validateMemory parseMemoryToBytes
  dsimp only
  rcases List.eq_nil_or_concat (limitText txt value) with hnil | ⟨digits, unit, hconcat⟩
  · simp [hnil]
  rw [hconcat, List.concat_eq_append, List.getLast?_concat]
  cases hunit : memoryUnit unit with
  | none =>
    simp only [hunit, Option.isNone_none, Option.isSome_none, if_true, if_false, Option.getD_none,
      Bool.false_eq_true]
    cases PyValue.intOfString txt (String.ofList (digits ++ [unit])) with
    | error e =>
      refine iff_of_false ?_ (by simp)
      rintro ⟨number, -, ⟨digits', unit', power, heq, hpower, -⟩ | ⟨-, -, hok, -⟩⟩
      · obtain ⟨-, rfl⟩ := List.append_singleton_inj.mp heq
        rw [hunit] at hpower
        cases hpower
      · cases hok
    | ok number =>
      constructor
      · rintro ⟨number', hpos, ⟨digits', unit', power, heq, hpower, -⟩ | ⟨-, -, hok, rfl⟩⟩
        · obtain ⟨-, rfl⟩ := List.append_singleton_inj.mp heq
          rw [hunit] at hpower
          cases hpower
        · cases hok
          exact ⟨decide_eq_true hpos, by simp⟩
      · rintro ⟨hpos, rfl⟩
        refine ⟨number, of_decide_eq_true hpos, Or.inr ⟨?_, by simp, rfl, by simp⟩⟩
        rintro last ⟨⟩
        exact hunit
  | some power =>
    simp only [hunit, Option.isNone_some, Option.isSome_some, if_true, if_false, Option.getD_some,
      Bool.false_eq_true, List.dropLast_concat]
    constructor
    · rintro ⟨number, hpos, ⟨digits', unit', power', heq, hpower, hok, rfl⟩ | ⟨hnone, -⟩⟩
      · obtain ⟨rfl, rfl⟩ := List.append_singleton_inj.mp heq
        rw [hunit] at hpower
        cases hpower
        rw [hok]
        exact ⟨decide_eq_true hpos, rfl⟩
      · have hno := hnone unit rfl
        rw [hunit] at hno
        cases hno
    · cases hok : PyValue.intOfString txt (String.ofList digits) with
      | error e => simp
      | ok number =>
        rintro ⟨hpos, rfl⟩
        exact ⟨number, of_decide_eq_true hpos, Or.inl ⟨digits, unit, power, rfl, hunit, hok, rfl⟩⟩

/-- The two readers agree: a limit is read as a positive number exactly if it is valid. -/
theorem parseMemoryToBytes_pos_iff :
    0 < parseMemoryToBytes txt value ↔ validateMemory txt value = true := by
  unfold validateMemory parseMemoryToBytes
  dsimp only
  cases hlast : (limitText txt value).getLast? with
  | none => simp
  | some unit =>
    have hpow : (0 : Int) < 1024 ^ (memoryUnit unit).getD 0 := Int.pow_pos (by decide)
    have hdigits : (if (memoryUnit unit).isSome = true then (limitText txt value).dropLast
        else limitText txt value) =
        if (memoryUnit unit).isNone = true then limitText txt value
        else (limitText txt value).dropLast := by
      cases memoryUnit unit <;> rfl
    dsimp only
    rw [hdigits]
    split
    · simp
    · simp [mul_pos_iff_of_pos_right hpow]

/-! ## Building a shell -/

structure SandboxConfig where
  image : String
  user : String
  readOnlyRootfs : Bool := true
  network : String
  cpuLimit : PyFloat
  memoryLimit : String
  pidsLimit : Int

/-- `SandboxConfig.validate`. -/
def SandboxConfig.validate (txt : PyText) (config : SandboxConfig) : Except SandboxError Unit :=
  let user := pyStrip txt config.user
  if user = "" ∨ user ∈ ["0", "root", "0:0", "0:root", "root:0"] then
    .error (.unsafeConfig "sandbox user must be non-root")
  else if config.readOnlyRootfs = false then
    .error (.unsafeConfig "sandbox rootfs must be read-only")
  else if config.network ∉ ["none", "bridge"] then
    .error (.unsafeConfig "sandbox network must be none or bridge")
  else if config.cpuLimit.nonpos = true then
    .error (.unsafeConfig "sandbox CPU limit must be positive")
  else if validateMemory txt config.memoryLimit = false then
    .error (.unsafeConfig "sandbox memory limit is invalid")
  else if config.pidsLimit ≤ 0 then
    .error (.unsafeConfig "sandbox pids limit must be positive")
  else .ok ()

/-- The limits of `build_native_shell_factory`. -/
structure ResourceLimits where
  memoryBytes : Int
  maxProcesses : Int
  cpuSeconds : Int
  deriving DecidableEq, Repr

/-- What builds the shells of a run: the host, a container, or a process with limits. -/
inductive ShellFactory
  | host
  | docker (config : SandboxConfig)
  | native (limits : ResourceLimits)

/-- A Python exception, as a failure of the sandbox. -/
def ofPython {α : Type} : Except PyError α → Except SandboxError α
  | .ok a => .ok a
  | .error e => .error (.python e)

variable (env : SandboxEnv) (settings : PyDict)

/-- `str(settings.get("sandbox_memory_limit", "512m"))`. -/
def sandboxMemoryLimit : String :=
  (settings.getD "sandbox_memory_limit" (.str "512m")).text env.txt

/-- `backend`. -/
def sandboxBackend : String :=
  env.txt.lower (pyStrip env.txt ((settings.getD "sandbox_backend" (.str "os")).text env.txt))

/-- `_sandbox_shell_factory`, where the backend is `docker`. -/
def dockerShellFactory : Except SandboxError ShellFactory := do
  let config : SandboxConfig := {
    image := (settings.getD "sandbox_image" (.str "threadforge-sandbox:latest")).text env.txt
    user := (settings.getD "sandbox_user" (.str "65534:65534")).text env.txt
    network := (settings.getD "sandbox_network" (.str "none")).text env.txt
    cpuLimit := ← ofPython (env.floatOf (settings.getD "sandbox_cpu_limit" (.float (.finite 1 0))))
    memoryLimit := sandboxMemoryLimit env settings
    pidsLimit := ← ofPython ((settings.getD "sandbox_pids_limit" (.int 64)).toInt env.txt) }
  config.validate env.txt
  if env.dockerInstalled = false then .error (.unavailable "docker is not installed")
  else .ok (.docker config)

/-- The limits of the native backend. -/
def nativeLimits : Except PyError ResourceLimits := do
  let maxProcesses ← (settings.getD "sandbox_pids_limit" (.int 64)).toInt env.txt
  let cpuSeconds ← (settings.getD "sandbox_cpu_seconds" (.int 0)).toInt env.txt
  .ok ⟨parseMemoryToBytes env.txt (sandboxMemoryLimit env settings), maxProcesses, cpuSeconds⟩

/-- `_sandbox_shell_factory`. -/
def sandboxShellFactory : Except SandboxError ShellFactory :=
  if (settings.getD "sandbox_enabled" (.bool false)).truthy = false then .ok .host
  else if sandboxBackend env settings = "docker" then dockerShellFactory env settings
  -- nothing validates the limits of the native backend
  else ofPython ((nativeLimits env settings).map ShellFactory.native)

/-- What a child limits before it runs a command. -/
inductive Resource
  | cpu | addressSpace | residentSet | processes
  deriving DecidableEq, Repr

/-- `_apply_rlimits`. -/
def ResourceLimits.applied (limits : ResourceLimits) : List (Resource × Int) :=
  -- a limit of 0, which is what an unreadable text is read as, sets nothing
  (if 0 < limits.cpuSeconds then [(.cpu, limits.cpuSeconds)] else []) ++
  (if 0 < limits.memoryBytes then
    [(.addressSpace, limits.memoryBytes), (.residentSet, limits.memoryBytes)] else []) ++
  (if 0 < limits.maxProcesses then [(.processes, limits.maxProcesses)] else [])

/-! ## Failing closed -/

/-- A valid limit is the one that the native backend sets, and with an invalid one there is no
shell. -/
def FailsClosed : Prop :=
  (validateMemory env.txt (sandboxMemoryLimit env settings) = true ∧
    ∀ limits, sandboxShellFactory env settings = .ok (.native limits) →
      ∃ bytes, 0 < bytes ∧ Denotes env.txt (sandboxMemoryLimit env settings) bytes ∧
        (Resource.addressSpace, bytes) ∈ limits.applied) ∨
  (validateMemory env.txt (sandboxMemoryLimit env settings) = false ∧
    ∀ factory, sandboxShellFactory env settings ≠ .ok factory)

variable {env settings}

theorem validateMemory_of_validate {config : SandboxConfig} (h : config.validate txt = .ok ()) :
    validateMemory txt config.memoryLimit = true := by
  by_contra hinvalid
  rw [Bool.not_eq_true] at hinvalid
  simp only [SandboxConfig.validate, hinvalid, if_true] at h
  repeat (split at h; · cases h)
  cases h

/-- A container is built with a configuration that was validated. -/
theorem exists_config_of_docker {factory : ShellFactory}
    (h : dockerShellFactory env settings = .ok factory) :
    ∃ config, factory = .docker config ∧
      config.memoryLimit = sandboxMemoryLimit env settings ∧ config.validate env.txt = .ok () := by
  unfold dockerShellFactory at h
  cases hcpu : ofPython
      (env.floatOf (settings.getD "sandbox_cpu_limit" (.float (.finite 1 0)))) with
  | error e =>
    rw [hcpu] at h
    cases h
  | ok cpu =>
    cases hpids : ofPython ((settings.getD "sandbox_pids_limit" (.int 64)).toInt env.txt) with
    | error e =>
      rw [hcpu, hpids] at h
      cases h
    | ok pids =>
      rw [hcpu, hpids] at h
      simp only [bind, Except.bind] at h
      split at h
      · cases h
      · next hvalidate =>
        split at h
        · cases h
        · cases h
          exact ⟨_, rfl, rfl, hvalidate⟩

theorem memoryBytes_of_nativeLimits {limits : ResourceLimits}
    (h : nativeLimits env settings = .ok limits) :
    limits.memoryBytes = parseMemoryToBytes env.txt (sandboxMemoryLimit env settings) := by
  unfold nativeLimits at h
  simp only [bind, Except.bind] at h
  split at h
  · cases h
  · split at h
    · cases h
    · cases h
      rfl

/-- **A sandbox fails closed exactly if its limit is valid, or its backend is the container, or the
native one cannot be built.** -/
theorem sandbox_failsClosed_iff (env : SandboxEnv) (settings : PyDict)
    (henabled : (settings.getD "sandbox_enabled" (.bool false)).truthy = true) :
    FailsClosed env settings ↔
      validateMemory env.txt (sandboxMemoryLimit env settings) = true ∨
        sandboxBackend env settings = "docker" ∨ ∃ e, nativeLimits env settings = .error e := by
  have hfactory : sandboxShellFactory env settings =
      if sandboxBackend env settings = "docker" then dockerShellFactory env settings
      else ofPython ((nativeLimits env settings).map ShellFactory.native) := by
    rw [sandboxShellFactory, henabled]
    rfl
  unfold FailsClosed
  cases hvalid : validateMemory env.txt (sandboxMemoryLimit env settings) with
  | true =>
    refine iff_of_true (Or.inl ⟨rfl, fun limits hlimits => ?_⟩) (Or.inl rfl)
    have hpos := parseMemoryToBytes_pos_iff.mpr hvalid
    have hbytes : limits.memoryBytes =
        parseMemoryToBytes env.txt (sandboxMemoryLimit env settings) := by
      rw [hfactory] at hlimits
      split at hlimits
      · obtain ⟨config, hconfig, -⟩ := exists_config_of_docker hlimits
        cases hconfig
      · cases hnative : nativeLimits env settings with
        | error e =>
          rw [hnative] at hlimits
          cases hlimits
        | ok native =>
          rw [hnative] at hlimits
          cases hlimits
          exact memoryBytes_of_nativeLimits hnative
    refine ⟨_, hpos, denotes_iff.mpr ⟨hvalid, rfl⟩, ?_⟩
    rw [ResourceLimits.applied, hbytes, if_pos hpos]
    simp
  | false =>
    rw [hfactory]
    by_cases hdocker : sandboxBackend env settings = "docker"
    · rw [if_pos hdocker]
      refine iff_of_true (Or.inr ⟨rfl, fun factory hok => ?_⟩) (Or.inr (Or.inl hdocker))
      obtain ⟨config, -, hlimit, hvalidate⟩ := exists_config_of_docker hok
      have hmemory := validateMemory_of_validate hvalidate
      rw [hlimit, hvalid] at hmemory
      cases hmemory
    · rw [if_neg hdocker]
      cases hlimits : nativeLimits env settings with
      | error e => exact iff_of_true (Or.inr ⟨rfl, fun factory hok => by cases hok⟩) (by simp)
      | ok limits =>
        refine iff_of_false ?_ (by simp [hdocker])
        rintro (⟨htrue, -⟩ | ⟨-, hno⟩)
        · cases htrue
        · exact hno _ rfl

/-- The settings of a hub: a sandbox of the native backend, with 512 MiB spelled in two ways. -/
def sandboxSettings (limit : String) : PyDict :=
  [("sandbox_enabled", .bool true), ("sandbox_backend", .str "os"),
    ("sandbox_memory_limit", .str limit)]

/-- An environment without Docker, in which text is ASCII. -/
def SandboxEnv.plain : SandboxEnv where
  txt := { PyText.ascii with lower := id }
  floatOf _ := .error .typeError
  dockerInstalled := false

theorem sandbox_failsClosed_megabytes :
    FailsClosed .plain (sandboxSettings "512m") :=
  (sandbox_failsClosed_iff .plain (sandboxSettings "512m") rfl).mpr (Or.inl (by decide +kernel))

/-- A unit of two letters: the limit is not valid, and the shell runs without one. -/
theorem unknown_unit_unlimited :
    ∃ limits, sandboxShellFactory .plain (sandboxSettings "512mb") = .ok (.native limits) ∧
      limits.applied = [(.processes, 64)] ∧ ¬FailsClosed .plain (sandboxSettings "512mb") := by
  have hinvalid : validateMemory SandboxEnv.plain.txt
      (sandboxMemoryLimit .plain (sandboxSettings "512mb")) = false := by decide +kernel
  have hnative : sandboxShellFactory .plain (sandboxSettings "512mb") = .ok (.native
    ⟨0, 64, 0⟩) := by
    rfl
  refine ⟨_, hnative, rfl, ?_⟩
  rintro (⟨hvalid, -⟩ | ⟨-, hno⟩)
  · rw [hinvalid] at hvalid
    cases hvalid
  · exact hno _ hnative

end ThreadForge
