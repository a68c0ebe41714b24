import ThreadForge.Client.ReleaseDownload
import ThreadForge.Client.TimelineGroups
import ThreadForge.Client.ToolCopies
import ThreadForge.Events.Ordering
import ThreadForge.Events.TaskEnd
import ThreadForge.Gate.Safety
import ThreadForge.Hub.Atomicity
import ThreadForge.Hub.AuditBound
import ThreadForge.Hub.Pairing
import ThreadForge.Hub.RunPairing
import ThreadForge.Hub.SafePaths
import ThreadForge.Hub.TaskCreation
import ThreadForge.Hub.WorkerReleases
import ThreadForge.Hub.WorkspaceNames
import ThreadForge.Isolation.Applied
import ThreadForge.Isolation.Idempotence
import ThreadForge.Orchestrator.Finalization
import ThreadForge.Orchestrator.OneEnd
import ThreadForge.Orchestrator.Planning
import ThreadForge.Pico.AffectedPaths
import ThreadForge.Pico.Battle
import ThreadForge.Pico.Cleanup
import ThreadForge.Pico.Envelope
import ThreadForge.Pico.GateSoundness
import ThreadForge.Pico.OutputBudget
import ThreadForge.Pico.PatchFile
import ThreadForge.Pico.PromptBudget
import ThreadForge.Pico.Refusal
import ThreadForge.Pico.RepeatGuard
import ThreadForge.Pico.ShellText
import ThreadForge.Pico.ShownText
import ThreadForge.Pico.UncoveredLines
import ThreadForge.Runner.Reconcile
import ThreadForge.Store.Codes
import ThreadForge.Store.DefaultProvider
import ThreadForge.Store.Import
import ThreadForge.Store.RecoveryJournal
import ThreadForge.Store.SessionDeletion
import ThreadForge.Store.Users
import ThreadForge.Worker.Activity
import ThreadForge.Worker.AuditedReply
import ThreadForge.Worker.Binding
import ThreadForge.Worker.DownloadEnds
import ThreadForge.Worker.EntityDeletion
import ThreadForge.Worker.Followups
import ThreadForge.Worker.Heartbeat
import ThreadForge.Worker.HistoryReply
import ThreadForge.Worker.Sandbox
import ThreadForge.Worker.SessionFile
import ThreadForge.Worker.Terminal
