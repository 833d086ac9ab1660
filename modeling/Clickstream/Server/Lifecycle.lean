import Clickstream.Server

/-! # Lifecycle commands

Modules come and go while a server runs. Whoever notices it queues a command, either without waiting
for the outcome or waiting for it; commands are carried out one at a time in the order in which they
were queued. If nobody waits for an outcome, a failure goes to the log.
-/

namespace Clickstream

/-- A change of the modules. -/
inductive LifecycleCommand where
  /-- A module came or changed. -/
  | activate (source : ModuleSource)
  | deactivate (module : ModuleId)

/-- The commands that nobody waits for, and whether commands are still taken. -/
structure Lifecycle where
  /-- The commands not yet carried out, first one first. -/
  queue : List LifecycleCommand := []
  /-- No commands are taken any more. -/
  stopped : Bool := false

namespace LifecycleCommand

def text : LifecycleCommand → String
  | activate _ => "activate"
  | deactivate _ => "deactivate"

def apply : LifecycleCommand → Server.ServerOperation Unit
  | activate source => do let _ ← Server.activate source
  | deactivate module => do let _ ← Server.deactivate module

/-- Carry out a command that nobody waits for. -/
def applyUnawaited (command : LifecycleCommand) : Server.ServerOperation Unit := do
  match ← ExceptT.lift (ExceptT.run command.apply) with
  | .ok () => return ()
  | .error e =>
    Operation.log [.failure ("module " ++ command.text ++ " failed: " ++ e.message)]

end LifecycleCommand

namespace Lifecycle

/-- Queue a command without waiting. -/
def send (l : Lifecycle) (command : LifecycleCommand) : Except ServerError Lifecycle :=
  if l.stopped then .error .lifecycleStopped
  else .ok { l with queue := l.queue ++ [command] }

/-- Carry out everything that is queued. -/
def drain (l : Lifecycle) : Server.ServerOperation Unit :=
  l.queue.forM LifecycleCommand.applyUnawaited

/-- Queue an operation and wait for its outcome. -/
def await (l : Lifecycle) (operation : Server.ServerOperation α) : Server.ServerOperation α := do
  if l.stopped then throw .lifecycleStopped
  l.drain
  operation

/-- Nothing is queued and no commands are taken any more. -/
def closed : Lifecycle := { stopped := true }

end Lifecycle

end Clickstream
