import Clickstream.Cli
import Clickstream.Proofs.Preserving
import Clickstream.Proofs.Starting
import Mathlib

/-! # What a run does

A run of the program reads its arguments and its configuration, which changes nothing, and then
carries out a command. Most commands only look at the server that they open: whatever holds of its
engine holds when they end.
-/

namespace Clickstream

open Engine

/-! ## Operations that only look -/

namespace Engine.Preserves

variable {P : Engine → Prop}

theorem getGoal {goalId : String} : Preserves P (Goals.getGoal goalId) := by
  refine get fun e h => ?_
  split
  · exact h
  · next item _ =>
    refine Preserves.bind ?_ (fun _ => .bind .log fun _ => .pure) e h
    rw [Goals.readEntity]
    split
    · exact .pure
    · exact .throw

theorem serverGoal {goalId : String} : Preserves P (Server.goal goalId) := by
  refine bind getGoal.adapt fun found => ?_
  cases found with
  | some goal => exact pure
  | none => exact throw

theorem goalReport {goalId : String} {split : Option String} {filter : Option Condition} :
    Preserves P (Server.goalReport goalId split filter) := by
  refine bind serverGoal fun _ => get fun e h => ?_
  split <;> exact h

theorem metadatas : Preserves P Goals.metadatas := bind allGoals fun _ => pure

end Engine.Preserves

namespace Cli

namespace Program

variable {P : Engine → Prop} {α β : Type} {shell : Shell}

theorem outcome_readFile {path : String} : shell.outcome (readFile path) =
    match shell.engine.store.files.text? (DiskPath.join shell.directory path) with
    | some text => (.ok text, shell)
    | none => (.error ("Error: " ++ ("failed to read " ++ path)), shell) := by
  have start : shell.outcome (get : Program Shell) = (.ok shell, shell) := rfl
  rw [readFile, outcome_bind, outcome_files]
  dsimp only
  rw [outcome_bind, start]
  dsimp only
  cases shell.engine.store.files.text? (DiskPath.join shell.directory path) <;> rfl

/-- What holds of the engine still holds of it when the program ends, however it does. -/
def Preserves (P : Engine → Prop) (program : Program α) : Prop :=
  ∀ shell : Shell, P shell.engine → P (shell.outcome program).2.engine

namespace Preserves

theorem pure {answer : α} : Preserves P (pure answer : Program α) := fun _ h => h

theorem throw {line : String} : Preserves P (throw line : Program α) := fun _ h => h

theorem bind {first : Program β} {next : β → Program α} (h : Preserves P first)
    (h' : ∀ answer, Preserves P (next answer)) : Preserves P (first >>= next) := by
  intro shell before
  have between := h shell before
  rw [outcome_bind]
  revert between
  rcases shell.outcome first with ⟨_ | answer, between⟩ <;> intro h
  · exact h
  · exact h' answer between h

/-- What is done may depend on the shell that is there. -/
theorem get {next : Shell → Program α} (h : ∀ shell, Preserves P (next shell)) :
    Preserves P (get >>= next) := fun shell before => h shell shell before

theorem print {text : String} : Preserves P (print text) := fun _ h => h

theorem printLine {text : String} : Preserves P (printLine text) := fun _ h => h

theorem warn {text : String} : Preserves P (warn text) := fun _ h => h

theorem log {lines : List LogLine} : Preserves P (log lines) := fun _ h => h

theorem forM {l : List β} {f : β → Program PUnit} (h : ∀ b ∈ l, Preserves P (f b)) :
    Preserves P (l.forM f) := by
  induction l with
  | nil => exact pure
  | cons b rest ih =>
    obtain ⟨here, later⟩ := List.forall_mem_cons.1 h
    exact bind here fun _ => ih later

/-- What is done may depend on the files that are there. -/
theorem files {next : FileTree → Program α}
    (h : ∀ shell : Shell, P shell.engine →
      P (shell.outcome (next shell.engine.store.files)).2.engine) :
    Preserves P (files >>= next) := by
  intro shell before
  rw [outcome_bind, outcome_files]
  exact h shell before

theorem attempt {ε : Type} {operation : Operation ε α} (h : Engine.Preserves P operation) :
    Preserves P (attempt operation) := fun shell before => h shell.engine before

theorem ofExcept {ε : Type} {message : ε → String} {result : Except ε α} :
    Preserves P (ofExcept message result) := by
  cases result with
  | ok answer => exact pure
  | error e => exact throw

theorem operate {ε : Type} {message : ε → String} {operation : Operation ε α}
    (h : Engine.Preserves P operation) : Preserves P (operate message operation) := by
  intro shell before
  have after := h shell.engine before
  rw [outcome_operate]
  revert after
  rcases shell.engine.outcome operation with ⟨_ | answer, engine⟩ <;> exact id

theorem readFile {path : String} : Preserves P (readFile path) := by
  intro shell h
  rw [outcome_readFile]
  split <;> exact h

/-! ## Commands after their server is open -/

theorem loadEntity [Entity α] {id : String} : Preserves P (loadEntity α id) := by
  refine get fun shell => ?_
  split
  · exact throw
  · exact ofExcept

theorem profileOrNew {profile : Option String} : Preserves P (profileOrNew profile) := by
  cases profile with
  | some id => exact loadEntity
  | none => exact pure

theorem sessionOrNew {now : Time.Instant} {profile : Profile} {session : Option String} :
    Preserves P (sessionOrNew now profile session) := by
  cases session with
  | some id => exact loadEntity
  | none => exact pure

theorem listGoals {all : Bool} : Preserves P (listGoals all) := by
  refine bind (operate .metadatas) fun found => ?_
  split
  · exact printLine
  · exact bind print fun _ => print

theorem showGoal {id : String} : Preserves P (showGoal id) :=
  bind (operate .serverGoal) fun _ => printLine

theorem readCondition {file : String} : Preserves P (readCondition file) := by
  refine bind readFile fun text => ?_
  split
  · exact pure
  · exact throw

theorem reportGoal {id : String} {split filter : Option String} {json : Bool} :
    Preserves P (reportGoal id split filter json) := by
  refine bind ?_ fun condition => bind (operate .goalReport) fun report => ?_
  · cases filter with
    | none => exact pure
    | some file => exact bind readCondition fun _ => pure
  · split
    · exact printLine
    · exact print

end Preserves

end Program

/-! ## Runs -/

variable {files : FileTree} {directory root : String} {now : Time.Instant}
  {arguments : List String} {bursts : List Burst} {config : ServerConfig} {command : Command}
  {shell : Shell}

namespace Program

/-- Whatever comes of a program, it leaves the shell as it is. -/
def Looks {α : Type} (program : Program α) : Prop :=
  ∀ shell : Shell, (shell.outcome program).2 = shell

theorem Looks.bind {α β : Type} {first : Program β} {next : β → Program α} (h : Looks first)
    (h' : ∀ answer, Looks (next answer)) : Looks (first >>= next) := by
  intro shell
  have same := h shell
  rw [outcome_bind]
  revert same
  rcases shell.outcome first with ⟨_ | answer, between⟩ <;> rintro rfl
  · rfl
  · exact h' answer between

theorem looks_readConfig {path : Option String} : Looks (readConfig root path) := by
  refine .bind (fun _ => rfl) fun files => ?_
  cases path with
  | none =>
    refine .bind (fun _ => rfl) fun result shell => ?_
    cases result <;> rfl
  | some path =>
    refine .bind (fun _ => rfl) fun result shell => ?_
    cases result <;> rfl

end Program

/-- The configuration that an invocation reads in the shell that it starts with. -/
def Invocation.readConfig (invocation : Invocation) (shell : Shell) : Except String ServerConfig :=
  (shell.outcome (Cli.readConfig (DiskPath.normal
    (DiskPath.join shell.directory invocation.projectRoot)) invocation.config)).1

theorem outcome_runInvocation {invocation : Invocation} :
    shell.outcome (runInvocation now bursts invocation) =
      match invocation.readConfig shell with
      | .error line => (.error line, shell)
      | .ok config =>
        if LogFilter.isValid config.logFilter then
          shell.outcome (runCommand now bursts config invocation.command)
        else
          (.error ("Error: " ++ ("invalid log filter '" ++ config.logFilter ++ "'")), shell) := by
  have start : shell.outcome (get : Program Shell) = (.ok shell, shell) := rfl
  have looks : Program.Looks (Cli.readConfig (DiskPath.normal
    (DiskPath.join shell.directory invocation.projectRoot)) invocation.config) :=
    Program.looks_readConfig
  have same := looks shell
  simp only [Invocation.readConfig, runInvocation, Program.outcome_bind, start]
  revert same
  rcases shell.outcome (Cli.readConfig _ invocation.config) with ⟨_ | config, between⟩ <;>
    rintro rfl
  · rfl
  · cases valid : LogFilter.isValid config.logFilter
    · simp [valid]; rfl
    · simp [valid]

/-- What some arguments ask for in a directory of some files: a command, under a configuration that
can be used. -/
structure Asks (files : FileTree) (directory : String) (arguments : List String)
    (config : ServerConfig) (command : Command) : Prop where
  configured : ∃ invocation, Invocation.read arguments = .ok invocation ∧
    invocation.command = command ∧
      invocation.readConfig (.start files directory) = .ok config
  filter : LogFilter.isValid config.logFilter = true

/-- Arguments ask for one thing only. -/
theorem Asks.unique {config' : ServerConfig} {command' : Command}
    (h : Asks files directory arguments config command)
    (h' : Asks files directory arguments config' command') :
    config' = config ∧ command' = command := by
  obtain ⟨⟨invocation, read, rfl, configured⟩, -⟩ := h
  obtain ⟨⟨invocation', read', rfl, configured'⟩, -⟩ := h'
  rw [read] at read'
  cases read'
  rw [configured] at configured'
  cases configured'
  exact ⟨rfl, rfl⟩

theorem outcome_readConfig_none : (shell.outcome (readConfig root none)).1 =
    match ServerConfig.loadOrDefault shell.engine.store.files root with
    | .ok config => .ok config
    | .error _ => .error "Error: failed to load server config" := by
  rw [readConfig, Program.outcome_bind, Program.outcome_files]
  dsimp only
  cases ServerConfig.loadOrDefault shell.engine.store.files root <;> rfl

/-- Without a configuration file a command is carried out as is usual in a project. -/
theorem asks_forProject {invocation : Invocation}
    (read : Invocation.read arguments = .ok invocation) (usual : invocation.config = none)
    (isRoot : DiskPath.normal (DiskPath.join directory invocation.projectRoot) = root)
    (absent : files.node? (ServerConfig.defaultPath root) = none) :
    Asks files directory arguments (.forProject root) invocation.command := by
  have valid : LogFilter.isValid "info" = true := by cbv
  have loaded : ServerConfig.loadOrDefault files root = .ok (.forProject root) := by
    simp [ServerConfig.loadOrDefault, absent]
  have configured : invocation.readConfig (.start files directory) = .ok (.forProject root) := by
    have same : (Shell.start files directory).engine.store.files = files := rfl
    have inDirectory : (Shell.start files directory).directory = directory := rfl
    rw [Invocation.readConfig, inDirectory, isRoot, usual, outcome_readConfig_none, same, loaded]
  exact ⟨⟨invocation, read, rfl, configured⟩, valid⟩

theorem run_of_read {invocation : Invocation} (read : Invocation.read arguments = .ok invocation) :
    (run files directory now arguments bursts).files = ((Shell.start files directory).outcome
        (runInvocation now bursts invocation)).2.engine.store.files ∧
      ((run files directory now arguments bursts).code = 0 ↔
        ((Shell.start files directory).outcome
          (runInvocation now bursts invocation)).1 = .ok ()) := by
  rw [run, launch, read]
  dsimp only
  rw [Shell.carryOut, Shell.outcome]
  rcases (ExceptT.run (runInvocation now bursts invocation)).run (Shell.start files directory) with
    ⟨⟨_ | _, later⟩, lines⟩ <;> simp

/-- Arguments that ask for a command carry it out. -/
theorem run_of_asks (asks : Asks files directory arguments config command) :
    (run files directory now arguments bursts).files = ((Shell.start files directory).outcome
        (runCommand now bursts config command)).2.engine.store.files ∧
      ((run files directory now arguments bursts).code = 0 ↔
        ((Shell.start files directory).outcome
          (runCommand now bursts config command)).1 = .ok ()) := by
  obtain ⟨⟨invocation, read, rfl, configured⟩, filter⟩ := asks
  have ended := @run_of_read files directory now arguments bursts invocation read
  rw [outcome_runInvocation, configured] at ended
  dsimp only at ended
  rw [if_pos filter] at ended
  exact ended

/-- Arguments that ask for no command leave the files alone. -/
theorem files_of_not_asks
    (none : ∀ config command, ¬ Asks files directory arguments config command) :
    (run files directory now arguments bursts).files = files := by
  cases read : Invocation.read arguments with
  | error halt =>
    rw [run, launch, read]
    cases halt <;> rfl
  | ok invocation =>
    rw [(run_of_read read).1, outcome_runInvocation]
    cases configured : invocation.readConfig (.start files directory) with
    | error line => rfl
    | ok config =>
      dsimp only
      rw [if_neg]
      · rfl
      · intro filter
        exact none config _ ⟨⟨invocation, read, rfl, configured⟩, filter⟩

end Cli

end Clickstream
