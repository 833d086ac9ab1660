import Clickstream.Proofs.Serving

/-! # Goals that stay removed

A goal that is removed on the command line is gone for the commands that follow, each of which opens
the data anew and activates every module, perhaps again and again while it serves: nothing in the
data tells of it, no module ships it, and nothing but a command that saves it writes such a file. A
goal that a module ships comes back with the next command.
-/

namespace Clickstream

open DiskPath Store

/-- The modules in a directory ship a goal. -/
def ModuleDirectory.Ships (files : FileTree) (directory goalId : String) : Prop :=
  ∃ modules, discover files directory = .ok modules ∧
    ∃ module ∈ modules, ∃ candidate ∈ (module.source files).goals, candidate.goal.id = goalId

/-- Two configurations keep their modules and their data in the same places. -/
structure ServerConfig.SamePlaces (config config' : ServerConfig) : Prop where
  modules : config'.modulesDirectory = config.modulesDirectory
  data : config'.dataDirectory = config.dataDirectory

namespace ServerConfig.SamePlaces

variable {config config' : ServerConfig} {base files : FileTree} {goalId : String}
  {gone : String → String → Prop}

theorem symm (same : config.SamePlaces config') : config'.SamePlaces config :=
  ⟨same.modules.symm, same.data.symm⟩

theorem apart (same : config.SamePlaces config') (h : config.Apart) : config'.Apart := by
  rw [ServerConfig.Apart, same.modules, same.data]
  exact h

theorem confines (same : config.SamePlaces config') (h : files.Confines config base goalId gone) :
    files.Confines config' base goalId gone where
  isTree := h.isTree
  modules := same.modules ▸ h.modules
  told := same.data ▸ h.told

theorem shipsSpared (same : config.SamePlaces config') (h : config.ShipsSpared base gone) :
    config'.ShipsSpared base gone := by
  rw [ServerConfig.ShipsSpared, same.modules]
  exact h

end ServerConfig.SamePlaces

namespace Cli

open Program

variable {config config' : ServerConfig} {base files files' : FileTree} {goalId : String}
  {gone : String → String → Prop} {shell later : Shell}

/-! ## Commands after the goal is gone -/

/-- What a command does until its server is open. -/
def opening (config : ServerConfig) : Command → Program Unit
  | .serve => startServing config
  | _ => openServer config

/-- Whether a command saves the goal of an id once its server is open. -/
def SavesGoal (shell : Shell) (goalId : String) : Command → Prop
  | .goal (.create id _ _) => id = goalId
  | .goal (.set file given) => ∃ text goal,
    shell.engine.store.files.text? (join shell.directory file) = some text ∧
      (Json.read? text).bind Goal.ofDocument? = some goal ∧ given.getD goal.id = goalId
  | _ => False

/-- A command leaves a goal alone once its server is open: it does not save it, and if it serves,
nobody else brings it back meanwhile. -/
structure LeavesGoal (config : ServerConfig) (goalId : String) (shell : Shell) (bursts : List Burst)
    (command : Command) : Prop where
  other : ¬ SavesGoal shell goalId command
  spared : command = .serve → SparedBy config goalId shell bursts

section

variable (apart : config.Apart) (ships : config.ShipsSpared base (OfGoal goalId))

include apart ships

theorem opening_keeps {command : Command} (h : shell.engine.Forgets config base goalId)
    {result : Except String Unit}
    (ended : shell.outcome (opening config command) = (result, later)) :
    later.engine.Keeps config base goalId (OfGoal goalId) ∨
      (∃ line, result = .error line) ∧ later.engine.Forgets config base goalId := by
  cases command with
  | serve => exact startServing_keeps apart ships h ended
  | tags | types | «match» | goal => exact openServer_keeps apart ships h ended

/-- Nothing is held of the goal in the server that a command opens. -/
theorem lacks_of_opening {command : Command} (h : shell.engine.Forgets config base goalId) :
    (shell.outcome (opening config command)).2.engine.store.Lacks goalId := by
  rcases opening_keeps apart ships h rfl with kept | ⟨-, forgets⟩
  · exact kept.confines.lacks
  · exact forgets.lacks

/-- Once its server is open, a command may do what leaves the goal alone. -/
theorem forgets_of_opening {command : Command} {next : Program Unit}
    (h : shell.engine.Forgets config base goalId)
    (keeps : ∀ opened, shell.outcome (opening config command) = (.ok (), opened) →
      opened.engine.Keeps config base goalId (OfGoal goalId) →
        (opened.outcome next).2.engine.Keeps config base goalId (OfGoal goalId)) :
    (shell.outcome (opening config command >>= fun _ => next)).2.engine.Forgets config base
      goalId := by
  rw [outcome_bind]
  cases ended : shell.outcome (opening config command) with
  | mk result opened =>
    rcases opening_keeps apart ships h ended with kept | ⟨⟨line, rfl⟩, forgets⟩
    · cases result with
      | error line => exact kept.forgets
      | ok answer => exact (keeps opened ended kept).forgets
    · exact forgets

omit ships in
/-- Saving the goal of a file under another id. -/
theorem keeps_saveGoal {file : String} {given : Option String}
    (h : shell.engine.Keeps config base goalId (OfGoal goalId))
    (other : ¬ SavesGoal shell goalId (.goal (.set file given))) :
    (shell.outcome (saveGoal file given)).2.engine.Keeps config base goalId (OfGoal goalId) := by
  rw [saveGoal, outcome_bind, outcome_readFile]
  cases found : shell.engine.store.files.text? (join shell.directory file) with
  | none => exact h
  | some text =>
    dsimp only
    split
    · exact h
    · next goal read =>
      have apartId : given.getD goal.id ≠ goalId :=
        fun same => other ⟨text, goal, found, read, same⟩
      split
      · exact h
      · exact Preserves.bind (.operate (Engine.Keeps.setGoal apart (spared_of_ne apartId)))
          (fun _ => .printLine) shell h

theorem forgets_runCommand {now : Time.Instant} {bursts : List Burst} {command : Command}
    (h : shell.engine.Forgets config base goalId)
    (leaves : LeavesGoal config goalId (shell.outcome (opening config command)).2 bursts command) :
    (shell.outcome (runCommand now bursts config command)).2.engine.Forgets config base goalId := by
  have opens {next : Program Unit} :=
    @forgets_of_opening config base goalId shell apart ships command next h
  cases command with
  | tags =>
    refine opens fun opened _ => Preserves.get (fun shell => ?_) opened
    dsimp only
    split
    · exact .printLine
    · exact .bind .print fun _ => .print
  | types kind tag recursive =>
    rw [runCommand, printTypes]
    split
    · exact h
    · refine opens fun opened _ => Preserves.get (fun shell => ?_) opened
      split
      · exact .printLine
      · exact .bind .print fun _ => .print
  | «match» file profile session =>
    rw [runCommand, printMatch, outcome_bind, outcome_readFile]
    cases shell.engine.store.files.text? (join shell.directory file) with
    | none => exact h
    | some text =>
      refine opens fun opened _ => Preserves.bind .profileOrNew (fun profile =>
        .bind .sessionOrNew fun session => .get fun shell => .bind .log fun _ => ?_) opened
      split
      · exact .printLine
      · exact .throw
  | goal command =>
    refine opens fun opened ended kept => ?_
    have other := leaves.other
    rw [ended] at other
    cases command with
    | list all => exact Preserves.listGoals opened kept
    | «show» id => exact Preserves.showGoal opened kept
    | create id name description =>
      exact Preserves.bind (.operate (Engine.Keeps.setGoal apart (spared_of_ne other)))
        (fun _ => .printLine) opened kept
    | set file given => exact keeps_saveGoal apart kept other
    | remove id =>
      refine Preserves.bind (.operate (Engine.Keeps.removeGoal apart)) (fun existed => ?_)
        opened kept
      cases existed with
      | true => exact .printLine
      | false => exact .throw
    | report id split filter json => exact Preserves.reportGoal opened kept
  | serve =>
    refine opens fun opened ended kept => keeps_of_bursts apart ships ?_ kept
    have spared := leaves.spared rfl
    rwa [ended] at spared

end

/-! ## Later runs -/

/-- A run that leaves a goal alone: if it opens a server, its places are those of a configuration,
and its command leaves the goal alone. -/
def LeavesAlone (config : ServerConfig) (goalId : String) (files : FileTree) (directory : String)
    (arguments : List String) (bursts : List Burst) : Prop :=
  ∀ config' command, Asks files directory arguments config' command →
    config.SamePlaces config' ∧
      LeavesGoal config' goalId
        ((Shell.start files directory).outcome (opening config' command)).2 bursts command

/-- The files at some later time: after runs that leave a goal alone, and after changes from
elsewhere that spare it. -/
inductive Later (config : ServerConfig) (goalId : String) (files : FileTree) : FileTree → Prop
  | now : Later config goalId files files
  | run {files' : FileTree} (earlier : Later config goalId files files') (directory : String)
    (now : Time.Instant) (arguments : List String) (bursts : List Burst) :
    LeavesAlone config goalId files' directory arguments bursts →
      Later config goalId files (Cli.run files' directory now arguments bursts).files
  | change {files' files'' : FileTree} (earlier : Later config goalId files files') :
    FileTree.Spares config goalId files' files'' → Later config goalId files files''

theorem forgets_start {directory : String} (h : files.Confines config base goalId (OfGoal goalId)) :
    (Shell.start files directory).engine.Forgets config base goalId :=
  ⟨h, fun _ _ _ => rfl⟩

/-- What leaves a goal alone keeps it gone. -/
theorem Later.confines (apart : config.Apart) (ships : config.ShipsSpared base (OfGoal goalId))
    (later : Later config goalId files files')
    (h : files.Confines config base goalId (OfGoal goalId)) :
    files'.Confines config base goalId (OfGoal goalId) := by
  induction later with
  | now => exact h
  | @run between earlier directory now arguments bursts leaves ih =>
    by_cases asked : ∃ config' command, Asks between directory arguments config' command
    · obtain ⟨config', command, asks⟩ := asked
      obtain ⟨same, leavesGoal⟩ := leaves config' command asks
      rw [(run_of_asks asks).1]
      exact same.symm.confines (forgets_runCommand (same.apart apart) (same.shipsSpared ships)
        (forgets_start (same.confines ih)) leavesGoal).files
    · rw [files_of_not_asks fun config' command asks => asked ⟨config', command, asks⟩]
      exact ih
  | change earlier spares ih => exact ih.change spares

/-- A run that removes a goal leaves files that tell nothing of it. -/
theorem confines_of_remove {directory : String} {now : Time.Instant} {arguments : List String}
    (apart : config.Apart) (isTree : files.IsTree)
    (asks : Asks files directory arguments config (.goal (.remove goalId)))
    (removed : (run files directory now arguments).code = 0)
    (placed : ∀ place item, Tells files config.dataDirectory place item →
      OfGoal goalId item.type item.id → (StoreCall.remove item.type item.id).At place) :
    (run files directory now arguments).files.Confines config files goalId (OfGoal goalId) := by
  obtain ⟨sameFiles, succeeds⟩ := @run_of_asks files directory now arguments [] config _ asks
  have succeeded := succeeds.1 removed
  rw [sameFiles]
  cases ended : (Shell.start files directory).outcome
      (runCommand now [] config (.goal (.remove goalId))) with
  | mk result later =>
    rw [ended] at succeeded
    obtain rfl : result = .ok () := succeeded
    obtain ⟨_, opened, isOpen, ended⟩ := bind_eq_ok.1 ended
    obtain ⟨existed, between, deleted, ended⟩ := bind_eq_ok.1 ended
    obtain ⟨e, isRemoved, rfl⟩ := operate_eq_ok.1 deleted
    -- Until the goal is removed nothing is gone, so modules may install what they like.
    have start : files.Confines config files goalId fun _ _ => False :=
      ⟨isTree, .refl, fun place item told ofGoal => ⟨id, placed place item told ofGoal⟩⟩
    have ships : config.ShipsSpared files fun _ _ => False := fun _ _ _ _ _ _ _ => id
    rcases openModules_keeps apart start (fun _ _ => False.elim)
      (fun _ => keeps_activate apart ships) isOpen with kept | ⟨⟨line, failed⟩, -⟩
    · have confined := (kept.confines.removeGoal apart).well isRemoved
      cases existed with
      | true => cases ended; exact confined.files
      | false => cases ended
    · cases failed

/-- After a goal was removed no later command finds it or a rule of it, in the server that it opens
or when it ends; a command that serves may be ended at any time. -/
theorem lacks_after_remove {directory directory' : String} {now now' : Time.Instant}
    {arguments arguments' : List String} {bursts : List Burst} {command : Command}
    (isTree : files.IsTree)
    (asks : Asks files directory arguments config (.goal (.remove goalId)))
    (removed : (run files directory now arguments).code = 0) (apart : config.Apart)
    (unshipped : ¬ ModuleDirectory.Ships files config.modulesDirectory goalId)
    (placed : ∀ place item, Tells files config.dataDirectory place item →
      OfGoal goalId item.type item.id → (StoreCall.remove item.type item.id).At place)
    (later : Later config goalId (run files directory now arguments).files files')
    (leaves : LeavesAlone config goalId files' directory' arguments' bursts)
    (asks' : Asks files' directory' arguments' config' command) :
    ((Shell.start files' directory').outcome
        (opening config' command)).2.engine.store.Lacks goalId ∧
      ((Shell.start files' directory').outcome
        (runCommand now' bursts config' command)).2.engine.store.Lacks goalId := by
  obtain ⟨same, leavesGoal⟩ := leaves config' command asks'
  have ships : config.ShipsSpared files (OfGoal goalId) := by
    intro module isIn c shipped
    obtain ⟨modules, found, member⟩ := (ModuleDirectory.isIn_iff isTree).1 isIn
    exact spared_of_ne fun own => unshipped ⟨modules, found, module, member, c, shipped, own⟩
  have confines := later.confines apart ships (confines_of_remove apart isTree asks removed placed)
  have start := @forgets_start config' files files' goalId directory' (same.confines confines)
  have apart' := same.apart apart
  have ships' := same.shipsSpared ships
  exact ⟨lacks_of_opening apart' ships' start,
    (forgets_runCommand apart' ships' start leavesGoal).lacks⟩

/-! ## Removing a goal of a project -/

/-- A project with one file. -/
def projectFiles (path text : String) : FileTree :=
  (FileTree.writeAll {} ("/p/.ctx/" ++ path) (.text text)).getD {}

/-- The text of a goal in the data. -/
def signupItem : String :=
  "\x7b\"itemId\":\"signup\",\"itemType\":\"goal\",\"metadata\":\x7b\"id\":\"signup\"\x7d\x7d"

/-- The goal is in the file that is named for it. -/
def signupFiles : FileTree := projectFiles "data/goal/signup.json" signupItem

/-- The goal is in a file with another name. -/
def misnamedFiles : FileTree := projectFiles "data/goal/old.json" signupItem

/-- The goal is shipped by a module. -/
def shippedFiles : FileTree :=
  projectFiles "modules/web/goals/signup.json" "\x7b\"metadata\":\x7b\"id\":\"signup\"\x7d\x7d"

def removeSignup : List String := ["goal", "remove", "signup"]

def listGoalsOnly : List String := ["goal", "list"]

/-- Some time for a run. -/
def noon : Time.Instant := ⟨43200, 0⟩

/-- The shell that a command ends with. -/
def ended (files : FileTree) (command : GoalCommand) : Except String Unit × Shell :=
  (Shell.start files "/p").outcome (runCommand noon [] (.forProject "/p") (.goal command))

theorem asks_remove {files : FileTree}
    (plain : files.node? (ServerConfig.defaultPath "/p") = none) :
    Asks files "/p" removeSignup (.forProject "/p") (.goal (.remove "signup")) := by
  have read : Invocation.read removeSignup = .ok { command := .goal (.remove "signup") } := by cbv
  exact asks_forProject read rfl (by decide +kernel) plain

theorem asks_list {files : FileTree}
    (plain : files.node? (ServerConfig.defaultPath "/p") = none) :
    Asks files "/p" listGoalsOnly (.forProject "/p") (.goal (.list false)) := by
  have read : Invocation.read listGoalsOnly = .ok { command := .goal (.list false) } := by cbv
  exact asks_forProject read rfl (by decide +kernel) plain

theorem leavesAlone_list {files : FileTree}
    (plain : files.node? (ServerConfig.defaultPath "/p") = none) :
    LeavesAlone (.forProject "/p") "signup" files "/p" listGoalsOnly [] := by
  intro config' command asks
  obtain ⟨rfl, rfl⟩ := (asks_list plain).unique asks
  exact ⟨⟨rfl, rfl⟩, id, nofun⟩

def serveModules : List String := ["serve"]

/-- While a server waits, a path in a module is reported that is not there. -/
def strayBurst : Burst := { paths := ["/p/.ctx/modules/web/goals/signup.json"] }

theorem asks_serve {files : FileTree}
    (plain : files.node? (ServerConfig.defaultPath "/p") = none) :
    Asks files "/p" serveModules (.forProject "/p") .serve := by
  have read : Invocation.read serveModules = .ok { command := .serve } := by cbv
  exact asks_forProject read rfl (by decide +kernel) plain

theorem leavesAlone_serve {files : FileTree}
    (plain : files.node? (ServerConfig.defaultPath "/p") = none)
    (isTree : ((Shell.start files "/p").outcome
      (startServing (.forProject "/p"))).2.engine.store.files.IsTree) :
    LeavesAlone (.forProject "/p") "signup" files "/p" serveModules [strayBurst] := by
  intro config' command asks
  obtain ⟨rfl, rfl⟩ := (asks_serve plain).unique asks
  exact ⟨⟨rfl, rfl⟩, id, fun _ => ⟨⟨isTree, .refl, fun _ _ told _ => told⟩, trivial⟩⟩

theorem apart_forProject : (ServerConfig.forProject "/p").Apart := by
  have modules : stack (ServerConfig.forProject "/p").modulesDirectory =
      ["modules", ".ctx", "p"] := by decide +kernel
  have data : stack (ServerConfig.forProject "/p").dataDirectory = ["data", ".ctx", "p"] := by
    decide +kernel
  intro group _ name
  rw [modules, data]
  simp [List.suffix_cons_iff]

/-- The goal is told of in its place. -/
theorem placed_signupFiles {place : Place} {item : Item}
    (told : Tells signupFiles (ServerConfig.forProject "/p").dataDirectory place item) :
    (StoreCall.remove item.type item.id).At place := by
  have only : listing signupFiles (ServerConfig.forProject "/p").dataDirectory =
      [("goal", "signup.json", .file (.text signupItem))] := by decide +kernel
  have read : ((saying? "goal" "signup.json" (.file (.text signupItem))).bind
      (Saying.itemAt? "goal" "signup")).isSome = true := by decide +kernel
  obtain ⟨node, listed, said⟩ := told
  rw [only, List.mem_singleton] at listed
  obtain ⟨group, name⟩ := place
  cases listed
  rw [said] at read
  obtain ⟨found, isItem⟩ := Option.isSome_iff_exists.1 read
  rw [Option.bind_some] at isItem
  obtain ⟨same, ofType, ofId⟩ := Saying.itemAt?_eq_some.1 isItem
  cases same
  rw [ofType, ofId]
  decide

/-- The goal is there, then it is removed, and neither a list nor a server that is told of a change
finds it again. -/
theorem lacks_after_remove_signup :
    ((ended signupFiles (.list false)).2.engine.store.load "goal" "signup").isSome = true ∧
      (run signupFiles "/p" noon removeSignup).code = 0 ∧
      (ended (run signupFiles "/p" noon removeSignup).files (.list false)).2.engine.store.Lacks
        "signup" ∧
      ((Shell.start (run signupFiles "/p" noon removeSignup).files "/p").outcome
        (runCommand noon [strayBurst] (.forProject "/p") .serve)).2.engine.store.Lacks
        "signup" := by
  have plain : signupFiles.node? (ServerConfig.defaultPath "/p") = none := by decide +kernel
  have ⟨removes, plainAfter, isTree⟩ :
      (ended signupFiles (.remove "signup")).1.toOption = some () ∧
      (ended signupFiles (.remove "signup")).2.engine.store.files.node?
        (ServerConfig.defaultPath "/p") = none ∧
      ((Shell.start (ended signupFiles (.remove "signup")).2.engine.store.files "/p").outcome
        (startServing (.forProject "/p"))).2.engine.store.files.IsTree := by decide +kernel
  obtain ⟨sameFiles, succeeds⟩ := @run_of_asks _ _ noon _ [] _ _ (asks_remove plain)
  have removed : (run signupFiles "/p" noon removeSignup).code = 0 :=
    succeeds.2 (toOption_eq_some.1 removes)
  rw [ended, ← sameFiles] at plainAfter isTree
  have unshipped : ¬ ModuleDirectory.Ships signupFiles
      (ServerConfig.forProject "/p").modulesDirectory "signup" := by
    have none : (ModuleDirectory.discover signupFiles
        (ServerConfig.forProject "/p").modulesDirectory).toOption.map List.isEmpty = some true := by
      decide +kernel
    rintro ⟨modules, found, module, member, -⟩
    rw [found] at none
    cases modules with
    | nil => cases member
    | cons first rest => cases none
  refine ⟨by decide +kernel, removed, ?_, ?_⟩
  · exact (lacks_after_remove (by decide +kernel) (asks_remove plain) removed apart_forProject
      unshipped (fun _ _ told _ => placed_signupFiles told) .now (leavesAlone_list plainAfter)
      (asks_list plainAfter)).2
  · exact (lacks_after_remove (by decide +kernel) (asks_remove plain) removed apart_forProject
      unshipped (fun _ _ told _ => placed_signupFiles told) .now
      (leavesAlone_serve plainAfter isTree) (asks_serve plainAfter)).2

/-- The goal is removed, and the list that follows finds it again, though it saves no goal. -/
structure FoundAgain (files : FileTree) : Prop where
  isTree : files.IsTree
  removed : (run files "/p" noon removeSignup).code = 0
  asks : Asks (run files "/p" noon removeSignup).files "/p" listGoalsOnly (.forProject "/p")
    (.goal (.list false))
  leaves : LeavesAlone (.forProject "/p") "signup" (run files "/p" noon removeSignup).files "/p"
    listGoalsOnly []
  found : ¬ (ended (run files "/p" noon removeSignup).files (.list false)).2.engine.store.Lacks
    "signup"

theorem foundAgain_of_ended {files : FileTree} (isTree : files.IsTree)
    (plain : files.node? (ServerConfig.defaultPath "/p") = none)
    (observed : (ended files (.remove "signup")).1.toOption = some () ∧
      (ended files (.remove "signup")).2.engine.store.files.node?
        (ServerConfig.defaultPath "/p") = none ∧
      ((ended (ended files (.remove "signup")).2.engine.store.files
        (.list false)).2.engine.store.load "goal" "signup").isSome = true) :
    FoundAgain files := by
  obtain ⟨removes, plainAfter, found⟩ := observed
  obtain ⟨sameFiles, succeeds⟩ := @run_of_asks _ _ noon _ [] _ _ (asks_remove plain)
  rw [ended, ← sameFiles] at plainAfter
  constructor
  · exact isTree
  · exact succeeds.2 (toOption_eq_some.1 removes)
  · exact asks_list plainAfter
  · exact leavesAlone_list plainAfter
  · rw [sameFiles]
    intro lacks
    have none : (ended (ended files (.remove "signup")).2.engine.store.files
        (.list false)).2.engine.store.load "goal" "signup" = none :=
      lacks "goal" "signup" (.inl ⟨rfl, rfl⟩)
    rw [none] at found
    cases found

/-- A goal is found again that a module ships, or that is told of in a file with another name. -/
theorem removed_goal_found_again : FoundAgain shippedFiles ∧ FoundAgain misnamedFiles := by
  constructor
  · exact foundAgain_of_ended (by decide +kernel) (by decide +kernel) (by decide +kernel)
  · exact foundAgain_of_ended (by decide +kernel) (by decide +kernel) (by decide +kernel)

end Cli

end Clickstream
