import Clickstream.Proofs.Confinement
import Clickstream.Proofs.Programs

/-! # What a running server keeps gone

A server that is opened activates all modules, and one that serves goes on to do so whenever it is
told of changes. Neither brings back a goal that no module ships, as long as others leave the
modules as they are and write nothing that tells of the goal: the modules lose no definition, so no
goal is written but those that they ship.
-/

namespace Clickstream

open DiskPath

/-! ## The module of a path -/

namespace ModuleDirectory

variable {directory path : String} {id : ModuleId}

/-- A module that a path belongs to is named, or it would be above the directory. -/
theorem isName_or_of_idAt? (found : idAt? directory path = some id) : IsName id ∨ id = ".." := by
  rw [idAt?] at found
  split at found
  · obtain ⟨rest, isPrefix, isHead⟩ := Option.bind_eq_some_iff.1 found
    rw [List.isPrefixOf?_eq_some_iff_append_eq] at isPrefix
    have member : id ∈ components path := by
      rw [← isPrefix]
      exact List.mem_append_right _ (List.mem_of_head? isHead)
    obtain ⟨isSegment, counts⟩ := List.mem_filter.1 member
    have slashless := not_mem_of_mem_split List.not_mem_nil isSegment
    rw [decide_eq_true_iff] at counts
    by_cases above : id = ".."
    · exact .inr above
    · exact .inl ⟨⟨counts.1, slashless⟩, counts.2, above⟩
  · cases found

/-- What opens under the name of a path is a module of the directory. -/
theorem isIn_of_idAt? {files : FileTree} {module : ModuleDirectory}
    (found : idAt? directory path = some id)
    (opened : openAt files (join directory id) = .ok module) : module.IsIn files directory := by
  rcases isName_or_of_idAt? found with isName | rfl
  · exact (isIn_of_openAt isName opened).1
  · obtain ⟨-, -, named⟩ := openAt_eq_ok.1 opened
    rw [name?_join_above] at named
    cases named

end ModuleDirectory

/-! ## Changes by others -/

/-- A change of the files leaves the modules as they are and tells nothing new of a goal. -/
structure FileTree.Spares (config : ServerConfig) (goalId : String) (files files' : FileTree) :
    Prop where
  isTree : files'.IsTree
  modules : FileTree.SameIn config.modulesDirectory files files'
  told : ∀ place item, Store.Tells files' config.dataDirectory place item →
    OfGoal goalId item.type item.id → Store.Tells files config.dataDirectory place item

/-- The modules ship nothing that is gone. -/
def ServerConfig.ShipsSpared (config : ServerConfig) (base : FileTree)
    (gone : String → String → Prop) : Prop :=
  ∀ module : ModuleDirectory, module.IsIn base config.modulesDirectory →
    ∀ c ∈ (module.source base).goals, Spared gone c.goal.id

/-- There is neither a goal nor a rule of it. -/
def Store.Lacks (store : Store) (goalId : String) : Prop :=
  ∀ type id, OfGoal goalId type id → store.load type id = none

/-- Nothing is held of a goal, and nothing is told of it in the files. -/
structure Engine.Forgets (config : ServerConfig) (base : FileTree) (goalId : String)
    (e : Engine) : Prop where
  files : e.store.files.Confines config base goalId (OfGoal goalId)
  lacks : e.store.Lacks goalId

variable {config : ServerConfig} {base files files' : FileTree} {goalId : String}
  {gone : String → String → Prop}

theorem FileTree.Confines.change (h : files.Confines config base goalId gone)
    (spares : FileTree.Spares config goalId files files') :
    files'.Confines config base goalId gone where
  isTree := spares.isTree
  modules := h.modules.trans (ModuleDirectory.sameModules_of_sameIn spares.modules)
  told place item told ofGoal := h.told place item (spares.told place item told ofGoal) ofGoal

theorem Engine.Keeps.forgets {e : Engine} (h : e.Keeps config base goalId (OfGoal goalId)) :
    e.Forgets config base goalId :=
  ⟨h.confines.files, h.confines.lacks⟩

/-- The directory of the modules may be made. -/
theorem FileTree.Confines.makeModules (h : files.Confines config base goalId gone)
    (made : files.makeDirectories config.modulesDirectory = some files') :
    files'.Confines config base goalId gone where
  isTree := h.isTree.makeDirectories made
  modules := h.modules.trans (ModuleDirectory.sameModules_of_makeDirectories made)
  told place item told ofGoal :=
    h.told place item (tells_of_makeDirectories h.isTree made told) ofGoal

namespace Cli

open Program

variable {shell later : Shell} {module : ModuleDirectory}

/-- The shell with other files. -/
def Shell.withFiles (shell : Shell) (files : FileTree) : Shell :=
  { shell with engine := { shell.engine with store := { shell.engine.store with files } } }

theorem Program.outcome_setFiles :
    shell.outcome (setFiles files) = (.ok (), shell.withFiles files) := rfl

/-! ## Opening a server -/

section

variable (apart : config.Apart) (ships : config.ShipsSpared base gone)

include apart ships

theorem keeps_activate (isIn : module.IsIn base config.modulesDirectory) :
    Preserves (Engine.Keeps config base goalId gone) (activate module) := by
  refine .files fun shell h => ?_
  rw [h.confines.files.modules.source module isIn]
  exact Preserves.bind (.operate (Engine.Keeps.activate apart isIn (ships module isIn)))
    (fun _ => .forM fun _ _ => .warn) shell h

theorem keeps_bringIn (isIn : module.IsIn base config.modulesDirectory) :
    Preserves (Engine.Keeps config base goalId gone) (bringIn module) := by
  refine .files fun shell h => ?_
  rw [h.confines.files.modules.source module isIn]
  refine Preserves.bind (.attempt (Engine.Keeps.activate apart isIn (ships module isIn)))
    (fun result => ?_) shell h
  cases result with
  | ok report => exact .bind .log fun _ => .printLine
  | error e => exact .log

omit ships in
/-- A server that is opened on files that confine a goal does so too, unless there is none. -/
theorem openModules_keeps {unlisted : ServerError → String} {each : ModuleDirectory → Program Unit}
    (h : shell.engine.store.files.Confines config base goalId gone)
    (only : ∀ type id, gone type id → OfGoal goalId type id)
    (keeps : ∀ module : ModuleDirectory, module.IsIn base config.modulesDirectory →
      Preserves (Engine.Keeps config base goalId gone) (each module))
    {result : Except String Unit}
    (ended : shell.outcome (openModules config unlisted each) = (result, later)) :
    later.engine.Keeps config base goalId gone ∨
      (∃ line, result = .error line) ∧ later.engine = shell.engine := by
  rw [outcome_openModules] at ended
  cases opened : Server.openOn shell.engine.store.files config with
  | error e =>
    rw [opened] at ended
    cases ended
    exact .inr ⟨⟨_, rfl⟩, rfl⟩
  | ok start =>
    have kept := h.openOn apart only opened
    have inOrder := kept.confines.files
    rw [opened] at ended
    dsimp only at ended
    left
    cases found : ModuleDirectory.discover start.store.files config.modulesDirectory with
    | error e =>
      rw [found] at ended
      cases ended
      exact kept
    | ok modules =>
      have all : Preserves (Engine.Keeps config base goalId gone) (modules.forM each) := by
        refine .forM fun module member => keeps module ((inOrder.modules.isIn module).1 ?_)
        exact (ModuleDirectory.isIn_iff inOrder.isTree).2 ⟨modules, found, member⟩
      have after := all { shell with engine := start } kept
      rw [found] at ended
      dsimp only at ended
      rw [ended] at after
      exact after

end

section

variable (apart : config.Apart) (ships : config.ShipsSpared base (OfGoal goalId))

include apart ships

/-- A server that is opened keeps a goal gone, unless it cannot be opened. -/
theorem openServer_keeps (h : shell.engine.Forgets config base goalId)
    {result : Except String Unit} (ended : shell.outcome (openServer config) = (result, later)) :
    later.engine.Keeps config base goalId (OfGoal goalId) ∨
      (∃ line, result = .error line) ∧ later.engine.Forgets config base goalId := by
  rcases openModules_keeps apart h.files (fun _ _ => id) (fun _ => keeps_activate apart ships)
    ended with kept | ⟨failed, same⟩
  · exact .inl kept
  · exact .inr ⟨failed, same ▸ h⟩

/-- A server that starts to serve keeps a goal gone, unless it cannot be opened. -/
theorem startServing_keeps (h : shell.engine.Forgets config base goalId)
    {result : Except String Unit} (ended : shell.outcome (startServing config) = (result, later)) :
    later.engine.Keeps config base goalId (OfGoal goalId) ∨
      (∃ line, result = .error line) ∧ later.engine.Forgets config base goalId := by
  rw [startServing, outcome_bind, outcome_files] at ended
  dsimp only at ended
  split at ended
  · next files made =>
    rw [outcome_bind, outcome_setFiles] at ended
    dsimp only at ended
    rw [outcome_bind] at ended
    have made' : (shell.withFiles files).engine.Forgets config base goalId :=
      ⟨h.files.makeModules made, h.lacks⟩
    cases start : (shell.withFiles files).outcome
        (openModules config ServerError.message bringIn) with
    | mk answer opened =>
      rw [start] at ended
      rcases openModules_keeps apart made'.files (fun _ _ => id)
        (fun _ => keeps_bringIn apart ships) start with kept | ⟨⟨line, rfl⟩, same⟩
      · cases answer with
        | error line => cases ended; exact .inl kept
        | ok nothing =>
          have isLater : (opened.outcome _).2 = later := congrArg Prod.snd ended
          rw [← isLater]
          exact .inl (Preserves.bind (.operate .metadatas) (fun _ => .printLine) opened kept)
      · cases ended
        exact .inr ⟨⟨_, rfl⟩, same ▸ made'⟩
  · cases ended
    exact .inr ⟨⟨_, rfl⟩, h⟩

/-! ## Serving -/

/-- A module is activated again, or there is none and nothing goes. -/
theorem keeps_renew {id : ModuleId} {path : String}
    (found : ModuleDirectory.idAt? config.modulesDirectory path = some id) :
    Preserves (Engine.Keeps config base goalId (OfGoal goalId)) (renew config id) := by
  refine .files fun shell h => ?_
  have same := h.confines.files.modules.isIn
  dsimp only
  split
  · split
    · next module opened =>
      have isIn := (same module).1 (ModuleDirectory.isIn_of_idAt? found opened)
      exact keeps_bringIn apart ships isIn shell h
    · exact Preserves.log shell h
  · next absent =>
    refine Preserves.bind (.attempt (Engine.Keeps.deactivate fun module isIn same' => absent ?_))
      (fun result => ?_) shell h
    · have opened := ((same module).2 isIn).opened
      rw [same'] at opened
      exact (ModuleDirectory.openAt_eq_ok.1 opened).1
    · cases result with
      | ok report => exact .printLine
      | error e => exact .log

theorem keeps_takeBurst {burst : Burst}
    (spares : FileTree.Spares config goalId shell.engine.store.files
      (burst.change shell.engine.store.files))
    (h : shell.engine.Keeps config base goalId (OfGoal goalId)) :
    (shell.outcome (takeBurst config burst)).2.engine.Keeps config base goalId
      (OfGoal goalId) := by
  rw [takeBurst, outcome_bind, outcome_files]
  dsimp only
  rw [outcome_bind, outcome_setFiles]
  dsimp only
  refine Preserves.forM (fun id member => ?_) (shell.withFiles _)
    (h.withFiles (h.confines.files.change spares))
  rw [IdSet.mem_toList, IdSet.mem_ofList] at member
  obtain ⟨path, -, found⟩ := List.mem_filterMap.1 member
  exact keeps_renew apart ships found

end

/-- What others change while a server waits spares a goal. -/
def SparedBy (config : ServerConfig) (goalId : String) : Shell → List Burst → Prop
  | _, [] => True
  | shell, burst :: rest =>
    FileTree.Spares config goalId shell.engine.store.files
      (burst.change shell.engine.store.files) ∧
    SparedBy config goalId (shell.outcome (takeBurst config burst)).2 rest

section

variable (apart : config.Apart) (ships : config.ShipsSpared base (OfGoal goalId))

include apart ships

theorem keeps_of_bursts {bursts : List Burst} (spared : SparedBy config goalId shell bursts)
    (h : shell.engine.Keeps config base goalId (OfGoal goalId)) :
    (shell.outcome (bursts.forM (takeBurst config))).2.engine.Keeps config base goalId
      (OfGoal goalId) := by
  induction bursts generalizing shell with
  | nil => exact h
  | cons burst rest ih =>
    obtain ⟨here, later⟩ := spared
    have kept := keeps_takeBurst apart ships here h
    rw [List.forM_eq_forM, List.forM_cons, outcome_bind]
    revert kept later
    rcases shell.outcome (takeBurst config burst) with ⟨_ | answer, between⟩ <;> intro later kept
    · exact kept
    · exact ih later kept

end

end Cli

end Clickstream
