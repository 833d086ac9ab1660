import Clickstream.Proofs.ModuleChanges
import Clickstream.Proofs.Preserving
import Clickstream.Proofs.StoreCalls

/-! # Which mappings a store takes

A mapping is refused because it is no JSON or because its file cannot be written: its name is too
long, a file stands where a directory is needed, or a directory where the file goes. What is written
or deleted two parts below the directory of a store changes none of this, so a store that took a
mapping takes it again and one that refused it refuses it again.
-/

namespace Clickstream

open DiskPath Store

namespace FileTree

variable {tree tree' : FileTree} {path other : String} {content : Content}

/-- There is a file at the path of some parts. -/
def HasFile (tree : FileTree) (parts : List String) : Prop :=
  ∃ content, tree.at? parts = some (.file content)

/-- A file can be written at a path, with the directories above it. -/
structure Writable (tree : FileTree) (path : String) : Prop where
  nonempty : stack path ≠ []
  fits : fits (stack path) = true
  noFileAbove : ∀ upper ∈ above (stack path), upper ≠ [] → ¬ tree.HasFile upper
  noDirectory : tree.at? (stack path) ≠ some .directory

theorem exists_makeDirectory_iff {parts : List String} :
    (∃ tree', tree.makeDirectory parts = some tree') ↔ ¬ tree.HasFile parts := by
  rw [HasFile, at?, makeDirectory]
  rcases tree.nodes.get? (ofStack parts) with _ | _ | content <;> simp

theorem exists_foldlM_makeDirectory_iff {paths : List (List String)}
    (good : ∀ upper ∈ paths, upper ≠ [] ∧ ∀ part ∈ upper, IsPart part) :
    (∃ tree', paths.foldlM makeDirectory tree = some tree') ↔
      ∀ upper ∈ paths, ¬ tree.HasFile upper := by
  induction paths generalizing tree with
  | nil => simp
  | cons upper rest ih =>
    obtain ⟨here, later⟩ := List.forall_mem_cons.1 good
    rw [List.forall_mem_cons, ← exists_makeDirectory_iff]
    simp only [List.foldlM_cons, Option.bind_eq_bind, Option.bind_eq_some_iff]
    -- A directory more or less is no file.
    have same {between : FileTree} (made : tree.makeDirectory upper = some between) :
        (∀ lower ∈ rest, ¬ between.HasFile lower) ↔ ∀ lower ∈ rest, ¬ tree.HasFile lower := by
      refine forall₂_congr fun lower member => ?_
      rw [HasFile, at?_makeDirectory here.1 here.2 made (later lower member).2]
      split
      · next isUpper =>
        have noFile := exists_makeDirectory_iff.1 ⟨between, made⟩
        rw [← isUpper] at noFile
        simpa using noFile
      · rfl
    constructor
    · rintro ⟨tree', between, made, rest⟩
      exact ⟨⟨between, made⟩, (same made).1 ((ih later).1 ⟨tree', rest⟩)⟩
    · rintro ⟨⟨between, made⟩, noFiles⟩
      obtain ⟨tree', rest⟩ := (ih later).2 ((same made).2 noFiles)
      exact ⟨tree', between, made, rest⟩

theorem exists_makeDirectories_iff : (∃ tree', tree.makeDirectories path = some tree') ↔
    fits (stack path) = true ∧
      ∀ upper ∈ stack path :: above (stack path), upper ≠ [] → ¬ tree.HasFile upper := by
  rw [makeDirectories]
  cases fit : fits (stack path) with
  | false => simp
  | true =>
    simp only [Bool.not_true, Bool.false_eq_true, if_false, true_and]
    rw [exists_foldlM_makeDirectory_iff]
    · simp only [List.mem_reverse, List.mem_filter, decide_eq_true_iff, and_imp]
    · intro upper member
      obtain ⟨inPath, isLower⟩ := List.mem_filter.1 (List.mem_reverse.1 member)
      exact ⟨by simpa using isLower, isPart_of_mem_above isName_stack inPath⟩

theorem isDirectory_iff : tree.isDirectory path = true ↔
    stack path = [] ∨ tree.at? (stack path) = some .directory := by
  rw [isDirectory, node?_eq, decide_eq_true_iff]
  split
  · next root => simp [root]
  · next below => simp [below]

theorem exists_write_iff : (∃ tree', tree.write path content = some tree') ↔
    fits (stack path) = true ∧ tree.isDirectory (ofStack (stack path).tail) = true ∧
      ¬ tree.isDirectory path = true := by
  rw [write]
  split
  · next refused =>
    simp only [reduceCtorEq, exists_false, false_iff]
    rintro ⟨fit, upper, free⟩
    simp [fit, upper, free] at refused
  · next fine => simp_all

theorem exists_writeAll_iff :
    (∃ tree', tree.writeAll path content = some tree') ↔ tree.Writable path := by
  simp only [writeAll, Option.bind_eq_bind, Option.bind_eq_some_iff]
  have tail : stack (ofStack (stack path).tail) = (stack path).tail :=
    stack_ofStack isName_tail_stack
  -- Making the directories above the file leaves its own place as it is.
  have between {tree' : FileTree}
      (made : tree.makeDirectories (ofStack (stack path).tail) = some tree') :
      tree'.isDirectory (ofStack (stack path).tail) = true ∧
        (tree'.isDirectory path = true ↔ tree.isDirectory path = true) := by
    simp only [isDirectory_iff, tail]
    constructor
    · refine Decidable.or_iff_not_imp_left.2 fun nonempty => ?_
      rw [at?_makeDirectories made nonempty
          fun part member => (isName_tail_stack part member).isPart,
        tail, if_pos List.mem_cons_self]
    · by_cases root : stack path = []
      · simp [root]
      rw [at?_makeDirectories made root isPart_stack, tail, if_neg]
      intro member
      have short := length_le_of_mem_upper member
      have positive := List.length_pos_iff.2 root
      rw [List.length_tail] at short
      omega
  constructor
  · rintro ⟨tree', tree₁, made, wrote⟩
    obtain ⟨fit, -, free⟩ := exists_write_iff.1 ⟨tree', wrote⟩
    rw [(between made).2, isDirectory_iff, not_or] at free
    have noFiles := (exists_makeDirectories_iff.1 ⟨tree₁, made⟩).2
    rw [tail, ← above_of_ne_nil free.1] at noFiles
    exact ⟨free.1, fit, noFiles, free.2⟩
  · intro writable
    have fit : fits (stack path).tail = true := by
      have all := writable.fits
      rw [fits, List.all_eq_true] at all ⊢
      exact fun part member => all part (List.mem_of_mem_tail member)
    obtain ⟨tree₁, made⟩ : ∃ tree₁,
        tree.makeDirectories (ofStack (stack path).tail) = some tree₁ := by
      rw [exists_makeDirectories_iff, tail, ← above_of_ne_nil writable.nonempty]
      exact ⟨fit, writable.noFileAbove⟩
    have free : ¬ tree₁.isDirectory path = true := by
      rw [(between made).2, isDirectory_iff]
      exact not_or.2 ⟨writable.nonempty, writable.noDirectory⟩
    obtain ⟨tree', wrote⟩ :=
      exists_write_iff.2 ⟨writable.fits, (between made).1, free⟩
    exact ⟨tree', tree₁, made, wrote⟩

theorem isPart_of_above {upper : List String} (h : upper ∈ above (stack path)) :
    ∀ part ∈ upper, IsPart part :=
  fun part member => isPart_stack part ((suffix_of_mem_above h).subset member)

theorem writable_congr
    (files : ∀ upper ∈ above (stack path), upper ≠ [] → (tree'.HasFile upper ↔ tree.HasFile upper))
    (directory : stack path ≠ [] →
      (tree'.at? (stack path) = some .directory ↔ tree.at? (stack path) = some .directory)) :
    tree'.Writable path ↔ tree.Writable path := by
  have noFiles : (∀ upper ∈ above (stack path), upper ≠ [] → ¬ tree'.HasFile upper) ↔
      ∀ upper ∈ above (stack path), upper ≠ [] → ¬ tree.HasFile upper :=
    forall_congr' fun upper => forall_congr' fun member => forall_congr' fun nonempty =>
      not_congr (files upper member nonempty)
  constructor
  · rintro ⟨nonempty, fit, above, free⟩
    exact ⟨nonempty, fit, noFiles.1 above, fun there => free ((directory nonempty).2 there)⟩
  · rintro ⟨nonempty, fit, above, free⟩
    exact ⟨nonempty, fit, noFiles.2 above, fun there => free ((directory nonempty).1 there)⟩

/-- Writing a file changes nothing about whether another one as many parts below the root can be
written. -/
theorem writable_of_writeAll (written : tree.writeAll other content = some tree')
    (level : (stack other).length = (stack path).length) :
    tree'.Writable path ↔ tree.Writable path := by
  have before := exists_writeAll_iff.1 ⟨tree', written⟩
  apply writable_congr
  · intro upper member nonempty
    have short := length_lt_of_mem_above member
    have notOther : upper ≠ stack other := by
      intro same
      rw [same] at short
      omega
    rw [HasFile, at?_writeAll written nonempty (isPart_of_above member), if_neg notOther]
    split
    · next shared =>
      have noFile := before.noFileAbove upper shared nonempty
      simpa using noFile
    · rfl
  · intro nonempty
    rw [at?_writeAll written nonempty isPart_stack]
    split
    · next same => simpa [same] using before.noDirectory
    · rw [if_neg]
      intro member
      have short := length_lt_of_mem_above member
      omega

/-- Nor does deleting one. -/
theorem writable_of_removeFile (removed : tree.removeFile other = some tree')
    (level : (stack other).length = (stack path).length) :
    tree'.Writable path ↔ tree.Writable path := by
  apply writable_congr
  · intro upper member nonempty
    have short := length_lt_of_mem_above member
    have notOther : upper ≠ stack other := by
      intro same
      rw [same] at short
      omega
    rw [HasFile, (at?_removeFile removed (isPart_of_above member)).2, if_neg notOther]
    rfl
  · intro nonempty
    obtain ⟨⟨content, found⟩, after⟩ := at?_removeFile removed (@isPart_stack path)
    rw [after]
    split
    · next same => simp [same, found]
    · rfl

end FileTree

namespace Store

variable {store store' : Store} {group name : String}

/-- The file of an item or mapping can be written. -/
def CanWrite (store : Store) (group name : String) : Prop :=
  ∀ directory, store.directory = some directory →
    store.files.Writable (fileName directory group name)

theorem exists_writeFile_iff {text : String} :
    (∃ store', store.writeFile group name text = .ok store') ↔ store.CanWrite group name := by
  unfold writeFile CanWrite
  cases store.directory with
  | none => simp
  | some directory =>
    simp only [Option.some.injEq, forall_eq', ← @FileTree.exists_writeAll_iff _ _ (.text text)]
    cases store.files.writeAll (fileName directory group name) (.text text) <;> simp

theorem length_fileName {directory : String} (isName : IsName group) :
    (stack (fileName directory group name)).length = (stack directory).length + 2 := by
  rw [stack_fileName isName.isPart.2, push_name isName]
  rfl

theorem canWrite_of_writeFile {group' name' text : String} (isName : IsName group)
    (isName' : IsName group') (written : store.writeFile group' name' text = .ok store') :
    store'.CanWrite group name ↔ store.CanWrite group name := by
  cases kept : store.directory with
  | none =>
    rw [writeFile, kept] at written
    cases written
    rfl
  | some directory =>
    obtain ⟨kept', wrote⟩ := StoreCall.files_of_writeFile kept written
    simp only [CanWrite, kept, kept', Option.some.injEq, forall_eq']
    refine FileTree.writable_of_writeAll wrote ?_
    rw [length_fileName isName, length_fileName isName']

theorem canWrite_of_save {item : Item} (isName : IsName group)
    (isType : IsName (fileSafe item.type)) (saved : store.save item = .ok store') :
    store'.CanWrite group name ↔ store.CanWrite group name := by
  rw [save] at saved
  cases written : store.writeFile (fileSafe item.type) item.id item.toJson.pretty with
  | error e => rw [written] at saved; cases saved
  | ok between =>
    rw [written] at saved
    cases saved
    have same : between.CanWrite group name ↔ store.CanWrite group name :=
      canWrite_of_writeFile isName isType written
    exact same

theorem canWrite_of_createMapping {type text : String} (isName : IsName group)
    (created : store.createMapping type text = .ok store') :
    store'.CanWrite group name ↔ store.CanWrite group name := by
  rw [createMapping] at created
  split at created
  · cases created
  · cases written : store.writeFile mappingsName type text with
    | error e => rw [written] at created; cases created
    | ok between =>
      rw [written] at created
      cases created
      have same : between.CanWrite group name ↔ store.CanWrite group name :=
        canWrite_of_writeFile isName isName_mappingsName written
      exact same

theorem canWrite_of_remove {type id : String} (isName : IsName group)
    (isType : IsName (fileSafe type)) :
    (store.remove type id).2.CanWrite group name ↔ store.CanWrite group name := by
  have dropped : (store.drop type id).CanWrite group name ↔ store.CanWrite group name := by
    rw [CanWrite, StoreCall.files_drop.1, StoreCall.files_drop.2]
    rfl
  rw [remove]
  split
  · exact dropped
  · next directory kept =>
    dsimp only
    split
    · exact dropped
    · split
      · next files deleted =>
        rw [← dropped]
        simp only [CanWrite, kept, Option.some.injEq, forall_eq']
        refine FileTree.writable_of_removeFile deleted ?_
        rw [length_fileName isName, length_fileName isType]
      · exact dropped

end Store

/-! ## The mappings of an engine -/

/-- The mapping of a document is taken: it is one, and its file can be written. -/
def Store.takes (store : Store) (document : SourceDocument) : Bool :=
  (store.createMapping document.name document.content).toOption.isSome

/-- The mappings that are taken of some documents. -/
def Store.taken (store : Store) (documents : List SourceDocument) : Fields Json :=
  (documents.filter store.takes).filterMap SourceDocument.mapping?

/-- Two engines have the same mappings, and take the same ones. -/
structure Engine.SameMappings (e e' : Engine) : Prop where
  mappings : e'.store.mappings = e.store.mappings
  canWrite : ∀ name, e'.store.CanWrite mappingsName name ↔ e.store.CanWrite mappingsName name

/-- An engine has taken the mappings of some documents, and takes the same ones as before. -/
structure Engine.HasTaken (e : Engine) (documents : List SourceDocument) (e' : Engine) : Prop where
  mappings : e'.store.mappings = e.store.mappings.insertAll (e.store.taken documents)
  canWrite : ∀ name, e'.store.CanWrite mappingsName name ↔ e.store.CanWrite mappingsName name

namespace Store

variable {store store' : Store} {document : SourceDocument} {documents : List SourceDocument}

theorem takes_iff : store.takes document = true ↔
    (∃ value, Json.parse? document.content = some value) ∧
      store.CanWrite mappingsName document.name := by
  rw [takes, createMapping, ← @exists_writeFile_iff _ _ _ document.content]
  cases Json.parse? document.content with
  | none => simp [Except.toOption]
  | some value =>
    dsimp only
    cases written : store.writeFile mappingsName document.name document.content with
    | ok between => exact iff_of_true rfl ⟨⟨value, rfl⟩, between, rfl⟩
    | error e =>
      refine iff_of_false Bool.false_ne_true ?_
      rintro ⟨-, _, ⟨⟩⟩

theorem taken_congr (same : ∀ name, store'.CanWrite mappingsName name ↔
    store.CanWrite mappingsName name) : store'.taken documents = store.taken documents := by
  rw [taken, taken]
  congr 2
  funext document
  rw [Bool.eq_iff_iff, takes_iff, takes_iff, same]

end Store

namespace Engine

variable {e e' e'' : Engine} {document : SourceDocument} {documents : List SourceDocument}
  {ε : Type}

theorem SameMappings.refl : e.SameMappings e := ⟨rfl, fun _ => Iff.rfl⟩

theorem HasTaken.trans_same (first : e.HasTaken documents e') (second : e'.SameMappings e'') :
    e.HasTaken documents e'' :=
  ⟨second.mappings.trans first.mappings,
    fun name => (second.canWrite name).trans (first.canWrite name)⟩

/-- What was taken once changes nothing when it is taken again. -/
theorem HasTaken.again (first : e.HasTaken documents e') (second : e'.HasTaken documents e'') :
    e''.store.mappings = e'.store.mappings := by
  rw [second.mappings, Store.taken_congr first.canWrite, first.mappings]
  refine Table.ext fun name => ?_
  rw [Table.get?_insertAll, Table.get?_insertAll, ← Option.or_assoc, Option.or_self]

theorem ends_takeMappings :
    e.Ends (Operation.createMappings documents : Operation ε _)
      (fun _ e' => e.HasTaken documents e') (fun _ _ => False) := by
  induction documents generalizing e with
  | nil => exact ⟨rfl, fun _ => Iff.rfl⟩
  | cons document rest ih =>
    rw [Operation.createMappings, ends_bind, ends_get]
    have takes : e.store.takes document =
      (e.store.createMapping document.name document.content).toOption.isSome := rfl
    cases created : e.store.createMapping document.name document.content with
    | ok store =>
      obtain ⟨-, value, parsed, mappings⟩ := Store.createMapping_eq_ok created
      have same (name : String) := @Store.canWrite_of_createMapping _ _ _ name _ _
        isName_mappingsName created
      simp only [ends_bind, ends_set, ends_pure]
      refine ih.mono (fun _ e' later => ?_) fun _ _ failed => failed
      refine ⟨?_, fun name => (later.canWrite name).trans (same name)⟩
      have isMapping : document.mapping? = some (document.name, value) := by
        rw [SourceDocument.mapping?, parsed]
        rfl
      have isTaken : e.store.takes document = true := by rw [takes, created]; rfl
      rw [later.mappings, Store.taken_congr same, mappings, Store.taken, Store.taken,
        List.filter_cons_of_pos isTaken, List.filterMap_cons, isMapping]
      rfl
    | error error =>
      simp only [ends_bind, ends_log, ends_pure]
      refine ih.mono (fun _ e' later => ?_) fun _ _ failed => failed
      have notTaken : ¬ e.store.takes document = true := by
        rw [takes, created]
        exact Bool.false_ne_true
      refine ⟨?_, later.canWrite⟩
      rw [later.mappings, Store.taken, Store.taken, List.filter_cons_of_neg notTaken]

theorem takeMappings_of_loadModule {source : ModuleSource} :
    e.Ends (Operation.loadModule source true : Operation ε LoadReport)
      (fun _ e' => e.HasTaken (source.documents .mappings) e') (fun _ _ => False) := by
  simp only [Operation.loadModule, Operation.loadMappings, ModuleSource.documents, ends_bind,
    ends_log]
  cases listed : (source.list .mappings).documents with
  | error reason =>
    simp only [ends_bind, ends_log, ends_pure, ends_get, ends_set]
    exact ⟨rfl, fun _ => Iff.rfl⟩
  | ok documents =>
    refine ends_takeMappings.mono (fun result e₁ taken => ?_) fun _ _ failed => failed
    simp only [ends_pure, ends_get, ends_set]
    exact ⟨taken.mappings, taken.canWrite⟩

/-! ## Changing goals leaves the mappings alone -/

namespace SameMappings

private theorem isName_goal : IsName (fileSafe "goal") := by decide

private theorem isName_rule : IsName (fileSafe "rule") := by decide

theorem save {item : Item} (isType : IsName (fileSafe item.type)) :
    Preserves e.SameMappings (Operation.save item) :=
  .save fun _ _ same saved => ⟨(save_eq_ok saved).2.trans same.mappings, fun name =>
    (canWrite_of_save isName_mappingsName isType saved).trans (same.canWrite name)⟩

theorem remove {type id : String} (isType : IsName (fileSafe type)) :
    Preserves e.SameMappings (Operation.remove type id) :=
  .remove fun _ same => ⟨(remove_snd.2.trans mappings_drop).trans same.mappings, fun name =>
    (canWrite_of_remove isName_mappingsName isType).trans (same.canWrite name)⟩

theorem setGoal {goalId : String} {goal : Goal} :
    Preserves e.SameMappings (Goals.setGoal goalId goal) :=
  .setGoal (fun _ _ _ _ _ => remove isName_rule) (fun _ _ _ _ _ _ _ _ => save isName_rule)
    fun _ _ _ _ _ => save isName_goal

theorem disableUsing {ids : IdSet} : Preserves e.SameMappings (Goals.disableUsing ids) :=
  .disableUsing fun _ => .disable (fun _ => remove isName_rule) rfl (save isName_goal)

theorem loadGoals {source : ModuleSource} : Preserves e.SameMappings (Goals.loadGoals source) :=
  .loadGoals (fun _ same => ⟨same.mappings, same.canWrite⟩) fun _ =>
    .installGoal (fun _ _ same _ => ⟨same.mappings, same.canWrite⟩)
      (fun _ same => ⟨same.mappings, same.canWrite⟩) fun e' same _ => setGoal e' same

end SameMappings

/-- However activating a module ends, its mappings are taken first and left alone afterwards. -/
theorem takeMappings_of_activate {source : ModuleSource} :
    e.Ends (Server.activate source) (fun _ e' => e.HasTaken (source.documents .mappings) e')
      (fun _ e' => e.HasTaken (source.documents .mappings) e') := by
  rw [Server.activate, ends_bind]
  refine takeMappings_of_loadModule.mono (fun report e₁ taken => ?_) fun _ _ failed => failed.elim
  have goals : Preserves e₁.SameMappings (do
      let goalsDisabled ← Server.ofGoals (Goals.disableUsing report.removed.conditionTypes)
      let goalsInstalled ← Server.ofGoals (Goals.loadGoals source)
      return { load := report, goalsInstalled, goalsDisabled } :
        Server.ServerOperation ActivationReport) :=
    .bind SameMappings.disableUsing.adapt fun _ => .bind SameMappings.loadGoals.adapt fun _ => .pure
  have same := Preserves.iff_ends.1 goals e₁ .refl
  exact same.mono (fun _ _ => taken.trans_same) fun _ _ => taken.trans_same

end Engine

end Clickstream
