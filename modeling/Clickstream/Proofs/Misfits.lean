import Clickstream.Proofs.ModuleChanges

/-! # Documents that do not fit

A document that is none of the kind that its namespace calls for is reported and skipped. So a module
may be diluted with such documents, wherever among the others: what it contributes, what is counted
and what is found removed stays as it is, and only the failures tell of them, with one for each. The
documents that are read keep their order, in which a later one counts for more, and those of other
kinds and namespaces are not touched.
-/

namespace Clickstream

/-! ## Lists with others put in -/

/-- A list, the same with some others put in anywhere, and these by themselves. -/
inductive Mixed {α : Type} (other : α → Prop) : List α → List α → List α → Prop where
  | nil : Mixed other [] [] []
  | kept {a : α} {list mixed others : List α} : Mixed other list mixed others →
      Mixed other (a :: list) (a :: mixed) others
  | added {a : α} {list mixed others : List α} : other a → Mixed other list mixed others →
      Mixed other list (a :: mixed) (a :: others)

namespace Mixed

variable {α β : Type} {other : α → Prop} {list mixed others : List α}

theorem refl : Mixed other list list [] := by
  induction list with
  | nil => exact .nil
  | cons a rest ih => exact .kept ih

theorem prepend (each : ∀ a ∈ others, other a) : Mixed other list (others ++ list) others := by
  induction others with
  | nil => exact refl
  | cons a rest ih =>
    exact .added (each a List.mem_cons_self) (ih fun b later => each b (List.mem_cons_of_mem _ later))

theorem eq_of_none (h : Mixed other list mixed others) (none : ∀ a, ¬ other a) :
    mixed = list ∧ others = [] := by
  induction h with
  | nil => exact ⟨rfl, rfl⟩
  | kept _ ih => exact ⟨congrArg _ ih.1, ih.2⟩
  | added isOther => exact absurd isOther (none _)

theorem filter (h : Mixed other list mixed others) (keep : α → Bool) :
    Mixed (fun a => other a ∧ keep a = true) (list.filter keep) (mixed.filter keep)
      (others.filter keep) := by
  induction h with
  | nil => exact .nil
  | @kept a _ _ _ _ ih =>
    rw [List.filter_cons, List.filter_cons]
    split
    · exact .kept ih
    · exact ih
  | @added a _ _ _ isOther _ ih =>
    rw [List.filter_cons, List.filter_cons]
    split
    · next kept => exact .added ⟨isOther, kept⟩ ih
    · exact ih

theorem filterMap_eq (h : Mixed other list mixed others) {f : α → Option β}
    (none : ∀ a, other a → f a = none) : mixed.filterMap f = list.filterMap f := by
  induction h with
  | nil => rfl
  | kept _ ih => rw [List.filterMap_cons, List.filterMap_cons, ih]
  | added isOther _ ih => rw [List.filterMap_cons, none _ isOther, ih]

end Mixed

/-- Failures with some more among them. -/
structure Adds (failures failures' more : List LoadFailure) : Prop where
  kept : failures.Sublist failures'
  added : failures'.Perm (failures ++ more)

namespace Adds

variable {failures failures' more first first' second second' more' : List LoadFailure}
  {failure : LoadFailure}

theorem refl : Adds failures failures [] := ⟨.refl _, by rw [List.append_nil]⟩

theorem cons (h : Adds failures failures' more) :
    Adds (failure :: failures) (failure :: failures') more :=
  ⟨h.kept.cons_cons _, h.added.cons _⟩

theorem add (h : Adds failures failures' more) :
    Adds failures (failure :: failures') (failure :: more) :=
  ⟨h.kept.cons _, (h.added.cons _).trans List.perm_middle.symm⟩

theorem append (h : Adds first first' more) (h' : Adds second second' more') :
    Adds (first ++ second) (first' ++ second') (more ++ more') := by
  refine ⟨h.kept.append h'.kept, (h.added.append h'.added).trans ?_⟩
  rw [List.append_assoc, List.append_assoc]
  refine List.Perm.append_left _ ?_
  rw [← List.append_assoc, ← List.append_assoc]
  exact List.perm_append_comm.append_right _

theorem append_left (h : Adds second second' more) : Adds (first ++ second) (first ++ second') more :=
  ⟨h.kept.append_left first, List.append_assoc first _ _ ▸ h.added.append_left first⟩

theorem perm (h : Adds failures failures' more) (same : more.Perm more') :
    Adds failures failures' more' :=
  ⟨h.kept, h.added.trans (same.append_left _)⟩

end Adds

/-! ## Documents -/

/-- Whether a document cannot be read as what it should be. -/
def Unread {α : Type} (decode : Document → Option α) (document : SourceDocument) : Prop :=
  (Json.read? document.content).bind decode = none

/-- Whether a document is not what its namespace calls for, and in that of the properties its name. -/
def Misfit (ns : Namespace) (document : SourceDocument) : Prop :=
  match ns with
  | .tags => Unread Tag.ofDocument? document
  | .conditions => Unread ConditionType.ofDocument? document
  | .actions => Unread ActionType.ofDocument? document
  | .values => Unread ValueType.ofDocument? document
  | .properties =>
    if Intake.describesGroup document then Unread PropertyGroup.ofDocument? document
    else Unread PropertyType.ofDocument? document
  | .mappings => False
  | .goals => False

/-- The failures that some documents of a namespace cause. -/
def parseFailures (ns : Namespace) (documents : List SourceDocument) : List LoadFailure :=
  documents.map fun document => .parse ns document.origin

variable {documents documents' misfits : List SourceDocument} {ns : Namespace}

namespace Parsed

variable {α : Type} {decode : Document → Option α} {other : SourceDocument → Prop}

theorem read_mixed (mixed : Mixed other documents documents' misfits)
    (unread : ∀ document, other document → Unread decode document) :
    (ofDocuments ns decode documents').read = (ofDocuments ns decode documents).read := by
  rw [read_ofDocuments, read_ofDocuments]
  exact mixed.filterMap_eq unread

theorem failures_mixed (mixed : Mixed other documents documents' misfits)
    (unread : ∀ document, other document → Unread decode document) :
    Adds (ofDocuments ns decode documents).failures (ofDocuments ns decode documents').failures
      (parseFailures ns misfits) := by
  induction mixed with
  | nil => exact .refl
  | @kept document _ _ _ _ ih =>
    rw [ofDocuments, ofDocuments, List.foldr_cons, List.foldr_cons, add, add]
    cases (Json.read? document.content).bind decode with
    | none => exact ih.cons
    | some definition => exact ih
  | @added document _ mixed _ isOther _ ih =>
    have skipped : (ofDocuments ns decode (document :: mixed)).failures =
        .parse ns document.origin :: (ofDocuments ns decode mixed).failures := by
      rw [ofDocuments, List.foldr_cons, add, unread document isOther]
      rfl
    rw [skipped]
    exact ih.add

end Parsed

/-! ## Reading a module -/

namespace Intake

/-- Two readings that differ in failures only. -/
structure Agrees (r r' : Intake) (more : List LoadFailure) : Prop where
  batch : r'.batch = r.batch
  loaded : r'.loaded = r.loaded
  unlisted : r'.unlisted = r.unlisted
  failures : Adds r.failures r'.failures more

variable {r r' : Intake} {more more' failures failures' : List LoadFailure} {module : ModuleId}

theorem Agrees.note (h : Agrees r r' more) (adds : Adds failures failures' more') {count : Nat} :
    Agrees (r.note ns count failures) (r'.note ns count failures') (more ++ more') where
  batch := h.batch
  loaded := by rw [Intake.note, Intake.note, h.loaded]
  unlisted := h.unlisted
  failures := h.failures.append adds

/-- Putting the same into both batches. -/
theorem Agrees.put (h : Agrees r r' more) (put : Batch → Batch) :
    Agrees { r with batch := put r.batch } { r' with batch := put r'.batch } more :=
  ⟨congrArg put h.batch, h.loaded, h.unlisted, h.failures⟩

theorem Agrees.take (h : Agrees r r' more)
    (mixed : Mixed (Misfit ns) documents documents' misfits) :
    Agrees (r.take module ns documents) (r'.take module ns documents')
      (more ++ parseFailures ns misfits) := by
  cases ns with
  | mappings | goals =>
    obtain ⟨-, rfl⟩ := mixed.eq_of_none fun _ => id
    exact (List.append_nil more).symm ▸ h
  | tags =>
    simp only [Intake.take, Parsed.read_mixed mixed fun _ => id]
    exact (h.put fun batch => { batch with tags := _ }).note (Parsed.failures_mixed mixed fun _ => id)
  | conditions =>
    simp only [Intake.take, Parsed.read_mixed mixed fun _ => id]
    exact (h.put fun batch => { batch with conditionTypes := _ }).note
      (Parsed.failures_mixed mixed fun _ => id)
  | actions =>
    simp only [Intake.take, Parsed.read_mixed mixed fun _ => id]
    exact (h.put fun batch => { batch with actionTypes := _ }).note
      (Parsed.failures_mixed mixed fun _ => id)
  | values =>
    simp only [Intake.take, Parsed.read_mixed mixed fun _ => id]
    exact (h.put fun batch => { batch with valueTypes := _ }).note
      (Parsed.failures_mixed mixed fun _ => id)
  | properties =>
    -- A document keeps its kind, so the misfits among the groups and among the types are parted too.
    have groups := mixed.filter describesGroup
    have types := mixed.filter (not ∘ describesGroup)
    have noGroup (document : SourceDocument) (h : Misfit .properties document ∧
        describesGroup document = true) : Unread PropertyGroup.ofDocument? document := by
      have misfit := h.1
      rw [Misfit, if_pos h.2] at misfit
      exact misfit
    have noType (document : SourceDocument) (h : Misfit .properties document ∧
        (not ∘ describesGroup) document = true) : Unread PropertyType.ofDocument? document := by
      have misfit := h.1
      rw [Misfit, if_neg (by simpa using h.2)] at misfit
      exact misfit
    simp only [Intake.take, List.partition_eq_filter_filter, Parsed.read_mixed groups noGroup,
      Parsed.read_mixed types noType]
    refine (h.put fun batch => { batch with propertyGroups := _, propertyTypes := _ }).note
      (((Parsed.failures_mixed groups noGroup).append (Parsed.failures_mixed types noType)).perm ?_)
    rw [parseFailures, parseFailures, ← List.map_append]
    exact (List.filter_append_perm describesGroup misfits).map _

end Intake

/-- What a module and a diluted one answer, with the misfits among the documents. -/
inductive Listed (ns : Namespace) : Except String (List SourceDocument) →
    Except String (List SourceDocument) → List SourceDocument → Prop where
  | ok {documents documents' misfits : List SourceDocument} :
      Mixed (Misfit ns) documents documents' misfits →
      Listed ns (.ok documents) (.ok documents') misfits
  | error {reason : String} : Listed ns (.error reason) (.error reason) []

/-- A module, and the same with misfits anywhere in its listings. -/
structure ModuleSource.Diluted (source source' : ModuleSource)
    (misfits : Namespace → List SourceDocument) : Prop where
  id : source'.id = source.id
  lines : ∀ ns, (source'.list ns).lines = (source.list ns).lines
  documents : ∀ ns, Listed ns (source.list ns).documents (source'.list ns).documents (misfits ns)

/-- One failure for every misfit in the namespaces of definitions. -/
def misfitFailures (misfits : Namespace → List SourceDocument) : List LoadFailure :=
  [Namespace.tags, .conditions, .actions, .values, .properties].flatMap fun ns =>
    parseFailures ns (misfits ns)

section

variable {source source' : ModuleSource} {misfits : Namespace → List SourceDocument}

namespace Intake

variable {r r' : Intake} {more : List LoadFailure}

theorem Agrees.step (h : Agrees r r' more) (diluted : source.Diluted source' misfits) :
    Agrees (r.step source ns) (r'.step source' ns) (more ++ parseFailures ns (misfits ns)) := by
  have listed := diluted.documents ns
  rw [Intake.step, Intake.step]
  dsimp only
  rw [diluted.id]
  generalize (source.list ns).documents = documents at listed
  generalize (source'.list ns).documents = documents' at listed
  generalize misfits ns = others at listed
  have lines : Agrees { r with lines := r.lines ++ (source.list ns).lines }
      { r' with lines := r'.lines ++ (source'.list ns).lines } more :=
    ⟨h.batch, h.loaded, h.unlisted, h.failures⟩
  cases listed with
  | ok mixed => exact lines.take mixed
  | error =>
    have unlisted : Agrees
        { r with unlisted := r.unlisted ++ [ns], lines := r.lines ++ (source.list ns).lines }
        { r' with unlisted := r'.unlisted ++ [ns], lines := r'.lines ++ (source'.list ns).lines }
        more :=
      ⟨h.batch, h.loaded, congrArg (· ++ [ns]) h.unlisted, h.failures⟩
    exact unlisted.note .refl

theorem Agrees.foldl_step {namespaces : List Namespace} (h : Agrees r r' more)
    (diluted : source.Diluted source' misfits) :
    Agrees (namespaces.foldl (Intake.step source) r) (namespaces.foldl (Intake.step source') r')
      (more ++ namespaces.flatMap fun ns => parseFailures ns (misfits ns)) := by
  induction namespaces generalizing r r' more with
  | nil => exact (List.append_nil more).symm ▸ h
  | cons ns rest ih =>
    rw [List.flatMap_cons, ← List.append_assoc]
    exact ih (h.step diluted)

theorem agrees_ofSource (diluted : source.Diluted source' misfits) :
    Agrees (ofSource source) (ofSource source') (misfitFailures misfits) := by
  have start : Agrees {} {} [] := ⟨rfl, rfl, rfl, .refl⟩
  exact start.foldl_step diluted

end Intake

/-- Two reports that differ in failures only, of which the second has some more. -/
structure LoadReport.Adds (report report' : LoadReport) (more : List LoadFailure) : Prop where
  module : report'.module = report.module
  loaded : report'.loaded = report.loaded
  removed : report'.removed = report.removed
  failures : Clickstream.Adds report.failures report'.failures more

theorem Registry.load_diluted (r : Registry) (diluted : source.Diluted source' misfits) :
    (r.load source').1 = (r.load source).1 ∧
      (r.load source).2.1.Adds (r.load source').2.1 (misfitFailures misfits) := by
  have agrees := Intake.agrees_ofSource diluted
  simp only [load, diluted.id, agrees.batch, agrees.unlisted, true_and]
  exact ⟨rfl, agrees.loaded, rfl, agrees.failures⟩

namespace Engine

variable {ε : Type}

theorem loadMappings_diluted (diluted : source.Diluted source' misfits) {wanted : Bool} :
    (Operation.loadMappings source' wanted : Operation ε _) =
      Operation.loadMappings source wanted := by
  have same : (source'.list .mappings).documents = (source.list .mappings).documents := by
    have listed := diluted.documents .mappings
    generalize (source.list .mappings).documents = documents at listed
    generalize (source'.list .mappings).documents = documents' at listed
    generalize misfits .mappings = others at listed
    cases listed with
    | ok mixed => rw [(mixed.eq_of_none fun _ => id).1]
    | error => rfl
  rw [Operation.loadMappings, Operation.loadMappings, diluted.id, diluted.lines, same]

/-- Loading a module with misfits leaves what loading it without them leaves, and reports nothing else
but a failure for each of them. -/
theorem ends_loadModule_diluted (diluted : source.Diluted source' misfits) (e : Engine)
    (wanted : Bool) :
    e.Ends (Operation.loadModule source wanted : Operation ε LoadReport)
      (fun report left => e.Ends (Operation.loadModule source' wanted : Operation ε LoadReport)
        (fun report' left' => left' = left ∧ report.Adds report' (misfitFailures misfits))
        (fun _ _ => False))
      (fun _ _ => False) := by
  simp only [Operation.loadModule, loadMappings_diluted diluted, ends_bind, ends_get, ends_log,
    ends_set, ends_pure]
  cases ended : e.outcome (Operation.loadMappings source wanted : Operation ε _) with
  | mk result between =>
    cases result with
    | error error => exact (ends_loadMappings.badly ended).elim
    | ok answer =>
      simp only [Ends, ended]
      obtain ⟨registry, report⟩ := between.registry.load_diluted diluted
      refine ⟨by rw [registry], report.module, ?_, report.removed, ?_⟩
      · exact congrArg (fun loaded => _ ++ loaded) report.loaded
      · exact report.failures.append_left

end Engine

end

/-- A tag and a property type. -/
def fitting : Namespace → List SourceDocument
  | .tags => [⟨"ok", "tags/ok.json", "\x7b\"id\": \"ok\"\x7d"⟩]
  | .properties => [⟨"size", "properties/size.json", "\x7b\"id\": \"size\"\x7d"⟩]
  | _ => []

/-- A tag whose text ends too early, and a property type under a name that says that it is a group. -/
def strays : Namespace → List SourceDocument
  | .tags => [⟨"bad", "tags/bad.json", "\x7b\"id\": 12"⟩]
  | .properties => [⟨"sizePropertyGroup", "properties/sizePropertyGroup.json",
      "\x7b\"type\": \"integer\"\x7d"⟩]
  | _ => []

/-- A module whose goals cannot be listed. -/
def shipping (documents : Namespace → List SourceDocument) : ModuleSource where
  id := "shop"
  list ns := { documents := if ns = .goals then .error "unreachable" else .ok (documents ns) }

theorem ends_loadModule_shipping :
    (shipping fitting).Diluted (shipping fun ns => strays ns ++ fitting ns) strays ∧
    misfitFailures strays =
      [.parse .tags "tags/bad.json", .parse .properties "properties/sizePropertyGroup.json"] ∧
    Engine.Ends {} (Operation.loadModule (shipping fitting) true : Operation StoreError LoadReport)
      (fun report left => Engine.Ends {}
        (Operation.loadModule (shipping fun ns => strays ns ++ fitting ns) true :
          Operation StoreError LoadReport)
        (fun report' left' => left' = left ∧ report.Adds report' (misfitFailures strays))
        (fun _ _ => False))
      (fun _ _ => False) := by
  have misfit : ∀ ns, ∀ document ∈ strays ns, Misfit ns document := by
    intro ns document member
    cases ns with
    | tags =>
      obtain rfl := List.mem_singleton.1 member
      exact Option.isNone_iff_eq_none.1 (by decide +kernel)
    | properties =>
      obtain rfl := List.mem_singleton.1 member
      rw [Misfit, if_pos (by decide +kernel)]
      exact Option.isNone_iff_eq_none.1 (by decide +kernel)
    | _ => cases member
  have diluted : (shipping fitting).Diluted (shipping fun ns => strays ns ++ fitting ns) strays := by
    refine ⟨rfl, fun _ => rfl, fun ns => ?_⟩
    cases ns with
    | goals => exact .error
    | _ => exact .ok (.prepend (misfit _))
  exact ⟨diluted, rfl, Engine.ends_loadModule_diluted diluted {} true⟩

end Clickstream
