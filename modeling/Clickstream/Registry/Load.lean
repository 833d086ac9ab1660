import Clickstream.Registry
import Clickstream.Store.Error
import Clickstream.Json.Reader

/-! # Loading modules

A module's documents replace everything the module contributed before. Documents that do not parse
are reported and skipped; a namespace that cannot be listed keeps what the module contributed to it.
-/

namespace Clickstream

/-- Why a document or a namespace was skipped. -/
inductive LoadFailure where
  /-- A document is none of its namespace. -/
  | parse (ns : Namespace) (origin : String)
  /-- A namespace cannot be listed. -/
  | source (module : ModuleId) (ns : Namespace) (reason : String)
  /-- The store refused a mapping. -/
  | mapping (name : String) (cause : StoreError)

namespace LoadFailure

def message : LoadFailure → String
  | parse ns origin =>
    "failed to parse " ++ ns.text ++ " document '" ++ origin ++ "': " ++ Document.misfit
  | source module ns reason =>
    "module '" ++ module ++ "' could not provide " ++ ns.text ++ " documents: " ++ reason
  | mapping name cause => "failed to create mapping '" ++ name ++ "': " ++ cause.message

/-- The failure as a log line. -/
def line (failure : LoadFailure) : LogLine := .failure failure.message

end LoadFailure

/-- What came of loading a module. -/
structure LoadReport where
  module : ModuleId
  /-- The number of documents taken, by namespace, where there are any. -/
  loaded : List (Namespace × Nat) := []
  failures : List LoadFailure := []
  /-- What the module contributed before and no longer does. -/
  removed : Contributions := {}

/-- The documents of a listing that parse, and a failure for each of the others. -/
structure Parsed (α : Type u) where
  read : List α := []
  failures : List LoadFailure := []

namespace Parsed

def add (ns : Namespace) (decode : Document → Option α) (document : SourceDocument)
    (rest : Parsed α) : Parsed α :=
  match (Json.read? document.content).bind decode with
  | some definition => { rest with read := definition :: rest.read }
  | none => { rest with failures := .parse ns document.origin :: rest.failures }

def ofDocuments (ns : Namespace) (decode : Document → Option α)
    (documents : List SourceDocument) : Parsed α :=
  documents.foldr (add ns decode) {}

end Parsed

/-- The documents of a module in the namespaces of definitions, read so far. -/
structure Intake where
  batch : Batch := {}
  /-- The number of documents read, by namespace. -/
  loaded : List (Namespace × Nat) := []
  failures : List LoadFailure := []
  /-- The namespaces that could not be listed. -/
  unlisted : List Namespace := []
  lines : List LogLine := []

namespace Intake

/-- Note how many documents were read and which were not. -/
def note (r : Intake) (ns : Namespace) (count : Nat) (failures : List LoadFailure) :
    Intake :=
  { r with
    loaded := if count = 0 then r.loaded else r.loaded ++ [(ns, count)]
    failures := r.failures ++ failures
    lines := r.lines ++ failures.map LoadFailure.line }

/-- Whether the name of a document says that it describes a group. -/
def describesGroup (document : SourceDocument) : Bool :=
  "PropertyGroup".toList.isSuffixOf document.name.toList

/-- Read the documents of a namespace. -/
def take (module : ModuleId) (r : Intake) (ns : Namespace)
    (documents : List SourceDocument) : Intake :=
  let owner := some module
  match ns with
  | .tags =>
    let p := Parsed.ofDocuments ns Tag.ofDocument? documents
    let tags := p.read.map fun t => { t with moduleId := owner }
    ({ r with batch := { r.batch with tags } }).note ns tags.length p.failures
  | .conditions =>
    let p := Parsed.ofDocuments ns ConditionType.ofDocument? documents
    let conditionTypes := p.read.map fun t => { t with moduleId := owner }
    ({ r with batch := { r.batch with conditionTypes } }).note ns conditionTypes.length
      p.failures
  | .actions =>
    let p := Parsed.ofDocuments ns ActionType.ofDocument? documents
    let actionTypes := p.read.map fun t => { t with moduleId := owner }
    ({ r with batch := { r.batch with actionTypes } }).note ns actionTypes.length p.failures
  | .values =>
    let p := Parsed.ofDocuments ns ValueType.ofDocument? documents
    let valueTypes := p.read.map fun t => { t with moduleId := owner }
    ({ r with batch := { r.batch with valueTypes } }).note ns valueTypes.length p.failures
  | .properties =>
    let (groups, types) := documents.partition describesGroup
    let g := Parsed.ofDocuments ns PropertyGroup.ofDocument? groups
    let p := Parsed.ofDocuments ns PropertyType.ofDocument? types
    let propertyGroups := g.read.map fun t => { t with moduleId := owner }
    let propertyTypes := p.read.map fun t => { t with moduleId := owner }
    ({ r with batch := { r.batch with propertyGroups, propertyTypes } }).note ns
      (propertyGroups.length + propertyTypes.length) (g.failures ++ p.failures)
  | .mappings => r
  | .goals => r

/-- Ask a module for the documents of a namespace and read them. -/
def step (source : ModuleSource) (r : Intake) (ns : Namespace) : Intake :=
  let listing := source.list ns
  let r := { r with lines := r.lines ++ listing.lines }
  match listing.documents with
  | .ok documents => r.take source.id ns documents
  | .error reason =>
    let failure := LoadFailure.source source.id ns reason
    ({ r with unlisted := r.unlisted ++ [ns] }).note ns 0 [failure]

/-- Read everything that a module offers to the registry; tags come before what refers to them. -/
def ofSource (source : ModuleSource) : Intake :=
  [Namespace.tags, .conditions, .actions, .values, .properties].foldl (step source) {}

end Intake

namespace Registry

/-- Replace what a module contributes by the documents it offers now. -/
def load (r : Registry) (source : ModuleSource) : Registry × LoadReport × List LogLine :=
  let reading := Intake.ofSource source
  let previous := r.contributions source.id
  let batch := reading.unlisted.foldl (r.definitions.carryOver source.id) reading.batch
  let definitions := (r.definitions.retract source.id).apply batch
  let current := definitions.contributions source.id
  (r.publish definitions,
    { module := source.id
      loaded := reading.loaded
      failures := reading.failures
      removed := previous.diff current },
    reading.lines ++ (IndexReport.ofDefinitions definitions).lines current.contains)

/-- Drop what a module contributes; without any, the index stays as it is. -/
def unload (r : Registry) (module : ModuleId) : Registry × Contributions :=
  let removed := r.contributions module
  (if removed.isEmpty then { r with generation := r.generation + 1 }
    else r.publish (r.definitions.retract module), removed)

end Registry

end Clickstream
