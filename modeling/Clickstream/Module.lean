import Clickstream.Log
import Clickstream.Tag

/-! # Modules

A module is deployed on its own and contributes documents in several namespaces. How it is packaged
does not matter: it is asked for the documents of one namespace at a time and may fail to list them.
-/

namespace Clickstream

/-- What a module can contribute to. -/
inductive Namespace where
  | mappings
  | tags
  | conditions
  | actions
  | values
  /-- Property types and their groups. -/
  | properties
  | goals
  deriving DecidableEq, Inhabited

namespace Namespace

/-- All namespaces; the goals come last and are not the registry's. -/
def all : List Namespace := [mappings, tags, conditions, actions, values, properties, goals]

def text : Namespace → String
  | mappings => "mappings"
  | tags => "tags"
  | conditions => "conditions"
  | actions => "actions"
  | values => "values"
  | properties => "properties"
  | goals => "goals"

def ofText? (text : String) : Option Namespace := all.find? fun n => n.text = text

end Namespace

/-- A document as a module provides it. -/
structure SourceDocument where
  /-- The name: of a mapping, its item type; of a property group, recognizable by its ending. -/
  name : String
  /-- Where it comes from, for messages. -/
  origin : String
  content : String
  deriving Inhabited

/-- The answer of a module to a request for documents. -/
structure Listing where
  /-- The documents, or why there are none to be had. -/
  documents : Except String (List SourceDocument)
  /-- What went wrong on the way. -/
  lines : List LogLine := []

structure ModuleSource where
  id : ModuleId
  list : Namespace → Listing

end Clickstream
