import Clickstream.Proofs.Operations
import Clickstream.Proofs.Tables

/-! # What a store holds

The items of a store as a function of type and id. Saving and deleting change it at one place; the
files of the store decide only whether that succeeds. Everything else in an engine stays.
-/

namespace Clickstream

/-- Items by type and id. -/
abbrev Holdings := String → String → Option Item

/-- Put an item at a place, or none. -/
def Holdings.set (holdings : Holdings) (type id : String) (item : Option Item) : Holdings :=
  fun otherType other => if otherType = type ∧ other = id then item else holdings otherType other

namespace Holdings

variable {holdings : Holdings} {type otherType id other : String} {item : Option Item}

@[simp] theorem set_self : holdings.set type id item type id = item := if_pos ⟨rfl, rfl⟩

theorem set_other_type (h : otherType ≠ type) :
    holdings.set type id item otherType other = holdings otherType other :=
  if_neg fun same => h same.1

theorem set_other_id (h : other ≠ id) :
    holdings.set type id item otherType other = holdings otherType other :=
  if_neg fun same => h same.2

end Holdings

/-- The place of the store failed, not what was asked of it. -/
def StoreError.IsIo (e : StoreError) : Prop := ∃ path, e = .io path

namespace Store

variable {store store' : Store} {item : Item} {type id : String}

theorem mem_all : item ∈ store.all type ↔ ∃ id, store.load type id = some item := by
  simp only [all, load, Table.mem_values]
  cases store.items.get? type with
  | none => simp [Table.empty, Table.get?]
  | some items => rfl

theorem load_eq_get? : store.load type id = ((store.items.get? type).getD .empty).get? id := by
  rw [load]
  cases store.items.get? type <;> rfl

/-- The items of a type are listed by what is held of it. -/
theorem all_congr (same : ∀ id, store.load type id = store'.load type id) :
    store.all type = store'.all type := by
  rw [all, all]
  congr 1
  refine Table.ext fun id => ?_
  rw [← load_eq_get?, ← load_eq_get?]
  exact same id

/-- Writing a file changes nothing in memory. -/
theorem writeFile_eq_ok {group text : String} (h : store.writeFile group id text = .ok store') :
    store'.items = store.items ∧ store'.mappings = store.mappings := by
  rw [writeFile] at h
  split at h
  · cases h; exact ⟨rfl, rfl⟩
  · dsimp only at h
    split at h
    · cases h; exact ⟨rfl, rfl⟩
    · cases h

theorem writeFile_isIo {group text : String} {e : StoreError}
    (h : store.writeFile group id text = .error e) : e.IsIo := by
  rw [writeFile] at h
  split at h
  · cases h
  · dsimp only at h
    split at h
    · cases h
    · cases h; exact ⟨_, rfl⟩

theorem load_put : ({ store with items := put store.items item } : Store).load =
    Holdings.set store.load item.type item.id (some item) := by
  funext type id
  simp only [load, put, Table.get?_insert, Holdings.set]
  by_cases sameType : type = item.type
  · subst sameType
    cases items : store.items.get? item.type with
    | none => simp
    | some items => simp
  · simp [sameType]

theorem save_eq_ok (h : store.save item = .ok store') :
    store'.load = Holdings.set store.load item.type item.id (some item) ∧
      store'.mappings = store.mappings := by
  rw [save] at h
  cases written : store.writeFile (fileSafe item.type) item.id item.toJson.pretty with
  | error e => rw [written] at h; cases h
  | ok between =>
    rw [written] at h
    cases h
    obtain ⟨items, mappings⟩ := writeFile_eq_ok written
    refine ⟨?_, mappings⟩
    have same : between.load = store.load := by
      funext type id
      rw [load, load, items]
    rw [← same]
    exact load_put

theorem save_eq_error {e : StoreError} (h : store.save item = .error e) : e.IsIo := by
  rw [save] at h
  cases written : store.writeFile (fileSafe item.type) item.id item.toJson.pretty with
  | error cause => rw [written] at h; cases h; exact writeFile_isIo written
  | ok between => rw [written] at h; cases h

theorem load_drop : (store.drop type id).load = Holdings.set store.load type id none := by
  funext otherType other
  rw [drop, Holdings.set]
  cases found : store.items.get? type with
  | none => simp only [load]; grind
  | some items => simp only [load, Table.get?_insert]; grind [Table.get?_erase]

theorem mappings_drop : (store.drop type id).mappings = store.mappings := by
  rw [drop]
  split <;> rfl

/-- Deleting an item drops it from memory whether or not its file can be deleted. -/
theorem remove_snd : (store.remove type id).2.items = (store.drop type id).items ∧
    (store.remove type id).2.mappings = (store.drop type id).mappings := by
  rw [remove]
  split
  · exact ⟨rfl, rfl⟩
  · dsimp only
    split
    · exact ⟨rfl, rfl⟩
    · split <;> exact ⟨rfl, rfl⟩

theorem load_remove : (store.remove type id).2.load = Holdings.set store.load type id none := by
  rw [← load_drop]
  funext otherType other
  rw [load, load, remove_snd.1]

theorem remove_eq_error {e : StoreError} (h : (store.remove type id).1 = .error e) : e.IsIo := by
  rw [remove] at h
  split at h
  · cases h
  · dsimp only at h
    split at h
    · cases h
    · split at h
      · cases h
      · cases h; exact ⟨_, rfl⟩

theorem createMapping_eq_ok {text : String} (h : store.createMapping type text = .ok store') :
    store'.load = store.load ∧
      ∃ value, Json.parse? text = some value ∧
        store'.mappings = store.mappings.insert type value := by
  rw [createMapping] at h
  split at h
  · cases h
  · next value parsed =>
    cases written : store.writeFile mappingsName type text with
    | error e => rw [written] at h; cases h
    | ok between =>
      rw [written] at h
      cases h
      refine ⟨?_, value, parsed, congrArg (·.insert type value) (writeFile_eq_ok written).2⟩
      funext otherType other
      simp only [load, (writeFile_eq_ok written).1]

/-- A mapping that is JSON is only refused by the files. -/
theorem createMapping_eq_error {text : String} {e : StoreError}
    (h : store.createMapping type text = .error e) : e.IsIo ∨ Json.parse? text = none := by
  rw [createMapping] at h
  split at h
  · next notParsed => exact .inr notParsed
  · next value _ =>
    cases written : store.writeFile mappingsName type text with
    | error e =>
      rw [written] at h
      cases h
      exact .inl (writeFile_isIo written)
    | ok between => rw [written] at h; cases h

end Store

/-- An engine like another one but for what its store holds. -/
structure Engine.Restocked (e e' : Engine) (holdings : Holdings) : Prop where
  load : e'.store.load = holdings
  mappings : e'.store.mappings = e.store.mappings
  registry : e'.registry = e.registry
  settings : e'.settings = e.settings
  pending : e'.pending = e.pending

namespace Engine

variable {e e' e'' : Engine} {holdings holdings' : Holdings}

theorem Restocked.refl : e.Restocked e e.store.load := ⟨rfl, rfl, rfl, rfl, rfl⟩

theorem Restocked.trans (first : e.Restocked e' holdings) (second : e'.Restocked e'' holdings') :
    e.Restocked e'' holdings' :=
  ⟨second.load, second.mappings.trans first.mappings, second.registry.trans first.registry,
    second.settings.trans first.settings, second.pending.trans first.pending⟩

theorem ends_save {item : Item} :
    e.Ends (Operation.save item)
      (fun _ e' => e.Restocked e' (Holdings.set e.store.load item.type item.id (some item)))
      (fun error _ => error.IsIo) := by
  rw [Operation.save, Operation.changeStore, ends_bind, ends_get]
  cases saved : e.store.save item with
  | ok store =>
    obtain ⟨load, mappings⟩ := Store.save_eq_ok saved
    exact ⟨load, mappings, rfl, rfl, rfl⟩
  | error error => exact Store.save_eq_error saved

theorem ends_remove {type id : String} :
    e.Ends (Operation.remove type id)
      (fun _ e' => e.Restocked e' (Holdings.set e.store.load type id none))
      (fun error _ => error.IsIo) := by
  rw [Operation.remove, ends_bind, ends_get]
  cases removed : e.store.remove type id with
  | mk result store =>
    have load : store.load = Holdings.set e.store.load type id none := by
      rw [← Store.load_remove, removed]
    have mappings : store.mappings = e.store.mappings := by
      rw [← @Store.mappings_drop e.store type id, ← Store.remove_snd.2, removed]
    cases result with
    | ok existed => exact ⟨load, mappings, rfl, rfl, rfl⟩
    | error error => exact Store.remove_eq_error (congrArg Prod.fst removed)

end Engine

/-! ## Mappings -/

/-- The mapping that a document stands for. -/
def SourceDocument.mapping? (document : SourceDocument) : Option (String × Json) :=
  (Json.parse? document.content).map (document.name, ·)

/-- The files of the store failed when a mapping was to be kept. -/
def LoadFailure.isIo : LoadFailure → Bool
  | mapping _ (.io _) => true
  | _ => false

/-- An engine like another one but for the mappings in its store. -/
structure Engine.Remapped (e e' : Engine) : Prop where
  load : e'.store.load = e.store.load
  registry : e'.registry = e.registry
  settings : e'.settings = e.settings
  pending : e'.pending = e.pending

/-- Unless the files failed, the mappings are those of the documents and those that were there. -/
def Engine.Takes (e e' : Engine) (documents : List SourceDocument) (failures : List LoadFailure) :
    Prop :=
  (∀ failure ∈ failures, failure.isIo = false) →
    e'.store.mappings = e.store.mappings.insertAll (documents.filterMap SourceDocument.mapping?)

namespace Engine

variable {e : Engine} {ε : Type}

theorem Remapped.refl : e.Remapped e := ⟨rfl, rfl, rfl, rfl⟩

theorem ends_createMappings {documents : List SourceDocument} :
    e.Ends (Operation.createMappings documents : Operation ε _)
      (fun result e' => e.Remapped e' ∧ e.Takes e' documents result.2) (fun _ _ => False) := by
  induction documents generalizing e with
  | nil => exact ⟨Remapped.refl, fun _ => rfl⟩
  | cons document rest ih =>
    rw [Operation.createMappings, ends_bind, ends_get]
    cases created : e.store.createMapping document.name document.content with
    | ok store =>
      obtain ⟨load, value, parsed, mappings⟩ := Store.createMapping_eq_ok created
      simp only [ends_bind, ends_set, ends_pure]
      refine ih.mono ?_ fun _ _ failed => failed
      rintro result e' ⟨same, takes⟩
      refine ⟨⟨same.load.trans load, same.registry, same.settings, same.pending⟩, fun works => ?_⟩
      have isMapping : document.mapping? = some (document.name, value) := by
        rw [SourceDocument.mapping?, parsed]
        rfl
      rw [takes works, List.filterMap_cons, isMapping, mappings]
      rfl
    | error error =>
      simp only [ends_bind, ends_log, ends_pure]
      refine ih.mono ?_ fun _ _ failed => failed
      rintro result e' ⟨same, takes⟩
      refine ⟨same, fun works => ?_⟩
      obtain ⟨here, others⟩ := List.forall_mem_cons.1 works
      rcases Store.createMapping_eq_error created with ⟨path, rfl⟩ | notParsed
      · cases here
      · rw [takes others, List.filterMap_cons, SourceDocument.mapping?, notParsed]
        rfl

end Engine

end Clickstream
