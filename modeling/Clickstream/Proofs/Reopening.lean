import Clickstream.Proofs.Opening
import Clickstream.Proofs.StoreCalls

/-! # Opening a store again

A store opened on an empty directory and a second store opened on the same directory later hold the
same, as long as calls on different items write to different files and every item and mapping has a
file that tells of it. While the calls are made the files say of every item what the store holds.
-/

namespace Clickstream

open DiskPath Store

namespace StoreCall

/-- The name of the mapping that a call sets. -/
def mappingName? : StoreCall → Option String
  | save _ => none
  | remove _ _ => none
  | createMapping name _ => some name

/-- The item that a call leaves in the store. -/
def item? : StoreCall → Option Item
  | save item => some item
  | remove _ _ => none
  | createMapping _ _ => none

/-- Calls that keep out of each other's files and leave files that tell of them. -/
structure Orderly (directory : String) (calls : List StoreCall) : Prop where
  filed : ∀ call ∈ calls, ∀ pair ∈ call.pair?,
    pair.1 ≠ "" ∧ pair.2 ≠ "" ∧ fileSafe pair.1 ∉ [mappingsName, ".", ".."]
  named : ∀ call ∈ calls, ∀ name ∈ call.mappingName?, name ≠ "" ∧ fileSafe name = name
  apart : ∀ call ∈ calls, ∀ other ∈ calls, ∀ pair ∈ call.pair?, ∀ pair' ∈ other.pair?,
    call.path directory = other.path directory → pair = pair'
  lasts : ∀ call ∈ calls, call.Lasts

variable {store store' : Store} {call other : StoreCall} {calls : List StoreCall}
  {directory : String} {e : StoreError} {place : Place} {item : Item}

theorem Orderly.tail (orderly : Orderly directory (call :: calls)) : Orderly directory calls := by
  constructor
  · exact fun other member => orderly.filed other (List.mem_cons_of_mem _ member)
  · exact fun other member => orderly.named other (List.mem_cons_of_mem _ member)
  · exact fun first member second member' =>
      orderly.apart first (List.mem_cons_of_mem _ member) second (List.mem_cons_of_mem _ member')
  · exact fun other member => orderly.lasts other (List.mem_cons_of_mem _ member)

theorem path_eq_of_at (h : call.At place) (h' : other.At place) :
    call.path directory = other.path directory := by
  obtain ⟨-, rfl⟩ := h
  obtain ⟨-, same⟩ := h'
  rw [Place.mk.injEq, String.append_left_inj] at same
  rw [path, path, fileName, fileName, same.1, same.2]

theorem Orderly.isName (orderly : Orderly directory calls) (member : call ∈ calls)
    {type id : String} (h : call.pair? = some (type, id)) : IsName (fileSafe type) := by
  obtain ⟨hasType, -, other⟩ := orderly.filed call member (type, id) h
  simp only [List.mem_cons, List.not_mem_nil, or_false, not_or] at other
  have nonempty : fileSafe type ≠ "" := fun empty => hasType (fileSafe_eq_empty.1 empty)
  exact ⟨⟨nonempty, slashless_fileSafe⟩, other.2.1, other.2.2⟩

/-! ## What a call does to the store -/

theorem load_on (done : call.on store = (.ok (), store')) {type id : String} :
    store'.load type id =
      if call.pair? = some (type, id) then call.item? else store.load type id := by
  cases call with
  | save item =>
    rw [(save_eq_ok (taken_eq_ok done)).1, Holdings.set]
    simp only [pair?, item?, Option.some.injEq, Prod.mk.injEq, eq_comm]
  | remove type' id' =>
    have after : store' = (store.remove type' id').2 := (congrArg Prod.snd done).symm
    rw [after, load_remove, Holdings.set]
    simp only [pair?, item?, Option.some.injEq, Prod.mk.injEq, eq_comm]
  | createMapping name text =>
    rw [(createMapping_eq_ok (taken_eq_ok done)).1, pair?, if_neg (by simp)]

theorem mapping?_on (done : call.on store = (.ok (), store')) {name : String} :
    (∃ text value, call = createMapping name text ∧ Json.parse? text = some value ∧
      store'.mapping? name = some value) ∨
    ((∀ text, call ≠ createMapping name text) ∧ store'.mapping? name = store.mapping? name) := by
  cases call with
  | save item =>
    refine .inr ⟨by simp, ?_⟩
    rw [mapping?, (save_eq_ok (taken_eq_ok done)).2, mapping?]
  | remove type id =>
    refine .inr ⟨by simp, ?_⟩
    have after : store' = (store.remove type id).2 := (congrArg Prod.snd done).symm
    rw [after, mapping?, remove_snd.2, mappings_drop, mapping?]
  | createMapping name' text =>
    obtain ⟨-, value, parsed, mappings⟩ := createMapping_eq_ok (taken_eq_ok done)
    rw [mapping?, mappings, Table.get?_insert]
    by_cases same : name = name'
    · rw [if_pos same, same]
      exact .inl ⟨text, value, rfl, parsed, rfl⟩
    · rw [if_neg same]
      exact .inr ⟨fun text' => by simp [Ne.symm same], rfl⟩

/-- A call that fails changes nothing, unless the files fail it. -/
theorem on_eq_error (failed : call.on store = (.error e, store')) : store' = store ∨ e.IsIo := by
  cases call with
  | save item => exact .inl (taken_eq_error failed).2
  | createMapping name text => exact .inl (taken_eq_error failed).2
  | remove type id =>
    right
    have answer := congrArg Prod.fst failed
    cases result : (store.remove type id).1 with
    | ok existed => rw [on, result] at answer; cases answer
    | error cause =>
      rw [on, result] at answer
      cases answer
      exact remove_eq_error result

end StoreCall

namespace Store

variable {store start : Store} {call : StoreCall} {calls : List StoreCall} {files : FileTree}
  {directory type id : String} {item : Item} {place : Place}

/-- The file that tells of an item is the one that a call on that item would write to. -/
theorem Standing.at_of_pair? (lasts : ∀ call ∈ calls, call.Lasts)
    (empty : ∀ place item, ¬ Tells files directory place item)
    (h : Standing files directory calls place (.item item))
    (onItem : call.pair? = some (item.type, item.id)) : call.At place := by
  rcases h.item lasts with ⟨-, isAt, -⟩ | ⟨-, told⟩
  · exact (StoreCall.at_congr_pair? onItem rfl).2 isAt
  · exact absurd told (empty place item)

/-- Calls on other items and on mappings are on other files. -/
theorem Standing.not_at (orderly : StoreCall.Orderly directory (call :: calls))
    (empty : ∀ place item, ¬ Tells files directory place item)
    (h : Standing files directory calls place (.item item))
    (elsewhere : call.pair? ≠ some (item.type, item.id)) : ¬ call.At place := by
  intro isAt
  rcases h.item orderly.tail.lasts with ⟨saved, savedAt, -, notMappings⟩ | ⟨-, told⟩
  · cases onItem : call.pair? with
    | none =>
      cases call with
      | save item => cases onItem
      | remove type id => cases onItem
      | createMapping name text =>
        obtain ⟨-, rfl⟩ := isAt
        exact notMappings (congrArg Place.group savedAt.2).symm
    | some pair =>
      have same := orderly.apart call List.mem_cons_self (.save item)
        (List.mem_cons_of_mem _ saved) pair onItem (item.type, item.id) rfl
        (StoreCall.path_eq_of_at isAt savedAt)
      exact elsewhere (onItem.trans (congrArg some same))
  · exact empty place item told

/-- While calls keep out of each other's files, a store holds the items that its files tell of. -/
theorem load_iff_standing {fails : StoreError → Prop}
    (noIo : ∀ e, fails e → ¬ e.IsIo) (after : After fails start calls store)
    (orderly : StoreCall.Orderly directory calls) (none : ∀ type id, start.load type id = none)
    (empty : ∀ place item, ¬ Tells start.files directory place item) :
    store.load type id = some item ↔ item.type = type ∧ item.id = id ∧
      ∃ place, Standing start.files directory calls place (.item item) := by
  induction after generalizing type id item with
  | start =>
    rw [none type id]
    constructor
    · intro found
      cases found
    · rintro ⟨-, -, place, told⟩
      exact absurd told (empty place item)
  | failed after failed fine ih =>
    rcases StoreCall.on_eq_error failed with rfl | isIo
    · exact ih orderly
    · exact absurd isIo (noIo _ fine)
  | @done calls call store store' after done ih =>
    rw [StoreCall.load_on done]
    simp only [Standing]
    split
    · next onItem =>
      constructor
      · intro left
        have saved : call = .save item := by
          cases call with
          | save saved => cases left; rfl
          | remove type id => cases left
          | createMapping name text => cases left
        subst saved
        cases onItem
        obtain ⟨-, hasId, notMappings⟩ := orderly.filed _ List.mem_cons_self _ rfl
        refine ⟨rfl, rfl, ⟨fileSafe item.type, fileSafe item.id ++ ".json"⟩, ?_⟩
        rw [if_pos ⟨orderly.isName List.mem_cons_self rfl, rfl⟩]
        refine (StoreCall.leaves_eq_item (orderly.lasts _ List.mem_cons_self)).2 ⟨rfl, hasId, ?_⟩
        exact fun isMappings => notMappings (isMappings ▸ List.mem_cons_self)
      · rintro ⟨rfl, rfl, place, left⟩
        split at left
        · obtain ⟨rfl, -⟩ :=
            (StoreCall.leaves_eq_item (orderly.lasts _ List.mem_cons_self)).1 left
          rfl
        · next elsewhere =>
          exact absurd (left.at_of_pair? orderly.tail.lasts empty onItem) elsewhere
    · next elsewhere =>
      rw [ih orderly.tail]
      refine and_congr_right fun ofType => and_congr_right fun ofId => ?_
      rw [← ofType, ← ofId] at elsewhere
      constructor
      · rintro ⟨place, told⟩
        refine ⟨place, ?_⟩
        rw [if_neg (told.not_at orderly empty elsewhere)]
        exact told
      · rintro ⟨place, left⟩
        split at left
        · obtain ⟨rfl, -⟩ :=
            (StoreCall.leaves_eq_item (orderly.lasts _ List.mem_cons_self)).1 left
          exact absurd rfl elsewhere
        · exact ⟨place, left⟩

/-- The mappings of a store are those that its files tell of. -/
theorem mapping?_iff_standing {fails : StoreError → Prop}
    (noIo : ∀ e, fails e → ¬ e.IsIo) (after : After fails start calls store)
    (orderly : StoreCall.Orderly directory calls) (reads : start.Reads start.files directory)
    {name : String} {value : Json} : store.mapping? name = some value ↔
      Standing start.files directory calls ⟨mappingsName, name ++ ".json"⟩
        (.mapping name value) := by
  induction after with
  | start => exact reads.mapping name value
  | failed after failed fine ih =>
    rcases StoreCall.on_eq_error failed with rfl | isIo
    · exact ih orderly
    · exact absurd isIo (noIo _ fine)
  | @done calls call store store' after done ih =>
    rw [Standing]
    rcases @StoreCall.mapping?_on _ _ _ done name with
      ⟨text, value', rfl, parsed, found⟩ | ⟨other, same⟩
    · obtain ⟨hasName, safe⟩ := orderly.named _ List.mem_cons_self name rfl
      have isAt : (StoreCall.createMapping name text).At ⟨mappingsName, name ++ ".json"⟩ :=
        ⟨isName_mappingsName, by rw [StoreCall.id, safe]; rfl⟩
      rw [if_pos isAt, found, StoreCall.leaves_createMapping, if_neg hasName, parsed, safe]
      simp
    · have elsewhere : ¬ call.At ⟨mappingsName, name ++ ".json"⟩ := by
        rintro ⟨-, isFile⟩
        rw [Place.mk.injEq, String.append_left_inj] at isFile
        cases onItem : call.pair? with
        | some pair =>
          obtain ⟨-, -, notMappings⟩ := orderly.filed call List.mem_cons_self _ onItem
          rw [← (StoreCall.file_of_pair? onItem).1, ← isFile.1] at notMappings
          exact notMappings List.mem_cons_self
        | none =>
          cases call with
          | save item => cases onItem
          | remove type id => cases onItem
          | createMapping name' text =>
            have safe := (orderly.named _ List.mem_cons_self name' rfl).2
            exact other text (by rw [isFile.2, StoreCall.id, safe])
      rw [if_neg elsewhere, same]
      exact ih orderly.tail

/-- Each item has one file that could tell of it, so no file overrules another one. -/
theorem told_iff_standing (keptIn : start.KeptIn directory) {fails : StoreError → Prop}
    (after : After fails start calls store) (lasts : ∀ call ∈ calls, call.Lasts)
    (empty : ∀ place item, ¬ Tells start.files directory place item) :
    Told (Tells store.files directory) item ↔
      ∃ place, Standing start.files directory calls place (.item item) := by
  simp only [Told, Tells, keptIn.says_after after lasts]
  constructor
  · rintro ⟨place, told, -⟩
    exact ⟨place, told⟩
  · rintro ⟨place, told⟩
    refine ⟨place, told, ?_⟩
    intro place' other told' sameType sameId
    have onItem : (StoreCall.save item).pair? = some (item.type, item.id) := rfl
    have onOther : (StoreCall.save item).pair? = some (other.type, other.id) := by
      rw [sameType, sameId]
      rfl
    rw [(told.at_of_pair? lasts empty onItem).2, (told'.at_of_pair? lasts empty onOther).2]

/-- An empty directory says nothing. -/
theorem not_says_of_below_eq_nil {saying : Saying} (empty : files.below directory = []) :
    ¬ Says files directory place saying := by
  rintro ⟨node, listed, -⟩
  have nothing : files.children directory = [] := by
    rw [FileTree.children, empty]
    rfl
  rw [listing, nothing] at listed
  cases listed

/-- A store holds an item that was saved and that no later call was on. -/
theorem After.load_saved {fails : StoreError → Prop} {later earlier : List StoreCall}
    (noIo : ∀ e, fails e → ¬ e.IsIo) (after : After fails start calls store)
    (listed : calls = later ++ .save item :: earlier)
    (kept : ∀ call ∈ later, call.pair? ≠ some (item.type, item.id)) :
    store.load item.type item.id = some item := by
  induction after generalizing later with
  | start =>
    have member : StoreCall.save item ∈ later ++ .save item :: earlier := by simp
    rw [← listed] at member
    cases member
  | failed after failed fine ih =>
    rcases StoreCall.on_eq_error failed with rfl | isIo
    · exact ih listed kept
    · exact absurd isIo (noIo _ fine)
  | done after done ih =>
    rw [StoreCall.load_on done]
    cases later with
    | nil =>
      obtain ⟨rfl, -⟩ := List.cons.inj listed
      exact if_pos rfl
    | cons call later =>
      obtain ⟨rfl, rest⟩ := List.cons.inj listed
      obtain ⟨elsewhere, kept⟩ := List.forall_mem_cons.1 kept
      rw [if_neg elsewhere]
      exact ih rest kept

/-- A store opened on an empty directory and a second one opened on the same directory after calls
that keep out of each other's files hold the same, and what was saved is there unless a later call
was on it. -/
theorem reopened_agrees (empty : files.below directory = [])
    (opened : openOn files directory = .ok start)
    (after : After (fun e => ¬ e.IsIo) start calls store)
    (orderly : StoreCall.Orderly directory calls) :
    ∃ reopened, openOn store.files directory = .ok reopened ∧ reopened.load = store.load ∧
      reopened.count = store.count ∧ reopened.all = store.all ∧
      reopened.mapping? = store.mapping? ∧
      ∀ item later earlier, calls = later ++ .save item :: earlier →
        (∀ call ∈ later, call.pair? ≠ some (item.type, item.id)) →
          reopened.load item.type item.id = some item := by
  have keptIn := keptIn_of_openOn opened (.inl empty)
  obtain ⟨made, -, -, reads⟩ := reads_of_openOn opened
  have untold (place : Place) (item : Item) : ¬ Tells start.files directory place item :=
    not_says_of_below_eq_nil ((FileTree.below_makeDirectories made).trans empty)
  have nothing (type id : String) : start.load type id = none := by
    apply Option.eq_none_iff_forall_ne_some.2
    intro item found
    obtain ⟨-, -, place, told, -⟩ := (reads.load type id item).1 found
    exact untold place item told
  obtain ⟨reopened, again, reads'⟩ := (keptIn.after after orderly.lasts).reopens
  have load : reopened.load = store.load := by
    funext type id
    refine Option.ext fun item => ?_
    rw [reads'.load, load_iff_standing (fun _ noIo => noIo) after orderly nothing untold]
    exact and_congr_right fun _ => and_congr_right fun _ =>
      told_iff_standing keptIn after orderly.lasts untold
  have all : reopened.all = store.all := by
    funext type
    exact all_congr fun id => congrFun (congrFun load type) id
  refine ⟨reopened, again, load, ?_, all, ?_, ?_⟩
  · funext type
    rw [count, count, all]
  · funext name
    refine Option.ext fun value => ?_
    rw [reads'.mapping, keptIn.says_after after orderly.lasts,
      mapping?_iff_standing (fun _ noIo => noIo) after orderly reads]
  · intro item later earlier listed kept
    rw [load]
    exact after.load_saved (fun _ noIo => noIo) listed kept

def visit : Item where
  id := "s1"
  type := "session"
  body := [("scope", .string "shop")]

theorem lasts_visit : visit.Lasts := by
  have reads : Json.read? visit.toJson.pretty = some (.ofJson visit.toJson) := rfl
  exact ⟨rfl, by decide, reads⟩

def visitCalls : List StoreCall :=
  [.createMapping "session" "{}", .remove "session" "s 2", .save visit]

theorem after_visitCalls :
    After (fun e => ¬ e.IsIo) fresh visitCalls (StoreCall.onAll fresh visitCalls) := by
  apply After.next
  · apply After.next
    · exact After.next .start (by decide +kernel)
    · decide +kernel
  · decide +kernel

theorem orderly_visitCalls : StoreCall.Orderly "data" visitCalls := by
  refine ⟨by decide, by decide, by decide, ?_⟩
  intro call member
  cases member with
  | head => trivial
  | tail _ member =>
    cases member with
    | head => trivial
    | tail _ member =>
      rw [List.mem_singleton.1 member]
      exact lasts_visit

theorem reopened_agrees_visit :
    ∃ reopened, openOn (StoreCall.onAll fresh visitCalls).files "data" = .ok reopened ∧
      reopened.load "session" "s1" = some visit ∧ reopened.count "session" = 1 ∧
      reopened.mapping? "session" = some (.object []) := by
  obtain ⟨reopened, opened, -, count, -, mapping, saved⟩ :=
    reopened_agrees rfl openOn_fresh after_visitCalls orderly_visitCalls
  have later : visitCalls =
      [.createMapping "session" "{}", .remove "session" "s 2"] ++ .save visit :: [] := rfl
  refine ⟨reopened, opened, saved visit _ _ later (by decide), ?_⟩
  rw [count, mapping]
  exact ⟨rfl, rfl⟩

end Store

end Clickstream
