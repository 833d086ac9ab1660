import Clickstream.Proofs.StoreCalls

/-! # Items that share a file

The file of an item is named for its type and id, but characters that do not suit a file name are
replaced, so different items can have one file. A call on one of them then takes the others out of
that file, and a file that a saved item shares tells only of the item that was saved there last.
Some files are never read back at all. Nothing else comes between a saved item and a store that is
opened again, unless the directory told of the item elsewhere before.
-/

namespace Clickstream

open DiskPath Store

namespace Store

variable {store store' start : Store} {call : StoreCall} {calls later earlier : List StoreCall}
  {files : FileTree} {directory : String} {item other : Item} {place : Place}
  {tells tells' : Place → Item → Prop} {fails : StoreError → Prop}

/-! ## The last one to tell of an item -/

theorem Told.imp (h : Told tells item) (same : ∀ place other, other.type = item.type →
    other.id = item.id → (tells place other ↔ tells' place other)) : Told tells' item := by
  obtain ⟨place, told, last⟩ := h
  refine ⟨place, (same place item rfl rfl).1 told, ?_⟩
  intro place' other told' sameType sameId
  exact last place' other ((same place' other sameType sameId).2 told') sameType sameId

/-- Only what is told of the one item matters. -/
theorem told_congr (same : ∀ place other, other.type = item.type → other.id = item.id →
    (tells place other ↔ tells' place other)) : Told tells item ↔ Told tells' item := by
  constructor
  · intro told
    exact told.imp same
  · intro told
    exact told.imp fun place other sameType sameId => (same place other sameType sameId).symm

/-- If each file tells of one item, the last ones to tell of the same item say the same. -/
theorem Told.unique
    (single : ∀ place item other, tells place item → tells place other → item = other)
    (h : Told tells item) (h' : Told tells other) (sameType : other.type = item.type)
    (sameId : other.id = item.id) : item = other := by
  obtain ⟨place, told, last⟩ := h
  obtain ⟨place', told', last'⟩ := h'
  have equal : place' = place :=
    le_antisymm (last place' other told' sameType sameId)
      (last' place item told sameType.symm sameId.symm)
  rw [equal] at told'
  exact single place item other told told'

theorem Tells.unique (h : Tells files directory place item)
    (h' : Tells files directory place other) : item = other :=
  Saying.item.inj (Says.unique h h')

/-! ## What a call takes from other items -/

/-- What the files tell that a call is not on. -/
def TellsBeside (call : StoreCall) (files : FileTree) (directory : String) (place : Place)
    (item : Item) : Prop :=
  ¬ call.At place ∧ Tells files directory place item

/-- A call on an item takes its file from the others and leaves them all other files. -/
theorem KeptIn.tells_on (keptIn : store.KeptIn directory) (done : call.on store = (.ok (), store'))
    (lasts : call.Lasts) (elsewhere : call.pair? ≠ some (item.type, item.id)) :
    Tells store'.files directory place item ↔
      TellsBeside call store.files directory place item := by
  rw [Tells, keptIn.says_on done, TellsBeside]
  split
  · next isAt =>
    constructor
    · intro left
      obtain ⟨rfl, -⟩ := (StoreCall.leaves_eq_item lasts).1 left
      exact absurd rfl elsewhere
    · rintro ⟨notAt, -⟩
      exact absurd isAt notAt
  · next notAt =>
    exact (and_iff_right notAt).symm

/-- Without the file of a call an item is told as before, if that file did not come last or the
others say the same. -/
theorem told_iff_toldBeside
    (spare : ∀ place other, call.At place → Tells files directory place other →
      other.type = item.type → other.id = item.id → Told (Tells files directory) other →
        Told (TellsBeside call files directory) other) :
    Told (Tells files directory) item ↔ Told (TellsBeside call files directory) item := by
  constructor
  · rintro ⟨place, told, last⟩
    by_cases isAt : call.At place
    · exact spare place item isAt told rfl rfl ⟨place, told, last⟩
    · refine ⟨place, ⟨isAt, told⟩, ?_⟩
      rintro place' other ⟨-, told'⟩ sameType sameId
      exact last place' other told' sameType sameId
  · rintro ⟨place, beside, last⟩
    by_cases overruled : ∃ place' other, call.At place' ∧ Tells files directory place' other ∧
        other.type = item.type ∧ other.id = item.id ∧ place < place'
    · -- The file of the call comes last, so the other files have to say the same.
      obtain ⟨place', other, isAt, told', sameType, sameId, later⟩ := overruled
      have toldLast : Told (Tells files directory) other := by
        refine ⟨place', told', ?_⟩
        intro place'' another told'' sameType' sameId'
        by_cases isAt' : call.At place''
        · rw [isAt.2, isAt'.2]
        · exact (last place'' another ⟨isAt', told''⟩ (sameType'.trans sameType)
            (sameId'.trans sameId)).trans later.le
      have toldBeside := spare place' other isAt told' sameType sameId toldLast
      have same : item = other := by
        refine Told.unique ?_ ⟨place, beside, last⟩ toldBeside sameType sameId
        intro place first second told told'
        exact told.2.unique told'.2
      rw [same]
      exact toldLast
    · refine ⟨place, beside.2, ?_⟩
      intro place' other told' sameType sameId
      by_cases isAt : call.At place'
      · exact not_lt.1 fun later => overruled ⟨place', other, isAt, told', sameType, sameId, later⟩
      · exact last place' other ⟨isAt, told'⟩ sameType sameId

/-- What a store opened before a call on another item holds of an item, a store opened after the
call holds exactly if the file of the call did not tell it or the other files tell it as well. -/
theorem KeptIn.load_reopened_iff {reopened reopened' : Store} {type id : String}
    (keptIn : store.KeptIn directory) (reads : reopened.Reads store.files directory)
    (reads' : reopened'.Reads store'.files directory) (done : call.on store = (.ok (), store'))
    (lasts : call.Lasts) (elsewhere : call.pair? ≠ some (type, id)) :
    reopened'.load type id = reopened.load type id ↔
      ∀ place item, call.At place → Tells store.files directory place item →
        reopened.load type id = some item → Told (TellsBeside call store.files directory) item := by
  have after (item : Item) (ofType : item.type = type) (ofId : item.id = id) :
      Told (Tells store'.files directory) item ↔
        Told (TellsBeside call store.files directory) item := by
    refine told_congr fun place other sameType sameId => keptIn.tells_on done lasts ?_
    rw [sameType, sameId, ofType, ofId]
    exact elsewhere
  constructor
  · intro same place item _ _ found
    obtain ⟨ofType, ofId, told⟩ := (reads'.load type id item).1 (same.trans found)
    exact (after item ofType ofId).1 told
  · intro spare
    refine Option.ext fun item => ?_
    rw [reads.load, reads'.load]
    refine and_congr_right fun ofType => and_congr_right fun ofId => ?_
    rw [after item ofType ofId, told_iff_toldBeside]
    intro place other isAt told sameType sameId toldLast
    exact spare place other isAt told
      ((reads.load type id other).2 ⟨sameType.trans ofType, sameId.trans ofId, toldLast⟩)

/-! ## What is left of a saved item -/

/-- What tells of items after one was saved and later calls were made: the file that it was saved
to, if that can tell of it and no later call is on it, and what no call is on at all. -/
def TellsStill (start : Store) (directory : String) (item : Item)
    (later earlier : List StoreCall) (place : Place) (other : Item) : Prop :=
  (other = item ∧ (StoreCall.save item).At place ∧ item.id ≠ "" ∧
    fileSafe item.type ≠ mappingsName ∧ ∀ call ∈ later, ¬ call.At place) ∨
  ((∀ call ∈ later ++ .save item :: earlier, ¬ call.At place) ∧
    Tells start.files directory place other)

theorem standing_of_untouched {saying : Saying} (untouched : ∀ call ∈ calls, ¬ call.At place) :
    Standing files directory calls place saying ↔ Says files directory place saying := by
  induction calls with
  | nil => exact Iff.rfl
  | cons call earlier ih =>
    obtain ⟨here, before⟩ := List.forall_mem_cons.1 untouched
    rw [Standing, if_neg here]
    exact ih before

theorem standing_iff_tellsStill (lasts : ∀ call ∈ later ++ .save item :: earlier, call.Lasts)
    (kept : ∀ call ∈ later, call.pair? ≠ some (item.type, item.id))
    (sameType : other.type = item.type) (sameId : other.id = item.id) :
    Standing start.files directory (later ++ .save item :: earlier) place (.item other) ↔
      TellsStill start directory item later earlier place other := by
  have onOther : (StoreCall.save other).pair? = some (item.type, item.id) := by
    rw [← sameType, ← sameId]
    rfl
  induction later with
  | nil =>
    obtain ⟨here, before⟩ := List.forall_mem_cons.1 lasts
    rw [List.nil_append, Standing, TellsStill]
    split
    · next isAt =>
      rw [StoreCall.leaves_eq_item here, StoreCall.save.injEq]
      constructor
      · rintro ⟨rfl, hasId, notMappings⟩
        exact .inl ⟨rfl, isAt, hasId, notMappings, by simp⟩
      · rintro (⟨rfl, -, hasId, notMappings, -⟩ | ⟨untouched, -⟩)
        · exact ⟨rfl, hasId, notMappings⟩
        · exact absurd isAt (untouched _ (by simp))
    · next elsewhere =>
      constructor
      · intro told
        rcases told.item before with ⟨-, isAt, -⟩ | ⟨untouched, told⟩
        · exact absurd ((StoreCall.at_congr_pair? onOther rfl).1 isAt) elsewhere
        · exact .inr ⟨List.forall_mem_cons.2 ⟨elsewhere, untouched⟩, told⟩
      · rintro (⟨-, isAt, -⟩ | ⟨untouched, told⟩)
        · exact absurd isAt elsewhere
        · exact (standing_of_untouched (List.forall_mem_cons.1 untouched).2).2 told
  | cons call later ih =>
    obtain ⟨here, before⟩ := List.forall_mem_cons.1 lasts
    obtain ⟨notSame, keptBefore⟩ := List.forall_mem_cons.1 kept
    rw [List.cons_append, Standing]
    split
    · next isAt =>
      constructor
      · intro left
        obtain ⟨rfl, -⟩ := (StoreCall.leaves_eq_item here).1 left
        exact absurd onOther notSame
      · rintro (⟨-, -, -, -, untouched⟩ | ⟨untouched, -⟩)
        · exact absurd isAt (untouched _ List.mem_cons_self)
        · exact absurd isAt (untouched _ List.mem_cons_self)
    · next elsewhere =>
      refine (ih before keptBefore).trans ?_
      rw [TellsStill, TellsStill, List.cons_append]
      simp only [List.forall_mem_cons, elsewhere, not_false_eq_true, true_and]

/-- A saved item that the directory told of in no other file is left exactly if its file can tell of
it and no later call is on that file. -/
theorem told_tellsStill_iff (alone : ∀ place other, Tells start.files directory place other →
    other.type = item.type → other.id = item.id → (StoreCall.save item).At place) :
    Told (TellsStill start directory item later earlier) item ↔
      ∃ place, (StoreCall.save item).At place ∧ item.id ≠ "" ∧
        fileSafe item.type ≠ mappingsName ∧ ∀ call ∈ later, ¬ call.At place := by
  have touched {place : Place} {other : Item}
      (untouched : ∀ call ∈ later ++ .save item :: earlier, ¬ call.At place)
      (told : Tells start.files directory place other) (sameType : other.type = item.type)
      (sameId : other.id = item.id) : False :=
    untouched (.save item) (by simp) (alone place other told sameType sameId)
  constructor
  · rintro ⟨place, ⟨-, left⟩ | ⟨untouched, told⟩, -⟩
    · exact ⟨place, left⟩
    · exact (touched untouched told rfl rfl).elim
  · rintro ⟨place, left⟩
    refine ⟨place, .inl ⟨rfl, left⟩, ?_⟩
    rintro place' other (⟨-, isAt, -⟩ | ⟨untouched, told⟩) sameType sameId
    · rw [left.1.2, isAt.2]
    · exact (touched untouched told sameType sameId).elim

/-- A saved item that no later call was on is returned by a store opened again exactly if it is the
last thing told of it that is left. -/
theorem KeptIn.returns_iff {reopened : Store} (keptIn : start.KeptIn directory) (item : Item)
    (later earlier : List StoreCall)
    (after : After fails start (later ++ .save item :: earlier) store)
    (lasts : ∀ call ∈ later ++ .save item :: earlier, call.Lasts)
    (kept : ∀ call ∈ later, call.pair? ≠ some (item.type, item.id))
    (reads : reopened.Reads store.files directory) :
    reopened.load item.type item.id = some item ↔
      Told (TellsStill start directory item later earlier) item := by
  rw [reads.load, and_iff_right rfl, and_iff_right rfl]
  refine told_congr fun place other sameType sameId => ?_
  rw [Tells, keptIn.says_after after lasts]
  exact standing_iff_tellsStill lasts kept sameType sameId

/-- What a store opened again returns. Of another item than a call was on it returns the same as
before exactly if the file of the call did not tell what was returned, or the other files tell the
same. A saved item that no later call was on is returned exactly if, of the file that it was saved to
and the files that no call was on, the last one to tell of the item says just this. -/
theorem reopened_keeps_iff (isTree : files.IsTree) (opened : openOn files directory = .ok start)
    (after : After fails start calls store) (lasts : ∀ call ∈ calls, call.Lasts) :
    ∃ reopened, openOn store.files directory = .ok reopened ∧
      (∀ call store' pair, call.pair? = some pair → call.on store = (.ok (), store') → call.Lasts →
        ∃ reopened', openOn store'.files directory = .ok reopened' ∧
          ∀ type id, (type, id) ≠ pair →
            (reopened'.load type id = reopened.load type id ↔
              ∀ place item, call.At place → Tells store.files directory place item →
                reopened.load type id = some item →
                  Told (TellsBeside call store.files directory) item)) ∧
      ∀ item later earlier, calls = later ++ .save item :: earlier →
        (∀ call ∈ later, call.pair? ≠ some (item.type, item.id)) →
          (reopened.load item.type item.id = some item ↔
            Told (TellsStill start directory item later earlier) item) := by
  have keptIn := keptIn_of_openOn opened (.inr isTree)
  have keptAfter := keptIn.after after lasts
  obtain ⟨reopened, again, reads⟩ := keptAfter.reopens
  refine ⟨reopened, again, ?_, ?_⟩
  · intro call store' pair onPair done callLasts
    obtain ⟨reopened', again', reads'⟩ := (keptAfter.on done callLasts).reopens
    refine ⟨reopened', again', ?_⟩
    intro type id other
    refine keptAfter.load_reopened_iff reads reads' done callLasts ?_
    rw [onPair]
    exact fun same => other (Option.some.inj same).symm
  · rintro item later earlier rfl kept
    exact keptIn.returns_iff item later earlier after lasts kept reads

/-! ## Two goals in one file -/

def spaced : Item where
  id := "a b"
  type := "goal"
  body := [("name", .string "x")]

def joined : Item where
  id := "a_b"
  type := "goal"
  body := [("name", .string "y")]

theorem lasts_goals : ∀ call ∈ [StoreCall.save joined, .save spaced], call.Lasts := by
  have reads : Json.read? joined.toJson.pretty = some (.ofJson joined.toJson) := rfl
  have reads' : Json.read? spaced.toJson.pretty = some (.ofJson spaced.toJson) := rfl
  intro call member
  cases member with
  | head => exact ⟨rfl, by decide, reads⟩
  | tail _ member =>
    rw [List.mem_singleton.1 member]
    exact ⟨rfl, by decide, reads'⟩

theorem isTree_empty : FileTree.IsTree {} :=
  ⟨fun _ found => absurd rfl found, fun _ _ _ _ found => absurd rfl found⟩

theorem not_tells_fresh : ¬ Tells fresh.files "data" place item := by
  rintro ⟨node, listed, -⟩
  cases listed

/-- The two goals have one file. -/
theorem at_joined (isAt : (StoreCall.save spaced).At place) : (StoreCall.save joined).At place := by
  have file : fileSafe spaced.id = fileSafe joined.id := by decide
  obtain ⟨isName, rfl⟩ := isAt
  refine ⟨isName, ?_⟩
  simp only [StoreCall.id, StoreCall.group, file]
  rfl

theorem after_spaced :
    After (fun _ => False) fresh [.save spaced] (StoreCall.onAll fresh [.save spaced]) :=
  .next .start (by decide +kernel)

theorem saved_joined :
    ((StoreCall.save joined).on (StoreCall.onAll fresh [.save spaced])).1.isOk = true := by
  decide +kernel

theorem after_goals : After (fun _ => False) fresh [.save joined, .save spaced]
    (StoreCall.onAll fresh [.save joined, .save spaced]) :=
  .next after_spaced saved_joined

/-- The goal that was saved first is not returned although no call was on it since. -/
theorem reopened_keeps_iff_goals :
    ∃ reopened, openOn (StoreCall.onAll fresh [.save joined, .save spaced]).files "data" =
        .ok reopened ∧ reopened.load "goal" "a b" ≠ some spaced ∧
      reopened.load "goal" "a_b" = some joined := by
  obtain ⟨reopened, opened, -, saved⟩ :=
    reopened_keeps_iff isTree_empty openOn_fresh after_goals lasts_goals
  refine ⟨reopened, opened, ?_, ?_⟩
  · intro returned
    have told := (saved spaced [.save joined] [] rfl (by decide)).1 returned
    rw [told_tellsStill_iff fun _ _ told => absurd told not_tells_fresh] at told
    obtain ⟨place, isAt, -, -, untouched⟩ := told
    exact untouched (.save joined) List.mem_cons_self (at_joined isAt)
  · refine (saved joined [] [.save spaced] rfl (by decide)).2 ?_
    rw [told_tellsStill_iff fun _ _ told => absurd told not_tells_fresh]
    exact ⟨⟨"goal", "a_b.json"⟩, by decide, by decide, by decide, by decide⟩

/-- Saving one goal takes another one, saved before it, from a store opened again. -/
theorem spaced_lost :
    ∃ before after, openOn (StoreCall.onAll fresh [.save spaced]).files "data" = .ok before ∧
      before.load "goal" "a b" = some spaced ∧
      ((StoreCall.save joined).on (StoreCall.onAll fresh [.save spaced])).1.isOk = true ∧
      openOn (StoreCall.onAll fresh [.save joined, .save spaced]).files "data" = .ok after ∧
      after.load "goal" "a b" ≠ some spaced := by
  have keptIn : fresh.KeptIn "data" := keptIn_of_openOn openOn_fresh (.inr isTree_empty)
  have lasts : ∀ call ∈ [StoreCall.save spaced], call.Lasts :=
    (List.forall_mem_cons.1 lasts_goals).2
  obtain ⟨before, openedBefore, readsBefore⟩ := (keptIn.after after_spaced lasts).reopens
  obtain ⟨after, openedAfter, readsAfter⟩ := (keptIn.after after_goals lasts_goals).reopens
  refine ⟨before, after, openedBefore, ?_, saved_joined, openedAfter, ?_⟩
  · refine (keptIn.returns_iff spaced [] [] after_spaced lasts (by decide) readsBefore).2 ?_
    rw [told_tellsStill_iff fun _ _ told => absurd told not_tells_fresh]
    exact ⟨⟨"goal", "a_b.json"⟩, by decide, by decide, by decide, by decide⟩
  · intro returned
    have told := (keptIn.returns_iff spaced [.save joined] [] after_goals lasts_goals (by decide)
      readsAfter).1 returned
    rw [told_tellsStill_iff fun _ _ told => absurd told not_tells_fresh] at told
    obtain ⟨place, isAt, -, -, untouched⟩ := told
    exact untouched (.save joined) List.mem_cons_self (at_joined isAt)

end Store

end Clickstream
