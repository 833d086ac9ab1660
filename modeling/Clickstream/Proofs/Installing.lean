import Mathlib.Data.List.Nodup
import Clickstream.Proofs.ModuleChanges

/-! # Where predefined goals end up

A predefined goal that an engine accepts is kept in the store with its rules, and one that it does
not accept waits. Installing goals brings each of them to its place, whatever waited under its id
before, and moves nothing else.
-/

namespace Clickstream

namespace Engine

/-- What an engine has under a goal id: a goal with its rules, and a goal that waits. -/
structure Holds (e : Engine) (goalId : String) (goal : Option Goal)
    (waiting : Option PendingGoal) : Prop where
  stored : Holdings.HasGoal e.store.load e.settings.setPropertyAction goalId goal
  pending : e.pending.get? goalId = waiting

/-- A predefined goal is kept if the engine accepts it, and waits if not. -/
structure Placed (e : Engine) (candidate : PendingGoal) : Prop where
  accepted : e.Accepts candidate.goal → e.Holds candidate.goal.id (some candidate.goal.kept) none
  rejected : ¬ e.Accepts candidate.goal → e.Holds candidate.goal.id none (some candidate)

/-- There is no goal with the id of a predefined goal, or that goal has its place. -/
def Ready (e : Engine) (candidate : PendingGoal) : Prop :=
  (∃ waiting, e.Holds candidate.goal.id none waiting) ∨ e.Placed candidate

/-- An engine like another one but for what it has under some goal ids. -/
structure Moves (e e' : Engine) (moved : String → Prop) : Prop where
  registry : e'.registry = e.registry
  settings : e'.settings = e.settings
  mappings : e'.store.mappings = e.store.mappings
  others : ∀ goalId goal waiting, ¬ moved goalId → e.Holds goalId goal waiting →
    e'.Holds goalId goal waiting

variable {e e' e'' : Engine} {candidate : PendingGoal} {goalId : String}
  {moved moved' : String → Prop}

theorem accepts_congr {g : Goal}
    (definitions : e'.registry.definitions = e.registry.definitions)
    (settings : e'.settings = e.settings) : e'.Accepts g ↔ e.Accepts g := by
  have iff : e'.registry.Knows g ↔ e.registry.Knows g := by
    rw [Registry.Knows, definitions, ← Registry.Knows]
  constructor
  · intro h
    exact ⟨iff.1 h.knows, definitions ▸ settings ▸ h.action⟩
  · intro h
    exact ⟨iff.2 h.knows, definitions.symm ▸ settings.symm ▸ h.action⟩

theorem Holds.load {goal : Option Goal} {waiting : Option PendingGoal}
    (h : e.Holds goalId goal waiting) :
    e.store.load "goal" goalId = goal.map Item.ofEntity := h.stored.item

namespace Moves

theorem refl : e.Moves e moved := ⟨rfl, rfl, rfl, fun _ _ _ _ holds => holds⟩

theorem trans (first : e.Moves e' moved) (second : e'.Moves e'' moved') :
    e.Moves e'' fun id => moved id ∨ moved' id where
  registry := second.registry.trans first.registry
  settings := second.settings.trans first.settings
  mappings := second.mappings.trans first.mappings
  others _ _ _ apart holds :=
    second.others _ _ _ (fun isMoved => apart (.inr isMoved))
      (first.others _ _ _ (fun isMoved => apart (.inl isMoved)) holds)

theorem mono (h : e.Moves e' moved) (more : ∀ id, moved id → moved' id) : e.Moves e' moved' where
  registry := h.registry
  settings := h.settings
  mappings := h.mappings
  others goalId goal waiting apart := h.others goalId goal waiting fun isMoved =>
    apart (more goalId isMoved)

theorem accepts (h : e.Moves e' moved) {g : Goal} : e'.Accepts g ↔ e.Accepts g :=
  accepts_congr (congrArg _ h.registry) h.settings

theorem placed (h : e.Moves e' moved) (apart : ¬ moved candidate.goal.id)
    (before : e.Placed candidate) : e'.Placed candidate := by
  constructor
  · intro accepted
    exact h.others _ _ _ apart (before.accepted (h.accepts.1 accepted))
  · intro rejected
    exact h.others _ _ _ apart (before.rejected fun accepted => rejected (h.accepts.2 accepted))

theorem ready (h : e.Moves e' moved) (apart : ¬ moved candidate.goal.id)
    (before : e.Ready candidate) : e'.Ready candidate := by
  rcases before with ⟨waiting, holds⟩ | placed
  · exact .inl ⟨waiting, h.others _ _ _ apart holds⟩
  · exact .inr (h.placed apart placed)

end Moves

/-! ## Installing one goal -/

/-- Whoever waits under one id does not matter for the others. -/
theorem moves_pending {pending : Table PendingGoal}
    (others : ∀ other, other ≠ goalId → pending.get? other = e.pending.get? other) :
    e.Moves { e with pending } (· = goalId) where
  registry := rfl
  settings := rfl
  mappings := rfl
  others other _ _ apart holds := ⟨holds.stored, (others other apart).trans holds.pending⟩

theorem Restocked.moves {goal : Option Goal} (h : e.Restocked e'
    (Holdings.withGoal e.store.load e.settings.setPropertyAction goalId goal)) :
    e.Moves e' (· = goalId) where
  registry := h.registry
  settings := h.settings
  mappings := h.mappings
  others other _ _ apart holds := by
    refine ⟨?_, h.pending ▸ holds.pending⟩
    rw [h.load, h.settings]
    exact holds.stored.withGoal apart

/-- Taking a goal off the list or putting it there says what waits under its id. -/
theorem Holds.unpark {goal : Option Goal} {waiting : Option PendingGoal}
    (h : e.Holds goalId goal waiting) :
    Engine.Holds { e with pending := e.pending.erase goalId } goalId goal none :=
  ⟨h.stored, by rw [Table.get?_erase, if_pos rfl]⟩

theorem Holds.park {goal : Option Goal} {waiting : Option PendingGoal}
    (h : e.Holds goalId goal waiting) :
    Engine.Holds { e with pending := e.pending.insert goalId candidate } goalId goal
      (some candidate) :=
  ⟨h.stored, by rw [Table.get?_insert, if_pos rfl]⟩

theorem moves_unpark : e.Moves { e with pending := e.pending.erase goalId } (· = goalId) :=
  moves_pending fun _ apart => by rw [Table.get?_erase, if_neg apart]

theorem moves_park :
    e.Moves { e with pending := e.pending.insert goalId candidate } (· = goalId) :=
  moves_pending fun _ apart => by rw [Table.get?_insert, if_neg apart]

/-- Only a goal that has its place already is in the store. -/
theorem Ready.placed_of_load {item : Item} (h : e.Ready candidate)
    (found : e.store.load "goal" candidate.goal.id = some item) :
    e.Accepts candidate.goal ∧ e.Holds candidate.goal.id (some candidate.goal.kept) none := by
  rcases h with ⟨waiting, holds⟩ | placed
  · rw [holds.load] at found
    cases found
  · by_cases accepted : e.Accepts candidate.goal
    · exact ⟨accepted, placed.accepted accepted⟩
    · rw [(placed.rejected accepted).load] at found
      cases found

theorem Ready.holds_of_load (h : e.Ready candidate)
    (new : e.store.load "goal" candidate.goal.id = none) :
    ∃ waiting, e.Holds candidate.goal.id none waiting := by
  rcases h with free | placed
  · exact free
  · by_cases accepted : e.Accepts candidate.goal
    · rw [(placed.accepted accepted).load] at new
      cases new
    · exact ⟨_, placed.rejected accepted⟩

/-- Installing a goal brings it to its place. -/
theorem ends_installGoal (h : e.Ready candidate) :
    e.Ends (Goals.installGoal candidate)
      (fun _ e' => e'.Placed candidate ∧ e.Moves e' (· = candidate.goal.id))
      (fun error _ => error.IsIo) := by
  refine installs.mono (fun _ _ step => ?_) fun _ _ failed => failed
  cases step with
  | there item found =>
    obtain ⟨accepted, holds⟩ := h.placed_of_load found
    have moves := @moves_unpark e candidate.goal.id
    have still := moves.accepts.2 accepted
    exact ⟨⟨fun _ => holds.unpark, fun rejected => absurd still rejected⟩, moves⟩
  | done e' new accepted changed =>
    obtain ⟨waiting, holds⟩ := h.holds_of_load new
    have stored : e'.Holds candidate.goal.id (some candidate.goal.kept) waiting := by
      refine ⟨?_, changed.pending ▸ holds.pending⟩
      rw [changed.load, changed.settings]
      exact Holdings.hasGoal_withGoal
    have moves := changed.moves.trans (@moves_unpark e' candidate.goal.id)
    have still := moves.accepts.2 accepted
    refine ⟨⟨fun _ => stored.unpark, fun rejected => absurd still rejected⟩, ?_⟩
    exact moves.mono fun _ => or_self_iff.1
  | waits new rejected =>
    obtain ⟨waiting, holds⟩ := h.holds_of_load new
    have moves := @moves_park e candidate candidate.goal.id
    have still := fun accepted => rejected (moves.accepts.1 accepted)
    exact ⟨⟨fun accepted => absurd accepted still, fun _ => holds.park⟩, moves⟩

/-! ## Installing many goals -/

theorem ends_installGoals {candidates : List PendingGoal}
    (distinct : ∀ c ∈ candidates, ∀ c' ∈ candidates, c.goal.id = c'.goal.id → c = c')
    (ready : ∀ c ∈ candidates, e.Ready c) :
    e.Ends (Goals.installGoals candidates)
      (fun _ e' => (∀ c ∈ candidates, e'.Placed c) ∧
        e.Moves e' fun id => ∃ c ∈ candidates, c.goal.id = id)
      (fun error _ => error.IsIo) := by
  induction candidates generalizing e with
  | nil => exact ⟨fun c none => absurd none List.not_mem_nil, Moves.refl⟩
  | cons head rest ih =>
    obtain ⟨readyHere, readyRest⟩ := List.forall_mem_cons.1 ready
    simp only [Goals.installGoals, ends_bind, ends_pure]
    refine (ends_installGoal readyHere).mono ?_ fun _ _ failed => failed
    rintro _ e₁ ⟨placed, moves⟩
    have distinctRest : ∀ c ∈ rest, ∀ c' ∈ rest, c.goal.id = c'.goal.id → c = c' :=
      fun c member c' member' =>
        distinct c (List.mem_cons_of_mem _ member) c' (List.mem_cons_of_mem _ member')
    have stillReady : ∀ c ∈ rest, e₁.Ready c := by
      intro c member
      by_cases same : c.goal.id = head.goal.id
      · obtain rfl := distinct c (List.mem_cons_of_mem _ member) head List.mem_cons_self same
        exact .inr placed
      · exact moves.ready same (readyRest c member)
    refine (ih distinctRest stillReady).mono ?_ fun _ _ failed => failed
    rintro _ e₂ ⟨placedRest, movesRest⟩
    refine ⟨fun c member => ?_, (moves.trans movesRest).mono ?_⟩
    · rcases List.mem_cons.1 member with rfl | member
      · by_cases again : ∃ c' ∈ rest, c'.goal.id = c.goal.id
        · obtain ⟨c', inRest, same⟩ := again
          obtain rfl := distinct c' (List.mem_cons_of_mem _ inRest) c List.mem_cons_self same
          exact placedRest c' inRest
        · exact movesRest.placed again placed
      · exact placedRest c member
    · rintro id (rfl | ⟨c, member, same⟩)
      · exact ⟨head, List.mem_cons_self, rfl⟩
      · exact ⟨c, List.mem_cons_of_mem _ member, same⟩

end Engine

/-! ## Installing what a module ships -/

/-- The goals that a module ships. -/
def ModuleSource.goals (source : ModuleSource) : List PendingGoal := (Goals.candidates source).value

theorem ModuleSource.module_of_mem_goals {source : ModuleSource} {candidate : PendingGoal}
    (h : candidate ∈ source.goals) : candidate.module = source.id := by
  obtain ⟨document, found⟩ := Engine.exists_of_mem_candidates h
  obtain ⟨g, _, rfl⟩ := Option.map_eq_some_iff.1 found
  rfl

namespace Engine

variable {e e' : Engine} {goals : List PendingGoal} {source : ModuleSource}

/-- Each of some predefined goals has its place, and there are no other goals. -/
structure Stocked (e : Engine) (goals : List PendingGoal) : Prop where
  placed : ∀ c ∈ goals, e.Placed c
  others : ∀ goalId, goalId ∉ goals.map (·.goal.id) → e.Holds goalId none none

/-- An engine that has the same goals and accepts at least those that another one accepts. -/
structure Grows (e e' : Engine) : Prop where
  accepts : ∀ g, e.Accepts g → e'.Accepts g
  load : e'.store.load = e.store.load
  settings : e'.settings = e.settings
  pending : e'.pending = e.pending

theorem Grows.holds (h : e.Grows e') {goalId : String} {goal : Option Goal}
    {waiting : Option PendingGoal} (holds : e.Holds goalId goal waiting) :
    e'.Holds goalId goal waiting := by
  refine ⟨?_, h.pending ▸ holds.pending⟩
  rw [h.load, h.settings]
  exact holds.stored

/-- What waits is one of the goals and not accepted. -/
theorem Stocked.of_pending (h : e.Stocked goals) {goalId : String} {waiting : PendingGoal}
    (found : e.pending.get? goalId = some waiting) :
    waiting ∈ goals ∧ ¬ e.Accepts waiting.goal := by
  by_cases listed : goalId ∈ goals.map (·.goal.id)
  · obtain ⟨c, member, rfl⟩ := List.mem_map.1 listed
    by_cases accepted : e.Accepts c.goal
    · rw [((h.placed c member).accepted accepted).pending] at found
      cases found
    · rw [((h.placed c member).rejected accepted).pending] at found
      cases found
      exact ⟨member, accepted⟩
  · rw [(h.others goalId listed).pending] at found
    cases found

/-- A module whose goals are new gives each of them its place, and so do those that waited. -/
theorem Stocked.loadGoals (h : e.Stocked goals) (grows : e.Grows e')
    (new : ∀ c ∈ goals, c.module ≠ source.id)
    (distinct : ((source.goals ++ goals).map (·.goal.id)).Nodup) :
    e'.Ends (Goals.loadGoals source)
      (fun _ e'' => e''.Stocked (source.goals ++ goals) ∧ e''.registry = e'.registry ∧
        e''.settings = e'.settings ∧ e''.store.mappings = e'.store.mappings)
      (fun error _ => error.IsIo) := by
  -- Nothing of the module waits, so nothing is forgotten.
  have unchanged : e'.pending.filter (fun _ p => p.module ≠ source.id) = e'.pending := by
    refine Table.ext fun goalId => Option.ext fun waiting => ?_
    rw [Table.get?_filter, Option.filter_eq_some_iff, and_iff_left_iff_imp, decide_eq_true_iff]
    intro found
    rw [grows.pending] at found
    exact new waiting (h.of_pending found).1
  have waits : ∀ c ∈ e'.pending.values, c ∈ goals ∧ ¬ e.Accepts c.goal := by
    intro c member
    obtain ⟨goalId, found⟩ := Table.mem_values.1 member
    rw [grows.pending] at found
    exact h.of_pending found
  have inside : ∀ c ∈ source.goals ++ e'.pending.values, c ∈ source.goals ++ goals := by
    intro c member
    rcases List.mem_append.1 member with shipped | waiting
    · exact List.mem_append_left _ shipped
    · exact List.mem_append_right _ (waits c waiting).1
  have same := List.inj_on_of_nodup_map distinct
  have ready : ∀ c ∈ source.goals ++ e'.pending.values, e'.Ready c := by
    intro c member
    rcases List.mem_append.1 member with shipped | waiting
    · rw [List.map_append] at distinct
      have isNew := (List.nodup_append.1 distinct).2.2 _ (List.mem_map_of_mem shipped)
      exact .inl ⟨_, grows.holds (h.others c.goal.id fun listed => isNew _ listed rfl)⟩
    · obtain ⟨listed, rejected⟩ := waits c waiting
      exact .inl ⟨_, grows.holds ((h.placed c listed).rejected rejected)⟩
  simp only [Goals.loadGoals, Goals.forgetGoals, ends_bind, ends_modify, ends_log, ends_get,
    ends_pure, unchanged]
  have installed := ends_installGoals (fun c member c' member' =>
    same (inside c member) (inside c' member')) ready
  refine installed.mono ?_ fun _ _ failed => failed
  rintro _ e'' ⟨placed, moves⟩
  refine ⟨⟨fun c member => ?_, fun goalId unlisted => ?_⟩, moves.registry, moves.settings,
    moves.mappings⟩
  · by_cases tried : ∃ c' ∈ source.goals ++ e'.pending.values, c'.goal.id = c.goal.id
    · obtain ⟨c', inList, sameId⟩ := tried
      obtain rfl := same (inside c' inList) member sameId
      exact placed c' inList
    -- A goal that was not tried again had been accepted, and still is.
    · refine moves.placed tried ?_
      rcases List.mem_append.1 member with shipped | listed
      · exact absurd ⟨c, List.mem_append_left _ shipped, rfl⟩ tried
      · by_cases accepted : e.Accepts c.goal
        · have holds := grows.holds ((h.placed c listed).accepted accepted)
          exact ⟨fun _ => holds, fun rejected => absurd (grows.accepts _ accepted) rejected⟩
        · have waiting := grows.holds ((h.placed c listed).rejected accepted)
          have member := Table.mem_values.2 ⟨_, waiting.pending⟩
          exact absurd ⟨c, List.mem_append_right _ member, rfl⟩ tried
  · refine moves.others _ _ _ ?_ (grows.holds (h.others goalId fun listed => unlisted ?_))
    · rintro ⟨c, member, rfl⟩
      exact unlisted (List.mem_map_of_mem (inside c member))
    · rw [List.map_append]
      exact List.mem_append_right _ listed

end Engine

end Clickstream
