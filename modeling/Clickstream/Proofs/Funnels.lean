import Mathlib.Data.List.Flatten
import Clickstream.Goals
import Clickstream.Proofs.Queries
import Clickstream.Proofs.Tallies

/-! # Funnels

A report asks the store for two populations of sessions, those that entered the funnel of a goal and
those that reached its end. The queries differ in one parameter only. So the sessions of the second
are among those of the first, bucket by bucket, and a filter only takes sessions away. The totals
are those of a report without a split unless a bucket goes by the name of the total.
-/

namespace Clickstream

namespace Goals

variable {engine : Engine} {goalId : String} {split : Option String} {filter : Option Condition}

/-- The buckets that a session falls into. -/
def bucketsOf (settings : GoalSettings) : Option String → Item → List String
  | none => fun _ => []
  | some "sessionCreationDate" =>
    Store.bucketsOf (.dates settings.dateInterval) settings.sessionDateField
  | some field => Store.bucketsOf .terms field

/-- The buckets of some sessions, as often as they occur. -/
def buckets (settings : GoalSettings) (split : Option String) (sessions : List Item) :
    List String :=
  sessions.flatMap (bucketsOf settings split)

/-- The sessions of a population. -/
def sessions (engine : Engine) (goalId : String) (reached : Bool) (filter : Option Condition) :
    Except StoreError (List Item) :=
  engine.store.matching engine.names (population engine.settings goalId reached filter) "session"

/-- Counts that succeed: a tally of the buckets of some sessions with their number behind it. -/
structure Counted (engine : Engine) (population : Condition) (split : Option String)
    (matched : List Item) (ranked : BucketCounts) : Prop where
  found : engine.store.matching engine.names population "session" = .ok matched
  tally : Tallies ranked (buckets engine.settings split matched)
  counts : counts engine population split = .ok (ranked ++ [(filteredKey, matched.length)])

theorem counted_of_counts {population : Condition} {cs : BucketCounts}
    (h : counts engine population split = .ok cs) :
    ∃ matched ranked, Counted engine population split matched ranked ∧
      cs = ranked ++ [(filteredKey, matched.length)] := by
  have whole := h
  rw [counts.eq_def] at h
  split at h
  · rw [Store.queryCount] at h
    cases found : engine.store.matching engine.names population "session" with
    | error e => rw [found] at h; cases h
    | ok matched =>
      rw [found] at h
      cases h
      refine ⟨matched, [], ⟨found, ?_, whole⟩, rfl⟩
      constructor
      · simp [buckets, bucketsOf]
      · exact List.nodup_nil
  · obtain ⟨matched, ranked, found, tally, rfl⟩ := Store.aggregate_eq_ok h
    exact ⟨matched, ranked, ⟨found, tally, whole⟩, rfl⟩
  · next field other =>
    have terms : bucketsOf engine.settings (some field) = Store.bucketsOf .terms field := by
      rw [bucketsOf.eq_def]
      split
      · contradiction
      · next same => cases same; exact (other rfl).elim
      · next same => cases same; rfl
    obtain ⟨matched, ranked, found, tally, rfl⟩ := Store.aggregate_eq_ok h
    refine ⟨matched, ranked, ⟨found, ?_, whole⟩, rfl⟩
    rw [buckets, terms]
    exact tally

/-- Counting without a split counts the same sessions. -/
theorem Counted.counts_none {population : Condition} {matched : List Item} {ranked : BucketCounts}
    (h : Counted engine population split matched ranked) :
    Goals.counts engine population none = .ok [(filteredKey, matched.length)] := by
  rw [Goals.counts, Store.queryCount, h.found]
  rfl

/-- A report that succeeds, taken apart: the sessions that entered the funnel and those that reached
its end, with a tally of each. -/
structure Reported (engine : Engine) (goalId : String) (split : Option String)
    (filter : Option Condition) (r : GoalReport) (entered reached : List Item)
    (start target : BucketCounts) : Prop where
  isStart : Counted engine (population engine.settings goalId false filter) split entered start
  isTarget : Counted engine (population engine.settings goalId true filter) split reached target
  report : r = .ofCounts (start ++ [(filteredKey, entered.length)])
    (target ++ [(filteredKey, reached.length)])

theorem reported_of_report {r : GoalReport} (h : report engine goalId split filter = .ok r) :
    ∃ entered reached start target,
      Reported engine goalId split filter r entered reached start target := by
  rw [report] at h
  cases countsStart : counts engine (population engine.settings goalId false filter) split with
  | error e => simp only [countsStart] at h; cases h
  | ok cs =>
    cases countsTarget : counts engine (population engine.settings goalId true filter) split with
    | error e => simp only [countsStart, countsTarget] at h; cases h
    | ok cs' =>
      simp only [countsStart, countsTarget] at h
      cases h
      obtain ⟨entered, start, isStart, rfl⟩ := counted_of_counts countsStart
      obtain ⟨reached, target, isTarget, rfl⟩ := counted_of_counts countsTarget
      exact ⟨entered, reached, start, target, isStart, isTarget, rfl⟩

namespace Reported

variable {r : GoalReport} {entered reached : List Item} {start target : BucketCounts}

/-- What a report shows for its buckets. -/
theorem mem_split (h : Reported engine goalId split filter r entered reached start target)
    {key : String} {stat : Stat} (listed : (key, stat) ∈ r.split) :
    key ∈ buckets engine.settings split entered ∧
      stat.startCount = shownCount (buckets engine.settings split entered) entered.length key ∧
      stat.targetCount = shownCount (buckets engine.settings split reached) reached.length key := by
  rw [h.report] at listed
  obtain ⟨⟨key', count⟩, member, same⟩ := List.mem_map.1 listed
  cases same
  obtain ⟨occurs, shown⟩ := (mem_takeTotal_snd h.isStart.tally).1 member
  exact ⟨occurs, shown, get?_takeTotal_snd h.isTarget.tally⟩

theorem exists_split (h : Reported engine goalId split filter r entered reached start target)
    {key : String} (occurs : key ∈ buckets engine.settings split entered) :
    ∃ stat, (key, stat) ∈ r.split := by
  rw [h.report]
  have listed : (key, shownCount (buckets engine.settings split entered) entered.length key) ∈
      (takeTotal (start ++ [(filteredKey, entered.length)])).2 :=
    (mem_takeTotal_snd h.isStart.tally).2 ⟨occurs, rfl⟩
  exact ⟨_, List.mem_map_of_mem listed⟩

theorem mem_keys (h : Reported engine goalId split filter r entered reached start target)
    {key : String} :
    key ∈ r.split.map Prod.fst ↔ key ∈ buckets engine.settings split entered := by
  constructor
  · intro listed
    obtain ⟨⟨key', stat⟩, member, rfl⟩ := List.mem_map.1 listed
    exact (h.mem_split member).1
  · intro occurs
    obtain ⟨stat, member⟩ := h.exists_split occurs
    exact List.mem_map_of_mem (f := Prod.fst) member

theorem nodup_keys (h : Reported engine goalId split filter r entered reached start target) :
    (r.split.map Prod.fst).Nodup := by
  rw [h.report, GoalReport.ofCounts, List.map_map]
  exact nodup_takeTotal_snd h.isStart.tally

theorem startCount (h : Reported engine goalId split filter r entered reached start target) :
    r.globalStats.startCount =
      if filteredKey ∈ buckets engine.settings split entered then
        (buckets engine.settings split entered).count filteredKey
      else entered.length := by
  rw [h.report]
  exact takeTotal_fst h.isStart.tally

theorem targetCount (h : Reported engine goalId split filter r entered reached start target) :
    r.globalStats.targetCount =
      if filteredKey ∈ buckets engine.settings split reached then
        (buckets engine.settings split reached).count filteredKey
      else reached.length := by
  rw [h.report]
  exact takeTotal_fst h.isTarget.tally

end Reported

/-! ## Populations -/

/-- The store carries out the two conditions that reports are made of as what their settings are
for. -/
structure Understood (engine : Engine) : Prop where
  goalMatch : ({ typeId := engine.settings.goalMatchCondition } : Condition).evaluator
    engine.names = "goalMatchCondition"
  conjunction : ({ typeId := engine.settings.andCondition } : Condition).evaluator
    engine.names = "andCondition"

/-- Whether a session has entered the funnel of a goal, or also reached its end. -/
def progressed (session : Item) (goalId : String) (reached : Bool) : Bool :=
  Predicate.stamped session "start" goalId &&
    (!reached || Predicate.stamped session "target" goalId)

theorem kept_population_none {settings : GoalSettings} {reached : Bool} :
    (population settings goalId reached none).kept = population settings goalId reached none := by
  simp only [population, Condition.withParameter, Condition.kept, Json.ordered,
    Json.canonicalFields, Json.canonical, Fields.sorted, Fields.insert, List.foldl_cons,
    List.foldl_nil, String.reduceEq, String.reduceLT, ↓reduceIte]

/-- The condition asks whether a session has entered the funnel of a goal, or also reached its
end. -/
structure AsksProgress (names : EvaluatorNames) (c : Condition) (goalId : String)
    (reached : Bool) : Prop where
  kind : c.evaluator names = "goalMatchCondition"
  goal : c.string? "goalId" = some goalId
  flag : c.parameter? "goalReached" = some (.bool reached)

theorem AsksProgress.outcome {names : EvaluatorNames} {c : Condition} {reached : Bool}
    (asks : AsksProgress names c goalId reached) {session : Item} :
    Predicate.outcome names session c = .ok (progressed session goalId reached) := by
  rw [Predicate.outcome, asks.kind]
  simp only [Predicate.Kind.ofName?, Predicate.goalMatch, Predicate.required, asks.goal, asks.flag]
  rfl

theorem asksProgress_population (understood : Understood engine) {reached : Bool} :
    AsksProgress engine.names (population engine.settings goalId reached none) goalId reached :=
  ⟨understood.goalMatch, rfl, rfl⟩

theorem outcome_population_none (understood : Understood engine) {session : Item}
    {reached : Bool} :
    Predicate.outcome engine.names session (population engine.settings goalId reached none) =
      .ok (progressed session goalId reached) :=
  (asksProgress_population understood).outcome

/-- The filter is only tried on sessions that have progressed. -/
theorem outcome_population_some (understood : Understood engine) {session : Item}
    {reached : Bool} {f : Condition} :
    Predicate.outcome engine.names session (population engine.settings goalId reached (some f)) =
      if progressed session goalId reached then Predicate.outcome engine.names session f.kept
      else .ok false := by
  have conjunction : Predicate.Kind.ofName?
      (({ typeId := engine.settings.andCondition } : Condition).evaluator engine.names) =
        some (.combination .and) := by
    rw [understood.conjunction]
    rfl
  have parts : population engine.settings goalId reached (some f) =
      ({ typeId := engine.settings.andCondition } : Condition).withConditions "subConditions"
        [population engine.settings goalId reached none, f] := rfl
  rw [parts, Predicate.outcome_withConditions conjunction, kept_population_none,
    outcome_population_none understood]
  cases progressed session goalId reached <;> rfl

/-- A session at the end of the funnel has entered it. -/
theorem outcome_of_reached (understood : Understood engine) {session : Item}
    (h : Predicate.outcome engine.names session (population engine.settings goalId true filter) =
      .ok true) :
    Predicate.outcome engine.names session (population engine.settings goalId false filter) =
      .ok true := by
  have entered :
      progressed session goalId true = true → progressed session goalId false = true := by
    intro both
    simp only [progressed, Bool.and_eq_true] at both
    simp [progressed, both.1]
  cases filter with
  | none =>
    rw [outcome_population_none understood, Except.ok.injEq] at h
    rw [outcome_population_none understood, entered h]
  | some f =>
    rw [outcome_population_some understood] at h
    split at h
    · next both => rw [outcome_population_some understood, if_pos (entered both), h]
    · cases h

/-- A session that passes a filter is there without it. -/
theorem outcome_of_filtered (understood : Understood engine) {session : Item} {reached : Bool}
    (h : Predicate.outcome engine.names session
      (population engine.settings goalId reached filter) = .ok true) :
    Predicate.outcome engine.names session (population engine.settings goalId reached none) =
      .ok true := by
  cases filter with
  | none => exact h
  | some f =>
    rw [outcome_population_some understood] at h
    rw [outcome_population_none understood]
    split at h
    · next progress => rw [progress]
    · cases h

/-! ## Comparing populations -/

theorem buckets_sublist {settings : GoalSettings} {few many : List Item}
    (h : few.Sublist many) : (buckets settings split few).Sublist (buckets settings split many) :=
  h.flatMap _

/-- The counts of fewer sessions are all among those of more sessions, and no greater there. -/
theorem Counted.exists_le {narrow wide : Condition} {few many : List Item}
    {fewer more : BucketCounts} (hfew : Counted engine narrow split few fewer)
    (hmany : Counted engine wide split many more) (sublist : few.Sublist many) {key : String}
    {count : Nat} (listed : (key, count) ∈ fewer ++ [(filteredKey, few.length)]) :
    ∃ count', (key, count') ∈ more ++ [(filteredKey, many.length)] ∧ count ≤ count' := by
  rcases List.mem_append.1 listed with listed | isTotal
  · obtain ⟨occurs, rfl⟩ := hfew.tally.mem_iff.1 listed
    have among : (buckets engine.settings split few).Sublist (buckets engine.settings split many) :=
      buckets_sublist sublist
    refine ⟨_, List.mem_append_left _ (hmany.tally.mem_iff.2 ⟨among.subset occurs, rfl⟩), ?_⟩
    exact among.count_le key
  · rw [List.mem_singleton, Prod.mk.injEq] at isTotal
    obtain ⟨rfl, rfl⟩ := isTotal
    exact ⟨many.length, by simp, sublist.length_le⟩

namespace Reported

variable {r whole : GoalReport} {entered reached : List Item} {start target : BucketCounts}

theorem reached_sublist (understood : Understood engine)
    (h : Reported engine goalId split filter r entered reached start target) :
    reached.Sublist entered :=
  Store.satisfying_sublist (fun _ => outcome_of_reached understood) h.isTarget.found
    h.isStart.found

theorem targetCount_le (understood : Understood engine)
    (h : Reported engine goalId split filter r entered reached start target) {key : String}
    {stat : Stat} (listed : (key, stat) ∈ r.split) : stat.targetCount ≤ stat.startCount := by
  obtain ⟨-, shownStart, shownTarget⟩ := h.mem_split listed
  have sublist := h.reached_sublist understood
  rw [shownStart, shownTarget]
  exact shownCount_mono (buckets_sublist sublist) sublist.length_le

/-- Every bucket of those that reached the end is in the report, with all its conversions. -/
theorem exists_targetCount (understood : Understood engine)
    (h : Reported engine goalId split filter r entered reached start target) {key : String}
    {count : Nat}
    (listed : (key, count) ∈ (takeTotal (target ++ [(filteredKey, reached.length)])).2) :
    ∃ stat, (key, stat) ∈ r.split ∧ stat.targetCount = count := by
  obtain ⟨occurs, rfl⟩ := (mem_takeTotal_snd h.isTarget.tally).1 listed
  obtain ⟨stat, inSplit⟩ := h.exists_split
    ((buckets_sublist (h.reached_sublist understood)).subset occurs)
  exact ⟨stat, inSplit, (h.mem_split inSplit).2.2⟩

/-- A filter takes sessions away from every bucket, and adds none. -/
theorem counts_le_of_filter (understood : Understood engine) {entered' reached' : List Item}
    {start' target' : BucketCounts}
    (h : Reported engine goalId split filter r entered reached start target)
    (h' : Reported engine goalId split none whole entered' reached' start' target') {key : String}
    {stat stat' : Stat} (listed : (key, stat) ∈ r.split) (listed' : (key, stat') ∈ whole.split) :
    stat.startCount ≤ stat'.startCount ∧ stat.targetCount ≤ stat'.targetCount := by
  obtain ⟨-, shownStart, shownTarget⟩ := h.mem_split listed
  obtain ⟨-, shownStart', shownTarget'⟩ := h'.mem_split listed'
  have fewerEntered : entered.Sublist entered' :=
    Store.satisfying_sublist (fun _ => outcome_of_filtered understood) h.isStart.found
      h'.isStart.found
  have fewerReached : reached.Sublist reached' :=
    Store.satisfying_sublist (fun _ => outcome_of_filtered understood) h.isTarget.found
      h'.isTarget.found
  rw [shownStart, shownTarget, shownStart', shownTarget']
  constructor
  · exact shownCount_mono (buckets_sublist fewerEntered) fewerEntered.length_le
  · exact shownCount_mono (buckets_sublist fewerReached) fewerReached.length_le

end Reported

/-- A funnel only narrows: the sessions that reached its end had entered it, every bucket of theirs is
a bucket of those with at least its count and is shown with all of its count, and a filter makes no
count of a bucket greater. -/
theorem report_narrows (understood : Understood engine) {r : GoalReport}
    (reported : report engine goalId split filter = .ok r) :
    ∃ entered reached start target,
      sessions engine goalId false filter = .ok entered ∧
      sessions engine goalId true filter = .ok reached ∧
      counts engine (population engine.settings goalId false filter) split = .ok start ∧
      counts engine (population engine.settings goalId true filter) split = .ok target ∧
      r = .ofCounts start target ∧
      reached.Sublist entered ∧
      (∀ key count, (key, count) ∈ target → ∃ count', (key, count') ∈ start ∧ count ≤ count') ∧
      (∀ key count, (key, count) ∈ (takeTotal target).2 →
        ∃ stat, (key, stat) ∈ r.split ∧ stat.targetCount = count) ∧
      (∀ key stat, (key, stat) ∈ r.split → stat.targetCount ≤ stat.startCount) ∧
      ∀ whole, report engine goalId split none = .ok whole → ∀ key stat stat',
        (key, stat) ∈ r.split → (key, stat') ∈ whole.split →
          stat.startCount ≤ stat'.startCount ∧ stat.targetCount ≤ stat'.targetCount := by
  obtain ⟨entered, reached, start, target, h⟩ := reported_of_report reported
  refine ⟨entered, reached, _, _, h.isStart.found, h.isTarget.found, h.isStart.counts,
    h.isTarget.counts, h.report, h.reached_sublist understood, ?_, ?_, ?_, ?_⟩
  · intro key count listed
    exact h.isTarget.exists_le h.isStart (h.reached_sublist understood) listed
  · intro key count listed
    exact h.exists_targetCount understood listed
  · intro key stat listed
    exact h.targetCount_le understood listed
  · intro whole without key stat stat' listed listed'
    obtain ⟨entered', reached', start', target', h'⟩ := reported_of_report without
    exact h.counts_le_of_filter understood h' listed listed'

/-- A session that has entered the funnel of a sign-up, in a browser of some name. -/
def signupSession (id browser : String) (steps : Fields Json) : Item where
  id := id
  type := "session"
  body := [("properties", .object (("browser", .string browser) :: steps))]

/-- Two sessions, one of them at the end of the funnel and in a browser named like the total. -/
def signupEngine : Engine where
  store :=
    { items := Store.put
        (Store.put {} (signupSession "s1" "_filtered"
          [("signup.start.reached", .string "now"), ("signup.target.reached", .string "now")]))
        (signupSession "s2" "firefox" [("signup.start.reached", .string "now")]) }

/-- Both browsers have an entry in the split, and no entry has more ends than starts. -/
theorem report_narrows_signup :
    Understood signupEngine ∧
      ∃ r, report signupEngine "signup" (some "properties.browser")
          (some { typeId := "matchAllCondition" }) = .ok r ∧
        (∃ stat, ("firefox", stat) ∈ r.split ∧ stat.startCount = 1 ∧ stat.targetCount = 0) ∧
        (∃ stat, ("_filtered", stat) ∈ r.split ∧ stat.startCount = 2 ∧ stat.targetCount = 1) ∧
        ∀ key stat, (key, stat) ∈ r.split → stat.targetCount ≤ stat.startCount := by
  have understood : Understood signupEngine := ⟨rfl, rfl⟩
  have succeeds : (report signupEngine "signup" (some "properties.browser")
      (some { typeId := "matchAllCondition" })).toOption.isSome = true := by decide +kernel
  have browsers (finished : Bool) : (sessions signupEngine "signup" finished
      (some { typeId := "matchAllCondition" })).toOption.map (fun found =>
        (buckets signupEngine.settings (some "properties.browser") found, found.length)) =
      some (if finished then (["_filtered"], 1) else (["_filtered", "firefox"], 2)) := by
    revert finished
    decide +kernel
  cases reported : report signupEngine "signup" (some "properties.browser")
      (some { typeId := "matchAllCondition" }) with
  | error e => rw [reported] at succeeds; cases succeeds
  | ok r =>
    obtain ⟨_, _, _, _, _, _, _, _, _, _, _, _, bounded, _⟩ := report_narrows understood reported
    obtain ⟨entered, reached, start, target, h⟩ := reported_of_report reported
    have starts := browsers false
    have ends := browsers true
    rw [show sessions signupEngine "signup" false _ = .ok entered from h.isStart.found] at starts
    rw [show sessions signupEngine "signup" true _ = .ok reached from h.isTarget.found] at ends
    obtain ⟨isStarts, two⟩ := Prod.mk.inj (Option.some.inj starts)
    obtain ⟨isEnds, one⟩ := Prod.mk.inj (Option.some.inj ends)
    have entry {key : String} (occurs : key ∈ ["_filtered", "firefox"]) :
        ∃ stat, (key, stat) ∈ r.split ∧
          stat.startCount = shownCount ["_filtered", "firefox"] 2 key ∧
          stat.targetCount = shownCount ["_filtered"] 1 key := by
      obtain ⟨stat, listed⟩ := h.exists_split (isStarts ▸ occurs)
      obtain ⟨-, shownStart, shownTarget⟩ := h.mem_split listed
      rw [isStarts, two] at shownStart
      rw [isEnds, one] at shownTarget
      exact ⟨stat, listed, shownStart, shownTarget⟩
    exact ⟨understood, r, rfl, entry (by decide), entry (by decide), bounded⟩

/-- A report with a split has the totals of one without exactly if no bucket is named like the total,
or such a bucket happens to have the count of all sessions. Each bucket of the sessions that entered
has one entry either way. -/
theorem totals_eq_iff {r : GoalReport} (reported : report engine goalId split filter = .ok r) :
    ∃ entered reached,
      sessions engine goalId false filter = .ok entered ∧
      sessions engine goalId true filter = .ok reached ∧
      (∃ whole, report engine goalId none filter = .ok whole ∧
        whole.globalStats.startCount = entered.length ∧
        whole.globalStats.targetCount = reached.length) ∧
      (r.split.map Prod.fst).Nodup ∧
      (∀ key, key ∈ r.split.map Prod.fst ↔ key ∈ buckets engine.settings split entered) ∧
      (r.globalStats.startCount = entered.length ∧ r.globalStats.targetCount = reached.length ↔
        ∀ sessions ∈ [entered, reached], filteredKey ∈ buckets engine.settings split sessions →
          (buckets engine.settings split sessions).count filteredKey = sessions.length) := by
  obtain ⟨entered, reached, start, target, h⟩ := reported_of_report reported
  refine ⟨entered, reached, h.isStart.found, h.isTarget.found, ?_, h.nodup_keys,
    fun key => h.mem_keys, ?_⟩
  · have countsStart := h.isStart.counts_none
    have countsTarget := h.isTarget.counts_none
    refine ⟨.ofCounts [(filteredKey, entered.length)] [(filteredKey, reached.length)], ?_, rfl, rfl⟩
    simp only [report, countsStart, countsTarget]
  · rw [h.startCount, h.targetCount]
    simp only [List.forall_mem_cons, List.not_mem_nil, false_implies, implies_true, and_true]
    apply and_congr
    · split <;> simp_all
    · split <;> simp_all

/-- Of the two sessions that have entered one is in the browser named like the total. -/
theorem sessions_signup :
    ∃ entered, sessions signupEngine "signup" false none = .ok entered ∧ entered.length = 2 ∧
      filteredKey ∈ buckets signupEngine.settings (some "properties.browser") entered ∧
      (buckets signupEngine.settings (some "properties.browser") entered).count filteredKey = 1 := by
  have found : (sessions signupEngine "signup" false none).toOption.map (fun entered =>
      (entered.length,
        (buckets signupEngine.settings (some "properties.browser") entered).count filteredKey)) =
      some (2, 1) := by decide +kernel
  cases listed : sessions signupEngine "signup" false none with
  | error e => rw [listed] at found; cases found
  | ok entered =>
    rw [listed] at found
    obtain ⟨two, one⟩ := Prod.mk.inj (Option.some.inj found)
    refine ⟨entered, rfl, two, ?_, one⟩
    rw [← List.count_pos_iff, one]
    exact Nat.one_pos

theorem report_signup :
    ∃ r, report signupEngine "signup" (some "properties.browser") none = .ok r := by
  have succeeds : (report signupEngine "signup" (some "properties.browser")
      none).toOption.isSome = true := by decide +kernel
  cases reported : report signupEngine "signup" (some "properties.browser") none with
  | error e => rw [reported] at succeeds; cases succeeds
  | ok r => exact ⟨r, rfl⟩

/-- A browser named like the total takes its place: of two sessions one is reported to have
entered. -/
theorem totals_miss_filtered :
    ∃ r entered,
      report signupEngine "signup" (some "properties.browser") none = .ok r ∧
      sessions signupEngine "signup" false none = .ok entered ∧
      r.globalStats.startCount = 1 ∧ entered.length = 2 := by
  obtain ⟨r, reported⟩ := report_signup
  obtain ⟨entered, found, two, occurs, one⟩ := sessions_signup
  obtain ⟨entered', reached, start, target, h⟩ := reported_of_report reported
  have same : entered' = entered := Except.ok.inj (h.isStart.found.symm.trans found)
  subst same
  refine ⟨r, entered', reported, found, ?_, two⟩
  rw [h.startCount, if_pos occurs, one]

/-- That browser is what the totals of the report go wrong by. -/
theorem totals_eq_iff_signup :
    ∃ r entered reached,
      report signupEngine "signup" (some "properties.browser") none = .ok r ∧
      sessions signupEngine "signup" false none = .ok entered ∧
      sessions signupEngine "signup" true none = .ok reached ∧
      ¬ (r.globalStats.startCount = entered.length ∧
        r.globalStats.targetCount = reached.length) := by
  obtain ⟨r, reported⟩ := report_signup
  obtain ⟨entered, found, two, occurs, one⟩ := sessions_signup
  obtain ⟨entered', reached, isEntered, isReached, _, _, _, totals⟩ := totals_eq_iff reported
  have same : entered' = entered := Except.ok.inj (isEntered.symm.trans found)
  subst same
  refine ⟨r, entered', reached, reported, found, isReached, ?_⟩
  intro right
  have equal := totals.1 right entered' List.mem_cons_self occurs
  omega

end Goals

end Clickstream
