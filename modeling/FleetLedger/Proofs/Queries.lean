import FleetLedger.Proofs.Keywords
import FleetLedger.Proofs.Pages
import FleetLedger.Proofs.Timeline

/-!
# What a query asks for

A query is turned into a filter on documents, and whoever asked means executions.  `Query.Asks` says
what is meant, in terms of days, outcomes and words, and **`filter_means_query`** that the filter holds
of just the documents of the executions that are meant, in the history as well as among the latest
ones.

Each condition of a query has one lemma here, for any document that spells an execution.  Days come
down to arithmetic: a day goes from its first millisecond to the one before the next day starts.
Keywords come down to where they stand in a text, whatever is special in a pattern.
-/

namespace FleetLedger

open Pattern (Occurs)

/-! ## What is meant -/

namespace Query

/-- A keyword, once trimmed, is found in a text; one of blanks alone is no keyword. -/
def Finds (words : List String) (text : String) : Prop :=
  ∃ w ∈ words, Blank.trim w ≠ "" ∧ Occurs (Blank.trim w) text

instance (words : List String) (text : String) : Decidable (Finds words text) :=
  inferInstanceAs (Decidable (∃ w ∈ words, _ ∧ _))

/-- **A query asks for an execution.** -/
structure Asks (q : Query) (e : Execution) : Prop where
  ip : q.ips = [] ∨ e.ip ∈ q.ips
  jobId : q.jobIds = [] ∨ e.jobId ∈ q.jobIds
  began : ∀ d, q.firstDay = some d → d.count ≤ e.beginTime.day.count
  ended : ∀ d, q.lastDay = some d → e.endTime.day.count ≤ d.count
  success : ∀ b, q.success = some b → e.success = b
  /-- There are no keywords, or one of them is found. -/
  keyword : (∀ w ∈ q.hostnames ++ q.names, Blank.trim w = "")
    ∨ Finds q.hostnames e.hostname ∨ Finds q.names e.name

end Query

/-! ## Conditions -/

namespace Filter

/-- A keyword that is made a pattern is found where it occurs. -/
lemma holds_like_escape {d : Document} {field text : String}
    (h : d.get? field = some (.string text)) (word : String) :
    (like field (Pattern.escape word)).holds d = true ↔ Occurs word text := by
  rw [holds, found, Pattern.parse?_escape, h]
  exact Pattern.isMatch_literal

end Filter

namespace Query

lemma keywords_eq_nil_iff {field : String} {words : List String} :
    keywords field words = [] ↔ ∀ w ∈ words, Blank.trim w = "" := by
  simp [keywords, List.filterMap_eq_nil_iff, Option.eq_none_iff_forall_ne_some,
    Blank.trimmed?_eq_some_iff]

/-- Some keyword matches a text if one of the words is found in it. -/
lemma any_keywords {d : Document} {field text : String} (h : d.get? field = some (.string text))
    (words : List String) :
    (keywords field words).any (·.holds d) = true ↔ Finds words text := by
  simp only [keywords, List.any_map, List.any_eq_true, List.mem_filterMap, Function.comp_apply,
    Filter.holds_like_escape h, Blank.trimmed?_eq_some_iff, Finds]
  constructor
  · rintro ⟨_, ⟨w, hw, rfl, hne⟩, hoccurs⟩
    exact ⟨w, hw, hne, hoccurs⟩
  · rintro ⟨w, hw, hne, hoccurs⟩
    exact ⟨_, ⟨w, hw, rfl, hne⟩, hoccurs⟩

/-- All clauses hold, or there are none. -/
lemma holds_allOf (clauses : List Filter) (d : Document) :
    (allOf clauses).holds d = clauses.all (·.holds d) := by
  cases clauses with
  | nil => rfl
  | cons f fs => rw [allOf, Filter.holds_and]; simp

/-- A condition that is left open if nothing is listed. -/
lemma all_unless_empty {α : Type} (values : List α) (f : Filter) (d : Document) :
    (if values.isEmpty then [] else [f]).all (·.holds d) = true ↔ values = [] ∨ f.holds d = true := by
  cases values <;> simp

/-- What a query asks for, clause by clause in the order of the filter. -/
lemma asks_iff {q : Query} {e : Execution} : q.Asks e
    ↔ (((((q.ips = [] ∨ e.ip ∈ q.ips) ∧ (q.jobIds = [] ∨ e.jobId ∈ q.jobIds))
      ∧ ∀ d, q.firstDay = some d → d.count ≤ e.beginTime.day.count)
      ∧ ∀ d, q.lastDay = some d → e.endTime.day.count ≤ d.count)
      ∧ ∀ b, q.success = some b → e.success = b)
      ∧ ((∀ w ∈ q.hostnames ++ q.names, Blank.trim w = "")
        ∨ Finds q.hostnames e.hostname ∨ Finds q.names e.name) := by
  constructor
  · rintro ⟨ip, jobId, began, ended, success, keyword⟩
    exact ⟨⟨⟨⟨⟨ip, jobId⟩, began⟩, ended⟩, success⟩, keyword⟩
  · rintro ⟨⟨⟨⟨⟨ip, jobId⟩, began⟩, ended⟩, success⟩, keyword⟩
    exact ⟨ip, jobId, began, ended, success, keyword⟩

/-- **The conditions of a query** hold of a document together if the query asks for the execution that
it spells. -/
theorem all_clauses_iff {q : Query} {ended : Option Timestamp}
    (hended : ∀ t : Timestamp, (∀ next, ended = some next → t.millis < next.millis)
      ↔ ∀ d, q.lastDay = some d → t.day.count ≤ d.count)
    {e : Execution} {d : Document} (h : e.Spelled d) :
    (q.clauses ended).all (·.holds d) = true ↔ q.Asks e := by
  rw [asks_iff, ← hended e.endTime]
  simp only [clauses, List.all_append, Bool.and_eq_true, all_unless_empty]
  refine and_congr (and_congr (and_congr (and_congr (and_congr ?ip ?jobId) ?began) ?ended) ?success)
    ?keyword
  case ip => simp [h.ip]
  case jobId => simp [h.jobId]
  case began =>
      cases q.firstDay with
      | none => simp
      | some first =>
          have hbegan := Filter.holds_gte_int h.beginTime e.beginTime.millis_bounds
            first.start.millis_bounds
          simpa [hbegan] using start_le_iff first e.beginTime
  case ended =>
      cases ended with
      | none => simp
      | some next =>
          have hbefore := Filter.holds_lt_int h.endTime e.endTime.millis_bounds next.millis_bounds
          simp [hbefore]
  case success =>
      cases q.success with
      | none => simp
      | some b => simp [Filter.holds_eqBool h.success]
  case keyword =>
      have hnone : keywords "hostname" q.hostnames ++ keywords "name" q.names = []
          ↔ ∀ w ∈ q.hostnames ++ q.names, Blank.trim w = "" := by
        rw [List.append_eq_nil_iff, keywords_eq_nil_iff, keywords_eq_nil_iff,
          List.forall_mem_append]
      rw [hnone, Filter.holds_or, List.any_append, Bool.or_eq_true, any_keywords h.hostname,
        any_keywords h.name]

/-- Unless it asks up to the last day, a query has a filter, which selects what it asks for. -/
lemma exists_filter_iff {q : Query} (hday : q.lastDay ≠ some Date.last) :
    ∃ f, q.filter? = some f ∧ ∀ (e : Execution) (d : Document), e.Spelled d →
      (f.holds d = true ↔ q.Asks e) := by
  obtain ⟨f, hf⟩ := exists_filter hday
  refine ⟨f, hf, fun e d h => ?_⟩
  rw [filter?] at hf
  cases hlast : q.lastDay with
  | none =>
      rw [hlast] at hf
      rw [← Option.some.inj hf, holds_allOf]
      exact all_clauses_iff (by simp [hlast]) h
  | some last =>
      rw [hlast] at hf
      obtain ⟨next, hnext, rfl⟩ := Option.map_eq_some_iff.mp hf
      rw [holds_allOf]
      exact all_clauses_iff (fun t => by simpa [hlast] using lt_nextStart_iff hnext t) h

end Query

/-! ## Queries -/

/-- **The filter of a query means what the query says.**  Every query that does not end on the last day
of the calendar has a filter, and it holds of the document of an execution, in the history or among the
latest ones, if the query asks for the execution. -/
theorem filter_means_query (q : Query) (hday : q.lastDay ≠ some Date.last) :
    ∃ f, q.filter? = some f
      ∧ ∀ (latest : Bool) (e : Execution), f.holds (spell latest e) = true ↔ q.Asks e := by
  obtain ⟨f, hf, hmeans⟩ := Query.exists_filter_iff hday
  refine ⟨f, hf, fun latest e => ?_⟩
  cases latest with
  | false => exact hmeans e e.toDocument e.spelled_toDocument
  | true =>
      -- a row has the id of its execution in another place, and no query asks for ids
      have hrow := hmeans { e with id := "" } (Latest.overwriting e) (Latest.spelled_overwriting e)
      exact hrow.trans (Query.asks_iff.trans (Query.asks_iff (e := e)).symm)

/-- A keyword with special characters, a line break and capitals in it, and one of blanks alone. -/
def summer : Query where
  names := [" (ÉTÉ)\n+ ", "  "]
  lastDay := some { count := 0 }

/-- A backup whose name has these special characters in it, in small letters. -/
def summerReport : Execution := { backup with name := "rapport (été)\n+ fin" }

/-- The query for summer selects the report, and not the backup. -/
theorem filter_summer : summer.lastDay ≠ some Date.last
    ∧ ∃ f, summer.filter? = some f ∧ f.holds (spell true summerReport) = true
      ∧ f.holds (spell false backup) = false := by
  have hday : summer.lastDay ≠ some Date.last := by decide
  obtain ⟨f, hf, hmeans⟩ := filter_means_query summer hday
  refine ⟨hday, f, hf, ?_, ?_⟩
  · rw [hmeans, Query.asks_iff]
    refine ⟨⟨⟨⟨⟨Or.inl rfl, Or.inl rfl⟩, by simp [summer]⟩, ?_⟩, by simp [summer]⟩, ?_⟩
    · simp only [summer, Option.some.injEq, forall_eq']
      decide
    · exact Or.inr (Or.inr (by decide +kernel))
  · rw [Bool.eq_false_iff, ne_eq, hmeans, Query.asks_iff]
    rintro ⟨-, hkeyword⟩
    revert hkeyword
    decide +kernel

end FleetLedger
