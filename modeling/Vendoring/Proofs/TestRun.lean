import Vendoring.Proofs.Repetitions
import Vendoring.Proofs.Table
import Vendoring.TestRun

/-!
# What a test run always has

The required variables and the required exclusion come first in a test run, and what a build adds
to them comes behind: variables of other names (`allVariables`, by their names) and tests that are
not left out yet (`exclusions_eq`).  So nothing that is required can be removed, changed or
repeated, whatever a build adds.

* `required_stays`: what a test run has, and what the process that runs the tests gets.
* `arguments_ne_of_nul`: a test whose name cannot be passed on as it is.
-/

namespace Vendoring.TestRun

theorem isRequired_iff {name : String} :
    isRequired name = true ↔ name ∈ requiredEnvironment.map Prod.fst := by
  simp [isRequired]

/-- A variable of a build that keeps its value has another name than those that are required. -/
theorem mem_further_iff {t : TestRun} {row : String × String} :
    row ∈ t.environment.rows.filter (fun row => !isRequired row.1) ↔
      row ∈ t.environment.rows ∧ row.1 ∉ requiredEnvironment.map Prod.fst := by
  rw [List.mem_filter, Bool.not_eq_true', Bool.eq_false_iff, ne_eq, isRequired_iff]

/-- No two variables of a test run have one name. -/
theorem nodup_names (t : TestRun) : (t.allVariables.map Prod.fst).Nodup := by
  rw [allVariables, List.map_append, List.nodup_append']
  refine ⟨by decide, ?_, ?_⟩
  · exact t.environment.nodup_keys.sublist (List.filter_sublist.map Prod.fst)
  · intro name hrequired hfurther
    obtain ⟨row, hrow, rfl⟩ := List.mem_map.1 hfurther
    exact (mem_further_iff.1 hrow).2 hrequired

/-- The required exclusion comes first, and behind it every other test where it is named first. -/
theorem exclusions_eq (t : TestRun) :
    t.exclusions =
      requiredExclusion :: (t.excludedTests.filter (· ≠ requiredExclusion)).eraseDups := by
  rw [exclusions, foldl_append_new, List.singleton_append]
  simp only [List.mem_singleton, ne_eq]

theorem nodup_exclusions (t : TestRun) : t.exclusions.Nodup := by
  rw [exclusions, foldl_append_new, nodup_append_new_iff]
  exact List.nodup_singleton _

/-- The process gets the variables of the test run, and no others. -/
theorem perm_processEnvironment (t : TestRun) : t.processEnvironment.rows.Perm t.allVariables :=
  Table.perm_rows_ofList t.nodup_names

/-- **What is required stays.**  The variables of a test run have distinct names.  The two required
ones come first with their values, and behind them, in the order of their names, exactly those of
the build that have other names.  The tests that are left out are distinct: the required one, and
behind it the others that the build names, each where it is named first.  The process that runs the
tests gets these variables, and these tests each behind the flag; only a test with a NUL in its
name, which no argument of a process can hold, is replaced by a placeholder. -/
theorem required_stays (t : TestRun) :
    ((t.allVariables.map Prod.fst).Nodup ∧
      ∃ further,
        t.allVariables =
          [("EnvironmentKey1", "EnvironmentValue1"), ("environmentEmpty", "")] ++ further ∧
        further.Pairwise (fun a b => a.1 < b.1) ∧
        ∀ row, row ∈ further ↔
          row ∈ t.environment.rows ∧ row.1 ≠ "EnvironmentKey1" ∧ row.1 ≠ "environmentEmpty") ∧
    (t.exclusions.Nodup ∧
      t.exclusions =
        "org.yaml.snakeyaml.issues.issue318.ContextClassLoaderTest" ::
          (t.excludedTests.filter
            (· ≠ "org.yaml.snakeyaml.issues.issue318.ContextClassLoaderTest")).eraseDups) ∧
    (t.processEnvironment.rows.Perm t.allVariables ∧
      t.arguments = t.exclusions.flatMap fun test =>
        ["--exclude-test", if '\x00' ∈ test.toList then "<string-with-nul>" else test]) := by
  refine ⟨⟨t.nodup_names, _, rfl, ?_, fun row => ?_⟩, ⟨t.nodup_exclusions, t.exclusions_eq⟩,
    t.perm_processEnvironment, ?_⟩
  · exact t.environment.sorted.filter _
  · rw [mem_further_iff]
    simp [requiredEnvironment]
  · rw [arguments]
    simp only [excludeFlag, passedOn, List.contains_iff_mem]

/-- A test is not always passed on under its name. -/
theorem arguments_ne_of_nul :
    let t : TestRun := { excludedTests := ["a\x00b"] }
    t.arguments ≠ t.exclusions.flatMap fun test => ["--exclude-test", test] := by
  decide +kernel

end Vendoring.TestRun
