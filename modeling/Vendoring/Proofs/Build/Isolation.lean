import Vendoring.Proofs.Build.Stages

/-!
# What packaging does not depend on

The POM is imported into the very container from which the vendored dependencies are read back.  It
leaves no trace in what is packaged: with the same index, a build packages the same whatever else
the file system holds.  Nor does it matter how often a coordinate is named, since a build records
each of them once.
-/

namespace Vendoring

/-- The settings with each vendored dependency named once, where it was named first. -/
def Settings.withoutRepeats (s : Settings) : Settings :=
  { s with shade := { s.shade with dependencies := s.shade.dependencies.eraseDups } }

namespace Build

variable {fs fs' : FileSystem} {s : Settings} {root : String} {outcome outcome' : Outcome}

/-- The index depends on its file only. -/
theorem loadIndex_congr (h : ∀ path, s.indexPath = some path →
    fs.readText (Path.join root path) = fs'.readText (Path.join root path)) :
    loadIndex fs s root = loadIndex fs' s root := by
  rw [loadIndex, loadIndex]
  cases hpath : s.indexPath with
  | none => rfl
  | some path => simp only [ArtifactIndex.load, h path hpath]

/-- With the same index, builds that succeed package the same. -/
theorem packaging_eq_of_loadIndex_eq (hindex : loadIndex fs s root = loadIndex fs' s root)
    (h : run fs s root = .ok outcome) (h' : run fs' s root = .ok outcome') :
    outcome.packaging = outcome'.packaging := by
  obtain ⟨-, -, index, hload, hpackaging⟩ := run_eq_ok_iff.1 h
  obtain ⟨-, -, index', hload', hpackaging'⟩ := run_eq_ok_iff.1 h'
  rw [hindex, hload'] at hload
  cases hload
  rw [hpackaging] at hpackaging'
  exact Except.ok.inj hpackaging'

/-- Settings without repetitions record what the settings record. -/
theorem recordedSet_withoutRepeats (s : Settings) :
    s.withoutRepeats.shade.recordedSet = s.shade.recordedSet :=
  congrArg (ShadedSet.mk _) (eraseDups_eraseDups s.shade.dependencies)

/-- Repetitions do not change what comes of a build, whether it succeeds or fails. -/
theorem run_withoutRepeats (fs : FileSystem) (s : Settings) (root : String) :
    run fs s.withoutRepeats root = run fs s root := by
  have hvalidate : s.withoutRepeats.validate = s.validate := rfl
  cases hvalid : s.validate with
  | error e =>
    rw [run, run, hvalidate, hvalid]
    rfl
  | ok accepted =>
    rw [run_eq_stages (hvalidate.trans hvalid), run_eq_stages hvalid, recordedSet_withoutRepeats]
    rfl

/-- **Packaging is isolated.**  Two builds with the same settings and the same index package the
same if both succeed, whatever POM is found and whatever it registers; and the build that names each
vendored dependency once comes to the same. -/
theorem packaging_isolated (s : Settings) (root : String) :
    (∀ fs fs' outcome outcome',
      (∀ path, s.indexPath = some path →
        fs.readText (Path.join root path) = fs'.readText (Path.join root path)) →
      run fs s root = .ok outcome → run fs' s root = .ok outcome' →
      outcome.packaging = outcome'.packaging) ∧
    ∀ fs, run fs s.withoutRepeats root = run fs s root := by
  constructor
  · intro fs fs' outcome outcome' hagree h h'
    exact packaging_eq_of_loadIndex_eq (loadIndex_congr hagree) h h'
  · intro fs
    exact run_withoutRepeats fs s root

/-- Files with an index that has one library. -/
def libraryIndex : FileSystem where
  node path :=
    if path = "./index.json" then
      .ok (.file (String.toUTF8 <|
        "\x7b\"artifacts\":" ++
          "\x7b\"org.lib:lib\":[\x7b\"path\":\"lib/Parser.class\"\x7d]\x7d\x7d"))
    else .error .notFound

/-- The same files with a POM that depends on the library. -/
def libraryPom : FileSystem where
  node path :=
    if path = "./vendor/snakeyaml/pom.xml" then
      .ok (.file (String.toUTF8 <|
        "<project><dependencies><dependency><groupId>org.lib</groupId>" ++
          "<artifactId>lib</artifactId></dependency></dependencies></project>"))
    else libraryIndex.node path

/-- The settings of a module that vendors the library and names it twice. -/
def vendoredTwice : Settings where
  shade :=
    { dependencies := [⟨"org.lib", "lib", none⟩, ⟨"org.lib", "lib", none⟩], minimize := false }
  artifact := ⟨"app", "1"⟩
  indexPath := some "index.json"

/-- A POM that registers the vendored library itself makes no difference. -/
theorem packaging_isolated_of_vendoredTwice :
    ∃ outcome outcome', run libraryIndex vendoredTwice "." = .ok outcome ∧
      run libraryPom vendoredTwice "." = .ok outcome' ∧
      outcome.imported = none ∧
      outcome'.imported.map (·.registered) = some [(.implementation, ⟨"org.lib", "lib", none⟩)] ∧
      outcome.packaging = outcome'.packaging ∧
      run libraryIndex vendoredTwice.withoutRepeats "." = .ok outcome := by
  obtain ⟨outcome, h, hnone⟩ :
      ∃ outcome ∈ (run libraryIndex vendoredTwice ".").toOption, outcome.imported = none := by
    decide +kernel
  obtain ⟨outcome', h', hregistered⟩ :
      ∃ outcome' ∈ (run libraryPom vendoredTwice ".").toOption,
        outcome'.imported.map (·.registered) =
          some [(.implementation, ⟨"org.lib", "lib", none⟩)] := by
    decide +kernel
  rw [mem_toOption_iff] at h h'
  have hagree : ∀ path, vendoredTwice.indexPath = some path →
      libraryIndex.readText (Path.join "." path) = libraryPom.readText (Path.join "." path) := by
    rintro path ⟨⟩
    decide +kernel
  obtain ⟨hisolated, hrepeats⟩ := packaging_isolated vendoredTwice "."
  exact ⟨outcome, outcome', h, h', hnone, hregistered,
    hisolated libraryIndex libraryPom outcome outcome' hagree h h',
    (hrepeats libraryIndex).trans h⟩

end Build

end Vendoring
