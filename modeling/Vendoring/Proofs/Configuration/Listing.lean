import Vendoring.Execution
import Vendoring.Proofs.Configuration.Reported
import Vendoring.Proofs.Stages
import Vendoring.Proofs.Text.Splitting

/-!
# What an import prints

An import prints its report: a comment on each skipped dependency, and a block with a declaration of
each registration.  The declarations stand in the order of the container, which is that of the
report by configurations (`ImportReport.grouped`).  The text says one fact a line
(`ImportReport.ListedBy`) exactly if the texts of the POM that it shows fit on a line, and into
quotes (`ImportReport.FitsLines`); nothing is escaped.

* `import_prints_facts`: this equivalence, for every POM that is imported.
* `not_listedBy_of_feed`: a POM that writes a line of its own into the block.
-/

namespace Vendoring

/-- The lines of a text: what stands between its line feeds. -/
def Text.lines (s : String) : List String := (s.toList.splitOn '\n').map String.ofList

/-- A text with a line feed behind each of several lines, and a last line. -/
theorem Text.lines_of_ended {s : String} {lines : List String} {last : String}
    (hs : s.toList = (lines.map String.toList).flatMap (· ++ ['\n']) ++ last.toList)
    (h : ∀ line ∈ lines, '\n' ∉ line.toList) (hlast : '\n' ∉ last.toList) :
    Text.lines s = lines ++ [last] := by
  have hparts : ∀ part ∈ lines.map String.toList, '\n' ∉ part := by
    intro part hpart
    obtain ⟨line, hline, rfl⟩ := List.mem_map.1 hpart
    exact h line hline
  rw [Text.lines, hs, Text.splitOn_flatMap_append hparts, List.splitOn_eq_singleton hlast,
    List.map_append, List.map_map, List.map_singleton, String.ofList_toList]
  simp

theorem Text.length_lines_of_ended_iff {s : String} {lines : List String} {last : String}
    (hs : s.toList = (lines.map String.toList).flatMap (· ++ ['\n']) ++ last.toList)
    (hlast : '\n' ∉ last.toList) :
    (Text.lines s).length = lines.length + 1 ↔ ∀ line ∈ lines, '\n' ∉ line.toList := by
  have hcount : lines.length + 1 =
      (lines.map String.toList).length + (last.toList.splitOn '\n').length := by
    rw [List.splitOn_eq_singleton hlast, List.length_map, List.length_singleton]
  rw [Text.lines, List.length_map, hs, hcount, Text.length_splitOn_flatMap_append_iff,
    List.forall_mem_map]

namespace Container

/-- The registrations of a container, configuration by configuration. -/
def registrations (c : Container) : List (ConfigurationName × Coordinate) :=
  c.configurations.flatMap fun x => x.dependencies.map (x.name, ·)

/-- The block declares one registration a line. -/
theorem toList_declarations (c : Container) :
    c.declarations.toList =
      (("dependencies \x7b" :: c.registrations.map fun p =>
        "    " ++ declaration p.1 p.2).map String.toList).flatMap (· ++ ['\n']) ++
          "\x7d".toList := by
  have hlines : c.configurations.flatMap declarationLines =
      c.registrations.map fun p => "    " ++ declaration p.1 p.2 ++ "\n" := by
    rw [registrations, List.map_flatMap]
    refine List.flatMap_congr fun x _ => ?_
    rw [declarationLines, List.map_map]
    rfl
  have hfeed : "\n".toList = ['\n'] := rfl
  have hopen : "dependencies \x7b\n".toList = "dependencies \x7b".toList ++ ['\n'] := rfl
  have htext : c.declarations = "dependencies \x7b\n" ++
      String.join (c.configurations.flatMap declarationLines) ++ "\x7d" := rfl
  rw [htext, hlines]
  simp only [String.toList_append, String.toList_join, hopen, hfeed, List.map_cons,
    List.flatMap_cons, List.flatMap_map, List.append_assoc]

/-- What new placements have made of an empty container: the configurations in the order in which
they are named, each with the placements of its name. -/
theorem registrations_registerEach {lockNew : Bool} {ps : List (ConfigurationName × Coordinate)}
    (h : ps.Nodup) :
    ((empty lockNew).registerEach ps).registrations =
      (ps.map Prod.fst).eraseDups.flatMap fun name => ps.filter (·.1 = name) := by
  have hnames : ((empty lockNew).registerEach ps).names = (ps.map Prod.fst).eraseDups := by
    have hnone : (empty lockNew).names = [] := rfl
    rw [names_registerEach, hnone, List.nil_append]
    simp
  have hlisted : ∀ name, ((empty lockNew).registerEach ps).dependencies name =
      coordinatesAt name ps := by
    intro name
    rw [dependencies_registerEach_of_new h (by simp), dependencies_empty, List.nil_append]
  have hgroup : ∀ name, (coordinatesAt name ps).map (name, ·) = ps.filter (·.1 = name) := by
    intro name
    rw [coordinatesAt, List.map_filterMap, ← List.filterMap_eq_filter]
    refine List.filterMap_congr fun p _ => ?_
    by_cases hp : p.1 = name
    · subst hp
      simp [Option.guard]
    · simp [hp, Option.guard]
  calc ((empty lockNew).registerEach ps).registrations
      = ((empty lockNew).registerEach ps).configurations.flatMap fun x =>
          (((empty lockNew).registerEach ps).dependencies x.name).map (x.name, ·) :=
        List.flatMap_congr fun x hx => by rw [dependencies_of_mem hx]
    _ = ((empty lockNew).registerEach ps).names.flatMap fun name =>
          (((empty lockNew).registerEach ps).dependencies name).map (name, ·) := by
        rw [names, List.flatMap_map]
    _ = _ := by
        rw [hnames]
        exact List.flatMap_congr fun name _ => by rw [hlisted, hgroup]

end Container

namespace Pom

/-- What is reported as registered was not reported before. -/
theorem nodup_registered (doc : Document) (c : Container) :
    (doc.importInto c).2.registered.Nodup := by
  rw [(imported_importInto doc c).registered]
  exact nodup_eraseDups _

/-- A scope that is reported is outside the four that correspond to configurations, and a name is
one of the four. -/
theorem isCustom_registered {doc : Document} {c : Container} {p : ConfigurationName × Coordinate}
    (h : p ∈ (doc.importInto c).2.registered) : p.1.isCustom = false := by
  rw [(imported_importInto doc c).registered, List.mem_eraseDups, List.mem_filter, placements,
    List.mem_filterMap] at h
  obtain ⟨⟨d, -, htarget⟩, -⟩ := h
  exact Dependency.isCustom_of_target (mem_toOption_iff.1 htarget)

namespace ImportReport

variable {r : ImportReport}

/-- The registrations of a report by their configurations, in the order in which these are named
first. -/
def grouped (r : ImportReport) : List (ConfigurationName × Coordinate) :=
  (r.registered.map Prod.fst).eraseDups.flatMap fun name => r.registered.filter (·.1 = name)

theorem mem_grouped_iff {p : ConfigurationName × Coordinate} :
    p ∈ r.grouped ↔ p ∈ r.registered := by
  simp only [grouped, List.mem_flatMap, List.mem_eraseDups, List.mem_map, List.mem_filter,
    decide_eq_true_eq]
  constructor
  · rintro ⟨_, -, hp, -⟩
    exact hp
  · intro hp
    exact ⟨p.1, ⟨p, hp, rfl⟩, hp, rfl⟩

/-- To group registrations is to put them into another order. -/
theorem perm_grouped (h : r.registered.Nodup) : r.grouped.Perm r.registered := by
  have hgrouped : r.grouped.Nodup := by
    refine List.nodup_flatMap.2 ⟨fun name _ => h.filter _, ?_⟩
    refine (nodup_eraseDups (r.registered.map Prod.fst)).imp fun {a b} hne p ha hb => hne ?_
    rw [List.mem_filter, decide_eq_true_eq] at ha hb
    exact ha.2.symm.trans hb.2
  exact (List.perm_ext_iff_of_nodup hgrouped h).2 fun _ => mem_grouped_iff

/-- A text says each fact of a report on a line of its own: first the skipped dependencies in their
order, each behind the beginning of a comment, then the block, with a declaration of each
registration configuration by configuration, whose coordinate is all that stands in quotes. -/
structure ListedBy (r : ImportReport) (text : String) : Prop where
  length : (Text.lines text).length = r.skipped.length + r.registered.length + 2
  comments : List.Forall₂ (fun s line => ("// skipped " ++ s.label).toList <+: line.toList)
    r.skipped ((Text.lines text).take r.skipped.length)
  block : (Text.lines text).drop r.skipped.length =
    ["dependencies \x7b"] ++
      (r.grouped.map fun p => "    " ++ p.1.text ++ "(\"" ++ p.2.text ++ "\")") ++ ["\x7d"]
  quoted : ∀ p ∈ r.registered, '"' ∉ p.2.text.toList ∧ '\n' ∉ p.2.text.toList

/-- The texts that a report shows fit where they are shown: those of skipped dependencies on a line,
and those of registrations on a line and into quotes. -/
structure FitsLines (r : ImportReport) : Prop where
  labels : ∀ s ∈ r.skipped, '\n' ∉ s.label.toList
  scopes : ∀ s ∈ r.skipped, ∀ scope, s.reason = .unmappedScope scope → '\n' ∉ scope.toList
  coordinates : ∀ p ∈ r.registered, '"' ∉ p.2.text.toList ∧ '\n' ∉ p.2.text.toList

end ImportReport

namespace Skipped

/-- The comment on a skipped dependency, without the line feed behind it. -/
def remark (s : Skipped) : String :=
  "// skipped " ++ s.label ++ " (line " ++ toString s.line ++ "): " ++ s.reason.message

theorem toList_remark (s : Skipped) :
    s.remark.toList =
      ("// skipped " ++ s.label).toList ++ (" (line ".toList ++
        (Nat.toDigits 10 s.line ++ ("): ".toList ++ s.reason.message.toList))) := by
  have hremark : s.remark =
      "// skipped " ++ s.label ++ " (line " ++ toString s.line ++ "): " ++ s.reason.message := rfl
  rw [hremark]
  simp only [String.toList_append, Nat.toString_eq_ofList_toDigits, String.toList_ofList,
    List.append_assoc]

theorem feed_notMem_remark_iff {s : Skipped} :
    '\n' ∉ s.remark.toList ↔
      '\n' ∉ s.label.toList ∧
        ∀ scope, s.reason = .unmappedScope scope → '\n' ∉ scope.toList := by
  have hnumber : '\n' ∉ Nat.toDigits 10 s.line := by
    intro hmem
    exact absurd (Nat.isDigit_of_mem_toDigits (by decide) (by decide) hmem) (by decide)
  have hreason : '\n' ∉ s.reason.message.toList ↔
      ∀ scope, s.reason = .unmappedScope scope → '\n' ∉ scope.toList := by
    cases s.reason with
    | missingCoordinates =>
      refine iff_of_true (by decide) ?_
      rintro scope ⟨⟩
    | unmappedScope scope =>
      have hmessage : (SkipReason.unmappedScope scope).message =
        "unmapped scope '" ++ scope ++ "'" := rfl
      have hopen : '\n' ∉ "unmapped scope '".toList := by decide
      have hclose : '\n' ∉ "'".toList := by decide
      rw [hmessage]
      simp only [String.toList_append, List.mem_append, hopen, hclose, false_or, or_false,
        SkipReason.unmappedScope.injEq, forall_eq']
  have hopen : '\n' ∉ "// skipped ".toList := by decide
  have hline : '\n' ∉ " (line ".toList := by decide
  have hclose : '\n' ∉ "): ".toList := by decide
  rw [← hreason, toList_remark, String.toList_append]
  simp only [List.mem_append, hnumber, hopen, hline, hclose, false_or, not_or]

end Skipped

namespace ImportReport

variable {r : ImportReport} {c : Container}

/-- The lines of what an import prints, but for the last one, if none of the texts in them has a
line feed. -/
def listing (r : ImportReport) : List String :=
  r.skipped.map Skipped.remark ++
    "dependencies \x7b" :: r.grouped.map fun p => "    " ++ Container.declaration p.1 p.2

theorem toList_importText (h : c.registrations = r.grouped) :
    (Command.importText false c r).toList =
      (r.listing.map String.toList).flatMap (· ++ ['\n']) ++ "\x7d".toList := by
  have hfeed : "\n".toList = ['\n'] := rfl
  have hcomments : r.skipped.map Skipped.comment = r.skipped.map fun s => s.remark ++ "\n" := rfl
  rw [Command.importText, if_neg Bool.false_ne_true, String.toList_append, String.toList_join,
    Container.toList_declarations, h, hcomments, listing, List.map_append, List.flatMap_append,
    List.append_assoc, List.flatMap_map, List.map_map, List.flatMap_map]
  simp only [List.flatMap_map, String.toList_append, hfeed, Function.comp_apply]

theorem forall_mem_listing_iff (hnames : ∀ p ∈ r.registered, p.1.isCustom = false) :
    (∀ line ∈ r.listing, '\n' ∉ line.toList) ↔
      (∀ s ∈ r.skipped, '\n' ∉ s.remark.toList) ∧
        ∀ p ∈ r.registered, '\n' ∉ p.2.text.toList := by
  have hdeclaration : ∀ p ∈ r.registered,
      ('\n' ∉ ("    " ++ Container.declaration p.1 p.2).toList ↔ '\n' ∉ p.2.text.toList) := by
    intro p hp
    have hname : '\n' ∉ p.1.text.toList := by
      have hown := hnames p hp
      cases hp : p.1 with
      | custom text => rw [hp] at hown; cases hown
      | _ => decide
    simp [Container.declaration, hname]
  have hopen : '\n' ∉ "dependencies \x7b".toList := by decide
  simp only [listing, List.forall_mem_append, List.forall_mem_cons, List.forall_mem_map,
    mem_grouped_iff, hopen, not_false_eq_true, true_and]
  exact and_congr_right fun _ => forall₂_congr hdeclaration

/-- **A printed report says one fact a line exactly if its texts fit.** -/
theorem listedBy_iff (hnodup : r.registered.Nodup)
    (hnames : ∀ p ∈ r.registered, p.1.isCustom = false) (h : c.registrations = r.grouped) :
    r.ListedBy (Command.importText false c r) ↔ r.FitsLines := by
  have htext := toList_importText h
  have hclose : '\n' ∉ "\x7d".toList := by decide
  have hlength : r.listing.length + 1 = r.skipped.length + r.registered.length + 2 := by
    rw [listing, List.length_append, List.length_cons, List.length_map, List.length_map,
      (perm_grouped hnodup).length_eq]
    omega
  constructor
  · rintro ⟨hcount, -, -, hquoted⟩
    rw [← hlength, Text.length_lines_of_ended_iff htext hclose, forall_mem_listing_iff hnames]
      at hcount
    exact ⟨fun s hs => (Skipped.feed_notMem_remark_iff.1 (hcount.1 s hs)).1,
      fun s hs => (Skipped.feed_notMem_remark_iff.1 (hcount.1 s hs)).2, hquoted⟩
  · rintro ⟨hlabels, hscopes, hcoordinates⟩
    have hfits : ∀ line ∈ r.listing, '\n' ∉ line.toList := by
      refine (forall_mem_listing_iff hnames).2 ⟨fun s hs => ?_, fun p hp => (hcoordinates p hp).2⟩
      exact Skipped.feed_notMem_remark_iff.2 ⟨hlabels s hs, hscopes s hs⟩
    have hlines : Text.lines (Command.importText false c r) = r.listing ++ ["\x7d"] :=
      Text.lines_of_ended htext hfits hclose
    have hskipped : r.skipped.length = (r.skipped.map Skipped.remark).length :=
      (List.length_map ..).symm
    constructor
    · rw [hlines, List.length_append, List.length_singleton, hlength]
    · rw [hlines, listing, List.append_assoc, hskipped, List.take_left, List.forall₂_map_right_iff]
      refine List.forall₂_same.2 fun s _ => ?_
      rw [Skipped.toList_remark]
      exact List.prefix_append ..
    · rw [hlines, listing, List.append_assoc, hskipped, List.drop_left]
      simp only [Container.declaration, String.append_assoc]
      rfl
    · exact hcoordinates

end ImportReport

/-- **What an import prints.**  Every POM that is imported has its report printed.  The text says
one fact a line, with every coordinate in quotes of its own, exactly if no label and no scope of a
skipped dependency has a line feed, and no coordinate of a registration has a line feed or a quote:
texts of the POM are shown as they are. -/
theorem import_prints_facts (fs : FileSystem) (pom : String) (key : Option String)
    {p : Subproject} {r : ImportReport}
    (h : (Subproject.new {}).importPom fs pom = .ok (p, r)) :
    ∃ text, (Command.importPom pom false).run fs key = .ok text ∧
      (r.ListedBy text ↔ r.FitsLines) := by
  obtain ⟨doc, hload, rfl, rfl⟩ := Subproject.importPom_eq_ok_iff.1 h
  refine ⟨Command.importText false (doc.importInto (Container.empty true)).1
    (doc.importInto (Container.empty true)).2, ?_, ?_⟩
  · rw [Command.run, h]
    rfl
  · refine ImportReport.listedBy_iff (nodup_registered ..) (fun _ hp => isCustom_registered hp) ?_
    rw [container_importInto_eq_registered]
    exact Container.registrations_registerEach (nodup_registered ..)

/-- Files of which one is a POM. -/
def filesOf (pom : String) : FileSystem :=
  ⟨fun path => if path = "pom.xml" then .ok (.file pom.toUTF8) else .error .notFound⟩

/-- A POM with a dependency that is skipped and one that is registered. -/
def oneOfEach : String :=
  "<project><dependencies><dependency/><dependency><groupId>a</groupId>" ++
    "<artifactId>b</artifactId></dependency></dependencies></project>"

/-- The report on the POM with one dependency of each kind. -/
def oneOfEachReport : ImportReport where
  registered := [(.implementation, ⟨"a", "b", none⟩)]
  skipped := [⟨"?:?", 1, .missingCoordinates⟩]

theorem import_prints_facts_of_oneOfEach :
    (∃ p, (Subproject.new {}).importPom (filesOf oneOfEach) "pom.xml" =
      .ok (p, oneOfEachReport)) ∧
    ∃ text, (Command.importPom "pom.xml" false).run (filesOf oneOfEach) none = .ok text ∧
      oneOfEachReport.ListedBy text := by
  have hreport : ((Subproject.new {}).importPom (filesOf oneOfEach) "pom.xml").map Prod.snd =
      .ok oneOfEachReport := by decide +kernel
  obtain ⟨⟨p, r⟩, himport, rfl⟩ := map_eq_ok_iff.1 hreport
  obtain ⟨text, hrun, hiff⟩ := import_prints_facts (filesOf oneOfEach) "pom.xml" none himport
  refine ⟨⟨p, himport⟩, text, hrun, hiff.2 ⟨by decide, fun s hs scope hscope => ?_, by decide⟩⟩
  obtain rfl : s = ⟨"?:?", 1, .missingCoordinates⟩ := List.mem_singleton.1 hs
  cases hscope

/-- A POM whose artifact has a line feed in its name. -/
def feedInArtifact : String :=
  "<project><dependencies><dependency><groupId>g</groupId><artifactId>a\nb</artifactId>" ++
    "</dependency></dependencies></project>"

/-- A name in a POM can leave the literal that it is shown in: one registration takes up two lines,
and neither of them is a declaration. -/
theorem not_listedBy_of_feed :
    ∃ p r text, (Subproject.new {}).importPom (filesOf feedInArtifact) "pom.xml" = .ok (p, r) ∧
      (Command.importPom "pom.xml" false).run (filesOf feedInArtifact) none = .ok text ∧
      Text.lines text = ["dependencies \x7b", "    implementation(\"g:a", "b\")", "\x7d"] ∧
      ¬ r.ListedBy text := by
  have hreport : ((Subproject.new {}).importPom (filesOf feedInArtifact) "pom.xml").map Prod.snd =
      .ok { registered := [(.implementation, ⟨"g", "a\nb", none⟩)] } := by decide +kernel
  have hprinted : ((Command.importPom "pom.xml" false).run (filesOf feedInArtifact) none).toOption =
      some "dependencies \x7b\n    implementation(\"g:a\nb\")\n\x7d" := by decide +kernel
  obtain ⟨⟨p, _⟩, himport, rfl⟩ := map_eq_ok_iff.1 hreport
  refine ⟨p, _, _, himport, mem_toOption_iff.1 hprinted, by decide +kernel, fun hlisted => ?_⟩
  have hlength := hlisted.length
  revert hlength
  decide +kernel

end Pom

end Vendoring
