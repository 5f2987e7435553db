import Vendoring.Proofs.Pom.Closing
import Vendoring.Proofs.Pom.EmptyElement
import Vendoring.Proofs.Pom.Reached

/-!
# The spellings of empty elements in a POM

Whether an empty element may be written as one tag or as two depends on what the reader has come to
before it (`Interchangeable`): the element must not set anything anew, it must not stand in the text
of a value, and the positions behind it must be in the same lines, which they are but for one case.

Where that holds, every document is read alike with both spellings (`readChars_short_eq_long`).
Where it does not, what is open can be closed behind the element so that the document shows the
difference (`interchangeable_of_forall`).  Both are put together in `read_spellings`.
-/

namespace Vendoring.Pom

open Xml (EmptyTag byteLength byteLength_append byteLength_cons)

variable {before : List Char} {t : EmptyTag}

/-! ## Lines behind an empty element -/

/-- Behind an empty element the lines move along with the positions. -/
theorem lineOf_long {position : Nat}
    (h : ∀ start ∈ lineStartsFrom 0 (before ++ '<' :: t.inner) [], start ≤ position)
    (rest : List Char) :
    lineOf (lineStarts (before ++ (t.long ++ rest))) (position + t.excess) =
      lineOf (lineStarts (before ++ (t.short ++ rest))) position := by
  have hreplace := lineOf_replace (by decide) t.feed_notMem_closing t.byteLength_closing h rest
  rw [t.short_eq, t.long_eq, List.append_assoc, List.append_assoc, ← List.append_assoc before,
    ← List.append_assoc before]
  exact hreplace

/-- The position of the reader behind the element as one tag. -/
def behind (before : List Char) (t : EmptyTag) : Nat :=
  byteLength (withoutMark before) + byteLength t.short

/-- Further behind, the lines that the two spellings have are the same. -/
theorem lineOf_behind_of_lt {position : Nat} (h : behind before t < position) (rest : List Char) :
    lineOf (lineStarts (before ++ (t.long ++ rest))) (position + t.excess) =
      lineOf (lineStarts (before ++ (t.short ++ rest))) position := by
  refine lineOf_long (fun start hstart => ?_) rest
  have hle := le_of_mem_lineStartsFrom hstart
  have hmark := byteLength_le_withoutMark before
  have hopen : '<'.utf8Size = 1 := rfl
  rw [byteLength_append, byteLength_cons, hopen] at hle
  rw [behind, t.byteLength_short] at h
  omega

/-- Right behind the element they are the same, unless positions are counted from behind a byte
order mark and the tag ends in a line feed. -/
theorem lineOf_behind (h : Marked before → t.inner.getLast? ≠ some '\n') (rest : List Char) :
    lineOf (lineStarts (before ++ (t.long ++ rest))) (behind before t + t.excess) =
      lineOf (lineStarts (before ++ (t.short ++ rest))) (behind before t) := by
  refine lineOf_long (fun start hstart => ?_) rest
  have hopen : '<'.utf8Size = 1 := rfl
  have hlength : byteLength (before ++ '<' :: t.inner) =
      byteLength before + (1 + byteLength t.inner) := by
    rw [byteLength_append, byteLength_cons, hopen]
  rw [behind, t.byteLength_short]
  by_cases hmarked : Marked before
  · have hlast : (before ++ '<' :: t.inner).getLast? ≠ some '\n' := by
      have hne : t.inner ≠ [] := by
        rw [EmptyTag.inner]
        exact List.append_ne_nil_of_left_ne_nil t.name.nonempty _
      rw [List.getLast?_append_of_ne_nil _ (List.cons_ne_nil _ _), List.getLast?_cons_of_ne_nil hne]
      exact h hmarked
    have hlt := lt_of_mem_lineStartsFrom_of_last hlast hstart
    have hmark := byteLength_of_marked hmarked
    omega
  · have hle := le_of_mem_lineStartsFrom hstart
    rw [withoutMark_of_not_marked hmarked]
    omega

/-- Right behind it, if it does end in a line feed, the line is counted later in the spelling with
one tag. -/
theorem lineOf_behind_lt (hmarked : Marked before) (hlast : t.inner.getLast? = some '\n')
    (rest rest' : List Char) :
    lineOf (lineStarts (before ++ (t.short ++ rest))) (behind before t) <
      lineOf (lineStarts (before ++ (t.long ++ rest'))) (behind before t + t.excess) := by
  obtain ⟨inner, hinner⟩ := List.getLast?_eq_some_iff.1 hlast
  let front := before ++ '<' :: inner
  have hbehind : behind before t = byteLength front := by
    have hopen : '<'.utf8Size = 1 := rfl
    have hfeed : byteLength ['\n'] = 1 := rfl
    rw [behind, t.byteLength_short, hinner, byteLength_append, hfeed, byteLength_append,
      byteLength_cons, hopen, byteLength_of_marked hmarked]
    omega
  have hshort : before ++ (t.short ++ rest) = front ++ ('\n' :: '/' :: '>' :: rest) := by
    simp [front, t.short_eq, hinner]
  have hlong : before ++ (t.long ++ rest') = front ++ ['\n'] ++ (t.closing ++ rest') := by
    simp [front, t.long_eq, hinner]
  have hstarts : lineStarts (front ++ ['\n']) = lineStarts front ++ [byteLength front + 1] := by
    rw [lineStarts, lineStarts, lineStartsFrom_append, Nat.zero_add]
    rfl
  have hall : ∀ start ∈ lineStartsFrom 0 (front ++ ['\n']) [],
      start ≤ behind before t + t.excess := by
    intro start hstart
    have hle := le_of_mem_lineStartsFrom hstart
    have hfeed : byteLength ['\n'] = 1 := rfl
    rw [byteLength_append, hfeed] at hle
    rw [hbehind, EmptyTag.excess]
    omega
  have hfew : lineOf (lineStarts front) (behind before t) ≤ (lineStarts front).length :=
    (List.takeWhile_prefix _).length_le
  rw [hshort, hlong, lineOf_append hbehind.le, lineOf_eq_add t.feed_notMem_closing hall, hstarts,
    List.length_append, List.length_singleton]
  omega

/-! ## Reading both spellings -/

/-- An empty element that may be written in either way behind the beginning of a document, which has
led to the given progress. -/
structure Interchangeable (before : List Char) (t : EmptyTag) (p : Progress) : Prop where
  /-- The element sets nothing that was set before. -/
  redundant : p.Redundant (p.path ++ [t.localName])
  /-- Before the element there is no text of a value. -/
  blank : Progress.readsText p.path = true → ∀ c ∈ p.text, Text.isBlank c = true
  /-- The line of a dependency right behind the element is counted in the same way. -/
  line : Marked before → t.inner.getLast? = some '\n' → p.path ≠ Progress.dependenciesPath

/-- The two spellings are read from what the beginning of the document has led to. -/
theorem readChars_spellings (hwhole : Whole before) (rest : List Char) :
    readChars (before ++ (t.short ++ rest)) = ((reached before).bind fun p =>
        (p.run (lineOf (lineStarts (before ++ (t.short ++ rest)))) (t.short ++ rest)).bind
          Progress.finish) ∧
      readChars (before ++ (t.long ++ rest)) = (reached before).bind fun p =>
        (p.run (lineOf (lineStarts (before ++ (t.long ++ rest)))) (t.long ++ rest)).bind
          Progress.finish :=
  ⟨readChars_append hwhole _, readChars_append hwhole _⟩

/-- Where the element begins, both texts have the same lines. -/
theorem lineOf_reached (hwhole : Whole before) {p : Progress} (hp : reached before = .ok p)
    (s s' : List Char) :
    lineOf (lineStarts (before ++ s)) p.position =
      lineOf (lineStarts (before ++ s')) p.position := by
  have hle : p.position ≤ byteLength before :=
    position_reached hwhole hp ▸ byteLength_withoutMark_le before
  rw [lineOf_append hle, lineOf_append hle]

/-- **Interchangeable spellings are read alike**, whatever follows. -/
theorem readChars_short_eq_long (hwhole : Whole before)
    (h : ∀ p, reached before = .ok p → Interchangeable before t p) (rest : List Char) :
    readChars (before ++ (t.short ++ rest)) = readChars (before ++ (t.long ++ rest)) := by
  obtain ⟨hshort, hlong⟩ := readChars_spellings (t := t) hwhole rest
  rw [hshort, hlong]
  generalize hline : lineOf (lineStarts (before ++ (t.short ++ rest))) = line
  generalize hline' : lineOf (lineStarts (before ++ (t.long ++ rest))) = line'
  cases hp : reached before with
  | error e => rfl
  | ok p =>
    obtain ⟨hredundant, hblank, hmark⟩ := h p hp
    have hconsistent := consistent_reached hwhole hp
    have hbehind : p.position + byteLength t.short = behind before t := by
      rw [position_reached hwhole hp, behind]
    have hhere : line' p.position = line p.position := by
      rw [← hline, ← hline']
      exact lineOf_reached hwhole hp _ _
    have hnext : p.path = Progress.dependenciesPath →
        line' (p.position + byteLength t.long) = line (p.position + byteLength t.short) := by
      intro hpath
      rw [t.byteLength_long, ← Nat.add_assoc, hbehind, ← hline, ← hline']
      exact lineOf_behind (fun hmarked hlast => hmark hmarked hlast hpath) rest
    have hfurther : ∀ position, p.position + byteLength t.short < position →
        line' (position + t.excess) = line position := by
      intro position hlt
      rw [← hline, ← hline']
      exact lineOf_behind_of_lt (hbehind ▸ hlt) rest
    show (p.run line (t.short ++ rest)).bind Progress.finish =
      (p.run line' (t.long ++ rest)).bind Progress.finish
    rw [Progress.run_short, Progress.run_long]
    cases hroot : p.root (Xml.localName t.name.characters) with
    | error e => rfl
    | ok p' =>
      rcases Progress.root_cases hroot with ⟨-, rfl⟩ | ⟨-, -, rfl⟩
      · exact Progress.finish_run_eq hfurther
          (Progress.abreast_after hconsistent t hredundant hblank hhere hnext) rest
      · let begun : Progress := { p with rooted := true }
        have hbegun : begun.Consistent := ⟨fun _ => rfl, hconsistent.pending⟩
        have hsame : begun.Redundant (p.path ++ [t.localName]) :=
          (Progress.redundant_congr rfl rfl _).2 hredundant
        exact Progress.finish_run_eq hfurther
          (Progress.abreast_after hbegun t hsame hblank hhere hnext) rest

/-! ## Telling the spellings apart -/

namespace Progress

variable {line line' : Nat → Nat} {p : Progress}

theorem opened_after (line : Nat → Nat) (p : Progress) (t : EmptyTag) :
    (p.afterShort line t).opened = p.opened ∧ (p.afterLong line t).opened = p.opened :=
  ⟨(noting_keeps line p t).2.1, rfl⟩

theorem consistent_after (hp : Consistent p) (hopened : p.opened ≠ []) :
    Consistent (p.afterShort line t) ∧ Consistent (p.afterLong line t) := by
  constructor
  · have hstep := step_short line p t
    rw [root_of_opened hopened] at hstep
    exact consistent_step hp hstep
  · have hsteps := step_long line p t
    rw [root_of_opened hopened] at hsteps
    cases hstart : p.step line ⟨.start t.name.characters, t.start⟩ with
    | error e =>
      rw [hstart] at hsteps
      cases hsteps
    | ok p' =>
      rw [hstart] at hsteps
      exact consistent_step (consistent_step hp hstart) hsteps

/-- Where children are looked at, an element that is closed alike in both spellings says nothing
new. -/
theorem redundant_of_closers_eq (hp : Consistent p) (hclosable : p.Closable)
    (hpath : p.path ∈ attentive)
    (h : ((p.afterShort line t).run line (closers p.opened)).bind finish =
      ((p.afterLong line' t).run line' (closers p.opened)).bind finish) :
    p.Redundant (p.path ++ [t.localName]) := by
  have hopened := opened_ne_nil_of_attentive hpath
  have hshort : (p.afterShort line t).opened = p.opened := (opened_after line p t).1
  have hlong : (p.afterLong line' t).opened = (p.afterShort line t).opened := hshort.symm
  have hnames : (p.afterShort line t).Closable := by rwa [Closable, hshort]
  rw [← hshort] at h
  obtain ⟨hdocument, hpending⟩ := eq_of_closers_eq (consistent_after hp hopened).1
    (consistent_after hp hopened).2 hlong hnames (path_congr hshort ▸ hpath) h
  exact redundant_of_harvest_inside hdocument hpending

/-- Where children are not looked at, nothing is made of an empty element but that its second
spelling cuts off the text before it. -/
theorem after_of_notMem (line : Nat → Nat) (hp : Consistent p) (hpath : p.path ∉ attentive) :
    p.afterShort line t =
        { p with text := p.text, position := p.position + byteLength t.short } ∧
      p.afterLong line t = { p with text := [], position := p.position + byteLength t.long } := by
  have hdeclares : ¬ p.declares (Xml.localName t.name.characters) = true := by
    intro h
    rw [path_of_declares h] at hpath
    exact absurd (by decide) hpath
  have hredundant : p.Redundant (p.path ++ [t.localName]) := by
    refine redundant_of_notMem ?_
    rwa [List.dropLast_concat]
  rw [afterShort, afterLong, harvest_inside hp hredundant, noting, if_neg hdeclares]
  exact ⟨rfl, rfl⟩

/-- In an element whose text is used, one that makes no difference has no text before it. -/
theorem blank_of_closers_eq (hp : Consistent p) (hclosable : p.Closable) {n : Xml.Name}
    {outer : List (List Char)} (hopened : p.opened = n.characters :: outer)
    (hread : readsText p.path = true)
    (h : ((p.afterShort line t).run line (n.stop ++ closers outer)).bind finish =
      ((p.afterLong line' t).run line' (n.stop ++ closers outer)).bind finish) :
    ∀ c ∈ p.text, Text.isBlank c = true := by
  rw [(after_of_notMem line hp (notMem_of_readsText hread)).1,
    (after_of_notMem line' hp (notMem_of_readsText hread)).2] at h
  generalize p.position + byteLength t.short = position at h
  generalize p.position + byteLength t.long = position' at h
  let short : Progress := { p with text := p.text, position := position }
  let cleared : Progress := { p with text := [] }
  let long : Progress := { cleared with text := [], position := position' }
  have hshort : Consistent short := ⟨hp.rooted, hp.pending⟩
  have hlong : Consistent long := ⟨hp.rooted, hp.pending⟩
  have hleft : (short.left n).opened = outer := congrArg List.tail hopened
  have hnames : (short.left n).Closable := by
    rw [Closable, hleft]
    exact fun name hname => hclosable name (by rw [hopened]; exact List.mem_cons_of_mem _ hname)
  have hpath : (short.left n).path ∈ attentive := by
    rw [path_left (p := short) hopened]
    exact dropLast_mem_of_readsText hread
  rw [run_closer (p := short) line hopened, run_closer (p := long) line' hopened, ← hleft] at h
  obtain ⟨hdocument, hpending⟩ := eq_of_closers_eq (consistent_left hshort hopened)
    (consistent_left hlong hopened) rfl hnames hpath h
  have hharvest : short.harvest = { p.harvest with text := p.text, position := position } :=
    p.harvest_with (fun _ => rfl) position
  have hharvest' : long.harvest = { cleared.harvest with text := [], position := position' } :=
    cleared.harvest_with (fun _ => rfl) position'
  rw [left, left, hharvest, hharvest'] at hdocument hpending
  exact blank_of_harvest_eq hp hread hdocument hpending

theorem isName_dependency :
    "dependency".toList ≠ [] ∧ "dependency".toList.all Xml.isTagCharacter = true := by decide

/-- An empty declaration of a dependency. -/
def declaration : EmptyTag := EmptyTag.bare "dependency" isName_dependency

theorem dependencies_declaration (line : Nat → Nat) (h : p.path = dependenciesPath) :
    (p.afterShort line declaration).document.dependencies =
      p.document.dependencies ++ [{ line := line p.position }] := by
  have hdeclares : p.declares (Xml.localName declaration.name.characters) = true := by
    rw [declares_iff, h]
    decide
  rw [afterShort, noting, if_pos hdeclares]

/-- A dependency right behind an element that makes no difference has the same line. -/
theorem line_eq_of_closers_eq (hp : Consistent p) (hclosable : p.Closable)
    (hpath : p.path = dependenciesPath)
    (h : ((p.afterShort line t).run line (declaration.short ++ closers p.opened)).bind finish =
      ((p.afterLong line' t).run line' (declaration.short ++ closers p.opened)).bind finish) :
    line (p.position + byteLength t.short) = line' (p.position + byteLength t.long) := by
  have hattentive : p.path ∈ attentive := by
    rw [hpath]
    decide
  have hopened := opened_ne_nil_of_attentive hattentive
  let short := p.afterShort line t
  let long := p.afterLong line' t
  have hshort : short.opened = p.opened := (opened_after line p t).1
  have hlong : long.opened = p.opened := (opened_after line' p t).2
  have hdeclared : (short.afterShort line declaration).opened = p.opened :=
    (opened_after line short declaration).1.trans hshort
  have hdeclared' : (long.afterShort line' declaration).opened = p.opened :=
    (opened_after line' long declaration).1.trans hlong
  have hconsistent : Consistent (short.afterShort line declaration) :=
    (consistent_after (consistent_after hp hopened).1 (hshort ▸ hopened)).1
  have hconsistent' : Consistent (long.afterShort line' declaration) :=
    (consistent_after (consistent_after hp hopened).2 (hlong ▸ hopened)).1
  have hnames : (short.afterShort line declaration).Closable := by rwa [Closable, hdeclared]
  rw [run_short, run_short, root_of_opened (hshort ▸ hopened), root_of_opened (hlong ▸ hopened),
    ← hdeclared] at h
  obtain ⟨hdocument, -⟩ := eq_of_closers_eq hconsistent hconsistent'
    (hdeclared'.trans hdeclared.symm) hnames (path_congr hdeclared ▸ hattentive) h
  have hdependencies := congrArg Document.dependencies hdocument
  rw [dependencies_declaration line ((path_congr hshort).trans hpath),
    dependencies_declaration line' ((path_congr hlong).trans hpath)] at hdependencies
  have hlast := (List.append_inj' hdependencies rfl).2
  exact congrArg Dependency.line (List.singleton_inj.1 hlast)

end Progress

/-- **Only interchangeable spellings are read alike**, if the elements that are open can be
closed. -/
theorem interchangeable_of_forall (hwhole : Whole before) {p : Progress}
    (hp : reached before = .ok p) (hclosable : p.Closable)
    (h : ∀ rest, readChars (before ++ (t.short ++ rest)) =
      readChars (before ++ (t.long ++ rest))) : Interchangeable before t p := by
  have hconsistent := consistent_reached hwhole hp
  by_cases hopened : p.opened = []
  · have hpath : p.path = [] := by
      rw [Progress.path, hopened]
      rfl
    refine ⟨Progress.redundant_of_notMem ?_, fun hread => ?_, fun _ _ => ?_⟩
    · rw [List.dropLast_concat, hpath]
      decide
    · rw [hpath] at hread
      cases hread
    · rw [hpath]
      decide
  have hafter : ∀ rest,
      ((p.afterShort (lineOf (lineStarts (before ++ (t.short ++ rest)))) t).run
          (lineOf (lineStarts (before ++ (t.short ++ rest)))) rest).bind Progress.finish =
        ((p.afterLong (lineOf (lineStarts (before ++ (t.long ++ rest)))) t).run
          (lineOf (lineStarts (before ++ (t.long ++ rest)))) rest).bind Progress.finish := by
    intro rest
    obtain ⟨hshort, hlong⟩ := readChars_spellings (t := t) hwhole rest
    have hrest := h rest
    rw [hshort, hlong, hp] at hrest
    change (p.run _ _).bind _ = (p.run _ _).bind _ at hrest
    rw [Progress.run_short, Progress.run_long, Progress.root_of_opened hopened] at hrest
    exact hrest
  refine ⟨?_, fun hread => ?_, fun hmarked hlast hpath => ?_⟩
  · by_cases hpath : p.path ∈ Progress.attentive
    · exact Progress.redundant_of_closers_eq hconsistent hclosable hpath (hafter _)
    · refine Progress.redundant_of_notMem ?_
      rwa [List.dropLast_concat]
  · obtain ⟨name, outer, hcons⟩ := List.exists_cons_of_ne_nil hopened
    obtain ⟨n, rfl⟩ := hclosable name (by rw [hcons]; exact List.mem_cons_self ..)
    exact Progress.blank_of_closers_eq hconsistent hclosable hcons hread (hafter _)
  · have hline := Progress.line_eq_of_closers_eq hconsistent hclosable hpath (hafter _)
    have hbehind : p.position + byteLength t.short = behind before t := by
      rw [position_reached hwhole hp, behind]
    rw [t.byteLength_long, ← Nat.add_assoc, hbehind] at hline
    exact absurd hline (lineOf_behind_lt hmarked hlast _ _).ne

/-! ## Documents -/

/-- **Where the spellings of an empty element are interchangeable, every document with one of them
is read like the one with the other**, and if the open elements can be closed, they are read alike
nowhere else. -/
theorem read_spellings {before : String} {t : EmptyTag} (hwhole : Whole before.toList) :
    ((∀ p, reached before.toList = .ok p → Interchangeable before.toList t p) →
      ∀ rest, read (before ++ String.ofList t.short ++ rest) =
        read (before ++ String.ofList t.long ++ rest)) ∧
    ∀ p, reached before.toList = .ok p → p.Closable →
      (∀ rest, read (before ++ String.ofList t.short ++ rest) =
        read (before ++ String.ofList t.long ++ rest)) → Interchangeable before.toList t p := by
  constructor
  · intro h rest
    rw [read_append, read_append]
    exact readChars_short_eq_long hwhole h rest.toList
  · intro p hp hclosable h
    refine interchangeable_of_forall hwhole hp hclosable fun rest => ?_
    have hrest := h (String.ofList rest)
    rwa [read_append, read_append, String.toList_ofList] at hrest

/-- A dependency without anything in it may be written in either way. -/
theorem read_spellings_of_declaration :
    Whole "<project><dependencies>".toList ∧
      (∃ p, reached "<project><dependencies>".toList = .ok p ∧ p.Closable ∧
        Interchangeable "<project><dependencies>".toList Progress.declaration p) ∧
      ∀ rest, read ("<project><dependencies>" ++ "<dependency/>" ++ rest) =
        read ("<project><dependencies>" ++ "<dependency></dependency>" ++ rest) := by
  let p : Progress :=
    { opened := ["dependencies".toList, "project".toList], rooted := true, position := 23 }
  let project : Xml.Lexeme := ⟨.start "project".toList, "<project>".toList⟩
  let dependencies : Xml.Lexeme := ⟨.start "dependencies".toList, "<dependencies>".toList⟩
  have hproject : Xml.next '<' "project><dependencies>".toList =
      .ok (project, "<dependencies>".toList) := rfl
  have hdependencies : Xml.next '<' "dependencies>".toList = .ok (dependencies, []) := rfl
  have hreads : Xml.Reads (withoutMark "<project><dependencies>".toList)
      [project, dependencies] [] := .cons hproject (.cons hdependencies (.nil []))
  have hreached : reached "<project><dependencies>".toList = .ok p := reached_of_reads hreads
  have hclosable : p.Closable := Progress.closable_of_all (by decide)
  have hsame : Interchangeable "<project><dependencies>".toList Progress.declaration p :=
    ⟨trivial, fun hread => absurd hread (by decide),
      fun hmarked => absurd (Option.some.inj hmarked) (show '<' ≠ '\uFEFF' by decide)⟩
  refine ⟨⟨_, hreads⟩, ⟨p, hreached, hclosable, hsame⟩, ?_⟩
  refine (read_spellings (t := Progress.declaration) ⟨_, hreads⟩).1 fun p' hp' => ?_
  obtain rfl : p = p' := Except.ok.inj (hreached.symm.trans hp')
  exact hsame

/-- A property without a value is missing if it is written as one tag. -/
theorem read_spellings_of_property :
    read "<project><properties><a/></properties></project>" = .ok {} ∧
      read "<project><properties><a></a></properties></project>" =
        .ok { properties := Table.ofList Prod.fst [("a", "")] } := by
  decide +kernel

end Vendoring.Pom
