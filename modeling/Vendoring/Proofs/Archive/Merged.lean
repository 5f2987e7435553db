import Vendoring.Proofs.Archive.Provenance
import Vendoring.Proofs.Repetitions

/-!
# What a merged archive holds

The project's entries and those of its dependencies are candidates for their paths
(`candidates`): of the project's own the last at a path, and behind it those of the dependencies in
their order.  The first candidate is the one that an archive holds, and if it is a service
descriptor, the others add their lines to it (`get?_merge`).  From this follows what holds at each
path of a merged archive (`merge_by_precedence`).
-/

namespace Vendoring

/-- The entries of a dependency that are of use in another archive: all but signature files and the
manifest. -/
def ResolvedArtifact.offered (artifact : ResolvedArtifact) : List ArchiveEntry :=
  artifact.entries.filter (!·.isBound)

theorem ResolvedArtifact.mem_offered_iff {artifact : ResolvedArtifact} {e : ArchiveEntry} :
    e ∈ artifact.offered ↔ e ∈ artifact.entries ∧ e.isSignature = false ∧ e.isManifest = false := by
  simp [offered, ArchiveEntry.isBound]

namespace ArchiveEntry

variable {e e' : ArchiveEntry}

/-- The path alone says whether an entry is a service descriptor. -/
theorem serviceName?_congr (h : e.path = e'.path) : e.serviceName? = e'.serviceName? := by
  simp [serviceName?, h]

/-- A service descriptor is of use in any archive. -/
theorem isBound_of_serviceName? (h : e.serviceName?.isSome = true) : e.isBound = false := by
  obtain ⟨service, hservice⟩ := Option.isSome_iff_exists.1 h
  obtain ⟨hpath, -, -⟩ := serviceName?_eq_some_iff.1 hservice
  have hmeta : after? metaDirectory e.path = some ("services/" ++ service) := by
    rw [hpath, after?_metaDirectory_service]
  have hslash : '/' ∈ ("services/" ++ service).toList := by
    rw [String.toList_append]
    exact List.mem_append_left _ (by decide)
  rw [isBound, Bool.or_eq_false_iff]
  constructor
  · have hcontains : ("services/" ++ service).toList.contains '/' = true :=
      List.contains_iff_mem.2 hslash
    rw [isSignature, hmeta]
    simp only [hcontains, Bool.not_true, Bool.false_and]
  · rw [isManifest, decide_eq_false_iff_not]
    intro hmanifest
    have hnone : after? servicesDirectory "META-INF/MANIFEST.MF" = none := by decide
    rw [← after?_eq_some_iff, hmanifest, hnone] at hpath
    cases hpath

end ArchiveEntry

namespace MergedEntry

variable {m other : MergedEntry}

/-- An entry to which another one at its path is added: a service descriptor gets the lines that it
lacks, and any other entry stays as it is. -/
def join (m other : MergedEntry) : MergedEntry :=
  if other.entry.serviceName?.isSome then
    { m with entry := Archive.addProviders m.entry other.entry }
  else m

@[simp] theorem path_join (m other : MergedEntry) : (m.join other).path = m.path := by
  rw [join]
  split <;> rfl

@[simp] theorem origin_join (m other : MergedEntry) : (m.join other).origin = m.origin := by
  rw [join]
  split <;> rfl

/-- What descends from an entry still does so when another one at its path is added to it. -/
theorem descendsFrom_join {e : ArchiveEntry} (h : m.entry.DescendsFrom [] e)
    (hpath : other.path = m.path) : (m.join other).entry.DescendsFrom [] e := by
  rw [join]
  split
  · next hservice =>
    exact h.withLines (ArchiveEntry.serviceName?_congr hpath ▸ hservice) _
  · exact h

end MergedEntry

namespace Archive

variable {project : List ArchiveEntry} {dependencies : List ResolvedArtifact} {path : String}

/-! ## Lines of several descriptors -/

/-- The lines that are added come behind the others, each where it comes first. -/
theorem addLines_eq (lines incoming : List String) :
    addLines lines incoming = lines ++ (incoming.filter (· ∉ lines)).eraseDups :=
  foldl_append_new lines incoming

theorem mem_addLines_iff {lines incoming : List String} {line : String} :
    line ∈ addLines lines incoming ↔ line ∈ lines ∨ line ∈ incoming := by
  rw [addLines_eq, List.mem_append, List.mem_eraseDups, List.mem_filter]
  by_cases hline : line ∈ lines <;> simp [hline]

/-- The lines of a descriptor with those of another one added. -/
theorem textLines_addProviders (e incoming : ArchiveEntry) :
    (addProviders e incoming).textLines = addLines e.textLines incoming.textLines := by
  rw [addProviders]
  refine ArchiveEntry.textLines_withLines e fun line hline => ?_
  rcases mem_addLines_iff.1 hline with h | h
  · exact ArchiveEntry.isLine_of_mem_textLines h
  · exact ArchiveEntry.isLine_of_mem_textLines h

/-! ## Joining candidates -/

/-- What becomes of the candidates for a path: the first one stays, and the others are added to
it. -/
def joined : List MergedEntry → Option MergedEntry
  | [] => none
  | first :: rest => some (rest.foldl MergedEntry.join first)

theorem origin_foldl_join (first : MergedEntry) (rest : List MergedEntry) :
    (rest.foldl MergedEntry.join first).origin = first.origin := by
  induction rest generalizing first with
  | nil => rfl
  | cons m rest ih => rw [List.foldl_cons, ih, MergedEntry.origin_join]

theorem descendsFrom_foldl_join {e : ArchiveEntry} {first : MergedEntry} {rest : List MergedEntry}
    (h : first.entry.DescendsFrom [] e) (hpath : ∀ m ∈ rest, m.path = first.path) :
    (rest.foldl MergedEntry.join first).entry.DescendsFrom [] e := by
  induction rest generalizing first with
  | nil => exact h
  | cons m rest ih =>
    refine ih (MergedEntry.descendsFrom_join h (hpath m (List.mem_cons_self ..))) fun m' hm' => ?_
    rw [MergedEntry.path_join]
    exact hpath m' (List.mem_cons_of_mem _ hm')

/-- What is joined by entries that are no descriptors stays as it is. -/
theorem foldl_join_eq_self {first : MergedEntry} {rest : List MergedEntry}
    (h : ∀ m ∈ rest, m.entry.serviceName? = none) : rest.foldl MergedEntry.join first = first := by
  induction rest with
  | nil => rfl
  | cons m rest ih =>
    have hjoin : first.join m = first := by
      rw [MergedEntry.join, h m (List.mem_cons_self ..)]
      rfl
    rw [List.foldl_cons, hjoin, ih fun m' hm' => h m' (List.mem_cons_of_mem _ hm')]

/-- To add lines and then more of them is to add them all. -/
theorem addLines_addLines (lines incoming more : List String) :
    addLines (addLines lines incoming) more = addLines lines (incoming ++ more) :=
  List.foldl_append.symm

/-- Joined descriptors list what the first one lists, and what the others add to it. -/
theorem textLines_foldl_join {first : MergedEntry} {rest : List MergedEntry}
    (hservice : ∀ m ∈ rest, m.entry.serviceName?.isSome = true) :
    (rest.foldl MergedEntry.join first).entry.textLines =
      addLines first.entry.textLines (rest.flatMap (·.entry.textLines)) := by
  induction rest generalizing first with
  | nil => rfl
  | cons m rest ih =>
    have hjoin : (first.join m).entry = addProviders first.entry m.entry := by
      rw [MergedEntry.join, if_pos (hservice m (List.mem_cons_self ..))]
    rw [List.foldl_cons, ih fun m' hm' => hservice m' (List.mem_cons_of_mem _ hm'), hjoin,
      textLines_addProviders, addLines_addLines, List.flatMap_cons]

/-- Joined descriptors list what any of them lists. -/
theorem mem_textLines_foldl_join_iff {first : MergedEntry} {rest : List MergedEntry} {line : String}
    (hservice : ∀ m ∈ rest, m.entry.serviceName?.isSome = true) :
    line ∈ (rest.foldl MergedEntry.join first).entry.textLines ↔
      ∃ m ∈ first :: rest, line ∈ m.entry.textLines := by
  rw [textLines_foldl_join hservice, mem_addLines_iff, List.mem_flatMap, List.exists_mem_cons_iff]

/-! ## Candidates -/

/-- What dependencies offer, in their order. -/
def offers (dependencies : List ResolvedArtifact) : List MergedEntry :=
  dependencies.flatMap fun artifact =>
    artifact.offered.map fun e => ⟨e, .dependency artifact.coordinate⟩

/-- The project's own entry that counts at a path, which is the last one. -/
def ownAt (project : List ArchiveEntry) (path : String) : Option ArchiveEntry :=
  (project.filter (·.path = path)).getLast?

/-- The entries that come into question for a path, in the order of their precedence. -/
def candidates (project : List ArchiveEntry) (dependencies : List ResolvedArtifact)
    (path : String) : List MergedEntry :=
  ((ownAt project path).map fun e => ⟨e, .project⟩).toList ++
    (offers dependencies).filter (·.path = path)

/-- What is at a path when an entry is added to what was there. -/
def joinAt (found : Option MergedEntry) (m : MergedEntry) : MergedEntry :=
  (found.map (·.join m)).getD m

/-- Adds an entry that is offered to an archive. -/
def addOffer (a : Archive) (m : MergedEntry) : Archive := a.insert (joinAt (a.get? m.path) m)

theorem get?_addOffer (a : Archive) (m : MergedEntry) (path : String) :
    (addOffer a m).get? path =
      if m.path = path then some (joinAt (a.get? path) m) else a.get? path := by
  have hkey : (joinAt (a.get? m.path) m).path = m.path := by
    cases hget : a.get? m.path with
    | none => rfl
    | some existing =>
      exact (MergedEntry.path_join existing m).trans (Table.get?_eq_some_iff.1 hget).2
  rw [addOffer, Table.get?_insert, hkey]
  by_cases hpath : m.path = path <;> simp [hpath]

theorem mergeEntry_eq (coordinate : Coordinate) (a : Archive) (e : ArchiveEntry) :
    mergeEntry coordinate a e =
      if e.isBound then a else addOffer a ⟨e, .dependency coordinate⟩ := by
  rw [mergeEntry]
  split
  · rfl
  · have hpath : (⟨e, .dependency coordinate⟩ : MergedEntry).path = e.path := rfl
    rw [addOffer, hpath, joinAt]
    cases hget : a.get? e.path with
    | none => rfl
    | some existing =>
      simp only [Option.map_some, Option.getD_some, MergedEntry.join]
      split
      · rfl
      · refine (Table.insert_eq_self_iff.2 ?_).symm
        rw [(Table.get?_eq_some_iff.1 hget).2]
        exact hget

/-- To merge is to add what the dependencies offer to the project's own entries. -/
theorem merge_eq_foldl_addOffer (project : List ArchiveEntry)
    (dependencies : List ResolvedArtifact) :
    merge project dependencies = (offers dependencies).foldl addOffer (ofProject project) := by
  have hartifact : ∀ (a : Archive) (artifact : ResolvedArtifact), mergeArtifact a artifact =
      (artifact.offered.map fun e => ⟨e, .dependency artifact.coordinate⟩).foldl addOffer a := by
    intro a artifact
    rw [mergeArtifact, List.foldl_map, ResolvedArtifact.offered, List.foldl_filter]
    refine congrArg (fun step => List.foldl step a artifact.entries) ?_
    funext a e
    rw [mergeEntry_eq]
    cases e.isBound <;> rfl
  rw [merge, offers, List.foldl_flatMap]
  exact congrArg (fun step => List.foldl step (ofProject project) dependencies)
    (funext fun a => funext fun artifact => hartifact a artifact)

/-- At a path of its own entries an archive holds the last of them. -/
theorem get?_ofProject (project : List ArchiveEntry) (path : String) :
    (ofProject project).get? path = (ownAt project path).map fun e => ⟨e, .project⟩ := by
  rw [ofProject, Table.get?_ofList, List.filter_map, List.getLast?_map]
  rfl

/-- To add one entry after the other at a path is to join them. -/
theorem foldl_joinAt (found : Option MergedEntry) (ms : List MergedEntry) :
    ms.foldl (fun found m => some (joinAt found m)) found = joined (found.toList ++ ms) := by
  have hsome : ∀ (ms : List MergedEntry) (first : MergedEntry),
      ms.foldl (fun found m => some (joinAt found m)) (some first) =
        some (ms.foldl MergedEntry.join first) := by
    intro ms
    induction ms with
    | nil => exact fun _ => rfl
    | cons m ms ih => exact fun first => ih (first.join m)
  cases found with
  | some first => exact hsome ms first
  | none =>
    cases ms with
    | nil => rfl
    | cons m ms => exact hsome ms m

/-- **What a merged archive holds at a path**: its candidates, joined. -/
theorem get?_merge (project : List ArchiveEntry) (dependencies : List ResolvedArtifact)
    (path : String) :
    (merge project dependencies).get? path = joined (candidates project dependencies path) := by
  have hfold : ((offers dependencies).foldl addOffer (ofProject project)).get? path =
      ((offers dependencies).filter (·.path = path)).foldl (fun found m => some (joinAt found m))
        ((ofProject project).get? path) := by
    refine get_foldl_eq_foldl_filter (fun a : Archive => a.get? path) (fun a m => ?_)
      (offers dependencies) (ofProject project)
    simp only [get?_addOffer, decide_eq_true_eq]
  rw [merge_eq_foldl_addOffer, hfold, foldl_joinAt, get?_ofProject]
  rfl

/-- An entry of a merged archive is the first candidate for its path with the others added. -/
theorem get?_merge_eq_some_iff {m : MergedEntry} :
    (merge project dependencies).get? path = some m ↔
      ∃ first rest, candidates project dependencies path = first :: rest ∧
        rest.foldl MergedEntry.join first = m := by
  rw [get?_merge]
  cases candidates project dependencies path with
  | nil => simp [joined]
  | cons first rest => simp [joined]

/-- An archive holds something at a path if there is a candidate for it. -/
theorem contains_merge_iff :
    (merge project dependencies).contains path = true ↔
      candidates project dependencies path ≠ [] := by
  rw [Table.contains_eq_isSome_get?, get?_merge]
  cases candidates project dependencies path with
  | nil => simp [joined]
  | cons first rest => simp [joined]

/-! ## The law of precedence -/

variable {m first : MergedEntry} {rest : List MergedEntry} {e : ArchiveEntry}

theorem mem_offers_iff :
    m ∈ offers dependencies ↔ ∃ artifact ∈ dependencies, ∃ e ∈ artifact.offered,
      m = ⟨e, .dependency artifact.coordinate⟩ := by
  simp [offers, eq_comm]

/-- What dependencies offer first at a path is what the first of them that offers something there
does. -/
theorem find?_offers_eq_some_iff :
    (offers dependencies).find? (·.path = path) = some m ↔
      ∃ earlier artifact later e, dependencies = earlier ++ artifact :: later ∧
        (∀ other ∈ earlier, ∀ e' ∈ other.offered, e'.path ≠ path) ∧
        artifact.offered.find? (·.path = path) = some e ∧
        m = ⟨e, .dependency artifact.coordinate⟩ := by
  have hpart : ∀ artifact : ResolvedArtifact,
      (artifact.offered.map fun e => (⟨e, .dependency artifact.coordinate⟩ : MergedEntry)).find?
          (·.path = path) =
        (artifact.offered.find? (·.path = path)).map fun e =>
          ⟨e, .dependency artifact.coordinate⟩ := by
    intro artifact
    rw [List.find?_map]
    rfl
  rw [offers, List.find?_flatMap, List.findSome?_eq_some_iff]
  simp only [hpart, Option.map_eq_some_iff, Option.map_eq_none_iff, List.find?_eq_none,
    decide_eq_true_eq]
  constructor
  · rintro ⟨earlier, artifact, later, hsplit, ⟨e, he, rfl⟩, hearlier⟩
    exact ⟨earlier, artifact, later, e, hsplit, hearlier, he, rfl⟩
  · rintro ⟨earlier, artifact, later, e, hsplit, hearlier, he, rfl⟩
    exact ⟨earlier, artifact, later, hsplit, ⟨e, he, rfl⟩, hearlier⟩

theorem ownAt_eq_none_iff : ownAt project path = none ↔ ∀ e ∈ project, e.path ≠ path := by
  simp [ownAt]

theorem isSome_ownAt_iff :
    (ownAt project path).isSome = true ↔ ∃ e ∈ project, e.path = path := by
  rw [← Option.ne_none_iff_isSome, Ne, ownAt_eq_none_iff]
  simp

theorem path_of_ownAt (h : ownAt project path = some e) : e.path = path := by
  have hmem := List.mem_of_getLast? h
  simpa using (List.mem_filter.1 hmem).2

theorem candidates_of_own (h : ownAt project path = some e) :
    candidates project dependencies path =
      ⟨e, .project⟩ :: (offers dependencies).filter (·.path = path) := by
  rw [candidates, h]
  rfl

theorem candidates_of_not_own (h : ownAt project path = none) :
    candidates project dependencies path = (offers dependencies).filter (·.path = path) := by
  rw [candidates, h]
  rfl

theorem mem_candidates_iff :
    m ∈ candidates project dependencies path ↔
      (∃ e, ownAt project path = some e ∧ m = ⟨e, .project⟩) ∨
        ∃ artifact ∈ dependencies, ∃ e ∈ artifact.offered,
          e.path = path ∧ m = ⟨e, .dependency artifact.coordinate⟩ := by
  have hoffered : m ∈ (offers dependencies).filter (·.path = path) ↔
      ∃ artifact ∈ dependencies, ∃ e ∈ artifact.offered,
        e.path = path ∧ m = ⟨e, .dependency artifact.coordinate⟩ := by
    rw [List.mem_filter, mem_offers_iff, decide_eq_true_eq]
    constructor
    · rintro ⟨⟨artifact, hartifact, e, he, rfl⟩, hpath⟩
      exact ⟨artifact, hartifact, e, he, hpath, rfl⟩
    · rintro ⟨artifact, hartifact, e, he, hpath, rfl⟩
      exact ⟨⟨artifact, hartifact, e, he, rfl⟩, hpath⟩
  rw [candidates, List.mem_append, hoffered, Option.mem_toList, Option.map_eq_some_iff]
  simp only [eq_comm]

theorem path_of_mem_candidates (h : m ∈ candidates project dependencies path) :
    m.path = path := by
  rcases mem_candidates_iff.1 h with ⟨e, he, rfl⟩ | ⟨artifact, -, e, -, hpath, rfl⟩
  · exact path_of_ownAt he
  · exact hpath

/-- A path has a candidate if the project or a dependency provides it. -/
theorem candidates_ne_nil_iff :
    candidates project dependencies path ≠ [] ↔
      (∃ e ∈ project, e.path = path) ∨
        ∃ artifact ∈ dependencies, ∃ e ∈ artifact.offered, e.path = path := by
  rw [← isSome_ownAt_iff, Option.isSome_iff_exists]
  constructor
  · intro hne
    obtain ⟨m, hm⟩ := List.exists_mem_of_ne_nil _ hne
    rcases mem_candidates_iff.1 hm with ⟨e, he, -⟩ | ⟨artifact, hartifact, e, he, hpath, -⟩
    · exact .inl ⟨e, he⟩
    · exact .inr ⟨artifact, hartifact, e, he, hpath⟩
  · rintro (⟨e, he⟩ | ⟨artifact, hartifact, e, he, hpath⟩)
    · exact List.ne_nil_of_mem (mem_candidates_iff.2 (.inl ⟨e, he, rfl⟩))
    · exact List.ne_nil_of_mem
        (mem_candidates_iff.2 (.inr ⟨artifact, hartifact, e, he, hpath, rfl⟩))

/-- The entry at a path has the origin of the first candidate and descends from it. -/
theorem descendsFrom_of_candidates (hm : (merge project dependencies).get? path = some m)
    (h : candidates project dependencies path = first :: rest) :
    m.origin = first.origin ∧ m.entry.DescendsFrom [] first.entry := by
  obtain ⟨first', rest', hcandidates, rfl⟩ := get?_merge_eq_some_iff.1 hm
  obtain ⟨rfl, rfl⟩ := List.cons.inj (h.symm.trans hcandidates)
  have hpath : ∀ c ∈ first :: rest, c.path = path := fun c hc =>
    path_of_mem_candidates (h ▸ hc)
  refine ⟨origin_foldl_join first rest,
    descendsFrom_foldl_join first.entry.descendsFrom_refl fun c hc => ?_⟩
  rw [hpath c (List.mem_cons_of_mem _ hc), hpath first (List.mem_cons_self ..)]

/-- Where the project has an entry, the last of its entries stays. -/
theorem merge_of_own (hm : (merge project dependencies).get? path = some m)
    (h : ownAt project path = some e) :
    m.origin = .project ∧ m.entry.DescendsFrom [] e :=
  descendsFrom_of_candidates hm (candidates_of_own h)

/-- Where the project has no entry, the first that a dependency offers stays. -/
theorem merge_of_not_own (hm : (merge project dependencies).get? path = some m)
    (h : ownAt project path = none) :
    ∃ earlier artifact later e, dependencies = earlier ++ artifact :: later ∧
      (∀ other ∈ earlier, ∀ e' ∈ other.offered, e'.path ≠ path) ∧
      artifact.offered.find? (·.path = path) = some e ∧
      m.origin = .dependency artifact.coordinate ∧ m.entry.DescendsFrom [] e := by
  obtain ⟨first, rest, hcandidates, -⟩ := get?_merge_eq_some_iff.1 hm
  have hfirst : (offers dependencies).find? (·.path = path) = some first := by
    rw [← List.head?_filter, ← candidates_of_not_own h, hcandidates]
    rfl
  obtain ⟨earlier, artifact, later, e, hsplit, hearlier, he, rfl⟩ :=
    find?_offers_eq_some_iff.1 hfirst
  exact ⟨earlier, artifact, later, e, hsplit, hearlier, he,
    descendsFrom_of_candidates hm hcandidates⟩

/-- The project's own paths are those where an entry of its own stays. -/
theorem origin_merge_iff (hm : (merge project dependencies).get? path = some m) :
    m.origin = .project ↔ ∃ e ∈ project, e.path = path := by
  rw [← isSome_ownAt_iff]
  cases hown : ownAt project path with
  | some e => simp [(merge_of_own hm hown).1]
  | none =>
    obtain ⟨-, artifact, -, -, -, -, -, horigin, -⟩ := merge_of_not_own hm hown
    simp [horigin]

/-- A service descriptor lists what the descriptors of the project and of the dependencies list. -/
theorem mem_textLines_merge_iff {line : String}
    (hm : (merge project dependencies).get? path = some m)
    (hservice : m.entry.serviceName?.isSome = true) :
    line ∈ m.entry.textLines ↔
      (∃ e, ownAt project path = some e ∧ line ∈ e.textLines) ∨
        ∃ artifact ∈ dependencies, ∃ e ∈ artifact.entries,
          e.path = path ∧ line ∈ e.textLines := by
  have hpath := (Table.get?_eq_some_iff.1 hm).2
  -- all candidates are descriptors of one service, since they have one path
  have hservices : ∀ e : ArchiveEntry, e.path = path → e.serviceName?.isSome = true :=
    fun e he => ArchiveEntry.serviceName?_congr (he.trans hpath.symm) ▸ hservice
  obtain ⟨first, rest, hcandidates, rfl⟩ := get?_merge_eq_some_iff.1 hm
  have hrest : ∀ c ∈ rest, c.entry.serviceName?.isSome = true := fun c hc =>
    hservices c.entry (path_of_mem_candidates (hcandidates ▸ List.mem_cons_of_mem _ hc))
  rw [mem_textLines_foldl_join_iff hrest, ← hcandidates]
  simp only [mem_candidates_iff]
  constructor
  · rintro ⟨-, ⟨e, he, rfl⟩ | ⟨artifact, hartifact, e, he, hpath, rfl⟩, hline⟩
    · exact .inl ⟨e, he, hline⟩
    · exact .inr ⟨artifact, hartifact, e, (List.mem_filter.1 he).1, hpath, hline⟩
  · rintro (⟨e, he, hline⟩ | ⟨artifact, hartifact, e, he, hpath, hline⟩)
    · exact ⟨_, .inl ⟨e, he, rfl⟩, hline⟩
    · have hoffered : e ∈ artifact.offered := by
        refine List.mem_filter.2 ⟨he, ?_⟩
        rw [ArchiveEntry.isBound_of_serviceName? (hservices e hpath)]
        rfl
      exact ⟨_, .inr ⟨artifact, hartifact, e, hoffered, hpath, rfl⟩, hline⟩

/-- What stays of a dependency is neither a signature file nor a manifest. -/
theorem isBound_of_merge (hm : (merge project dependencies).get? path = some m)
    (horigin : m.origin ≠ .project) :
    m.entry.isSignature = false ∧ m.entry.isManifest = false := by
  obtain ⟨e, hsupplied, hdescends⟩ :=
    comesFrom_merge project dependencies m (Table.get?_eq_some_iff.1 hm).1
  have hpath : m.entry.path = e.path := by simpa using hdescends.path
  generalize hfrom : m.origin = origin at hsupplied
  cases hsupplied with
  | own => exact absurd hfrom horigin
  | vendored _ _ hsignature hmanifest =>
    simp only [ArchiveEntry.isSignature, ArchiveEntry.isManifest, hpath] at hsignature hmanifest ⊢
    exact ⟨hsignature, hmanifest⟩

/-- **The law of precedence.**  An archive has the paths of the project's entries and those that
dependencies offer.  The entry at a path is the last of the project's own if there is one, and
otherwise the first that the first dependency offers there; nothing that is bound to the archive
of a dependency stays.  Only the contents of a service descriptor change: it lists what all the
descriptors at its path list. -/
theorem merge_by_precedence (project : List ArchiveEntry)
    (dependencies : List ResolvedArtifact) :
    (∀ path, (merge project dependencies).contains path = true ↔
      (∃ e ∈ project, e.path = path) ∨
        ∃ artifact ∈ dependencies, ∃ e ∈ artifact.entries,
          (e.isSignature = false ∧ e.isManifest = false) ∧ e.path = path) ∧
    ∀ path m, (merge project dependencies).get? path = some m →
      m.path = path ∧
      (m.origin = .project ↔ ∃ e ∈ project, e.path = path) ∧
      (∀ e, ownAt project path = some e →
        m.entry.references = e.references ∧
          (e.serviceName? = none → m.entry.contents = e.contents)) ∧
      ((∀ e ∈ project, e.path ≠ path) →
        ∃ earlier artifact later e, dependencies = earlier ++ artifact :: later ∧
          (∀ other ∈ earlier, ∀ e' ∈ other.offered, e'.path ≠ path) ∧
          artifact.offered.find? (·.path = path) = some e ∧
          m.origin = .dependency artifact.coordinate ∧
          m.entry.references = e.references ∧
          (e.serviceName? = none → m.entry.contents = e.contents)) ∧
      (m.origin ≠ .project → m.entry.isSignature = false ∧ m.entry.isManifest = false) ∧
      (m.entry.serviceName?.isSome = true → ∀ line, line ∈ m.entry.textLines ↔
        (∃ e, ownAt project path = some e ∧ line ∈ e.textLines) ∨
          ∃ artifact ∈ dependencies, ∃ e ∈ artifact.entries,
            e.path = path ∧ line ∈ e.textLines) := by
  have hreferences : ∀ {e' e : ArchiveEntry}, e'.DescendsFrom [] e →
      e'.references = e.references :=
    fun {_ e} h => h.references.trans e.descendsFrom_refl.references.symm
  refine ⟨fun path => ?_, fun path m hm => ⟨?_, ?_, ?_, ?_, ?_, ?_⟩⟩
  · rw [contains_merge_iff, candidates_ne_nil_iff]
    simp only [ResolvedArtifact.mem_offered_iff, and_assoc]
  · exact (Table.get?_eq_some_iff.1 hm).2
  · exact origin_merge_iff hm
  · intro e he
    have hdescends := (merge_of_own hm he).2
    exact ⟨hreferences hdescends, hdescends.contents⟩
  · intro hnone
    obtain ⟨earlier, artifact, later, e, hsplit, hearlier, he, horigin, hdescends⟩ :=
      merge_of_not_own hm (ownAt_eq_none_iff.2 hnone)
    exact ⟨earlier, artifact, later, e, hsplit, hearlier, he, horigin, hreferences hdescends,
      hdescends.contents⟩
  · exact isBound_of_merge hm
  · exact fun hservice line => mem_textLines_merge_iff hm hservice

end Archive

end Vendoring
