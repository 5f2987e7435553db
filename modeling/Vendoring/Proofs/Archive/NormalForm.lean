import Vendoring.Proofs.Archive.Merged

/-!
# The normal form of service descriptors

A descriptor may be written in many ways, but what it says are its lines, and there is one text that
has nothing but them with an end behind each.  This text says what the descriptor says
(`textLines_normal`).  To add the providers of another descriptor is to write such a text
(`withLines_addProviders`), and providers that it names already change nothing of it
(`addProviders_eq_self`).

The main result is `descriptors_normalized`.
-/

namespace Vendoring.Archive

variable {e incoming : ArchiveEntry}

/-- The text that ends each line of a descriptor says what the descriptor says. -/
theorem textLines_normal (e : ArchiveEntry) : (e.withLines e.textLines).textLines = e.textLines :=
  ArchiveEntry.textLines_withLines_iff.2 fun _ hline => ArchiveEntry.isLine_of_mem_textLines hline

theorem addLines_eq_self_iff {lines incoming : List String} :
    addLines lines incoming = lines ↔ incoming ⊆ lines := by
  constructor
  · intro h line hline
    rw [← h, mem_addLines_iff]
    exact .inr hline
  · intro h
    have hnone : incoming.filter (· ∉ lines) = [] := by
      rw [List.filter_eq_nil_iff]
      intro line hline
      simpa using h hline
    rw [addLines_eq, hnone, List.eraseDups_nil, List.append_nil]

/-- Providers that are there already are added without effect to a descriptor in normal form. -/
theorem addProviders_eq_self (hnormal : e.withLines e.textLines = e)
    (h : incoming.textLines ⊆ e.textLines) : addProviders e incoming = e := by
  rw [addProviders, addLines_eq_self_iff.2 h, hnormal]

/-- Behind an addition a descriptor is in normal form. -/
theorem withLines_addProviders (e incoming : ArchiveEntry) :
    (addProviders e incoming).withLines (addProviders e incoming).textLines =
      addProviders e incoming := by
  rw [textLines_addProviders]
  rfl

/-- **Descriptors have a normal form.**  Whatever the bytes of an entry are, each of its lines says
something, has no blanks around it and neither a comment nor a line feed in it, and the text that
ends each of these lines with a line feed has the same lines.  So the providers of another
descriptor are added behind the lines of the first one: those that it lacks, each once and where it
comes first.  To add them again changes nothing, not even how the descriptor is written. -/
theorem descriptors_normalized (e incoming : ArchiveEntry) :
    ((∀ line ∈ e.textLines,
        line ≠ "" ∧ Text.trim line = line ∧ '#' ∉ line.toList ∧ '\n' ∉ line.toList) ∧
      ({ e with contents := ("\n".intercalate e.textLines ++ "\n").toUTF8 } :
        ArchiveEntry).textLines =
        e.textLines) ∧
    (addProviders e incoming).textLines =
        e.textLines ++ (incoming.textLines.filter (· ∉ e.textLines)).eraseDups ∧
      addProviders (addProviders e incoming) incoming = addProviders e incoming := by
  refine ⟨⟨fun line hline => ?_, textLines_normal e⟩, ?_, ?_⟩
  · obtain ⟨hne, htrimmed, hfeed, hcomment⟩ := ArchiveEntry.isLine_of_mem_textLines hline
    refine ⟨fun hempty => hne (by rw [hempty]; rfl), ?_, hcomment, hfeed⟩
    rw [Text.trim, Text.trimChars_eq_self htrimmed, String.ofList_toList]
  · rw [textLines_addProviders, addLines_eq]
  · refine addProviders_eq_self (withLines_addProviders e incoming) fun line hline => ?_
    rw [textLines_addProviders, mem_addLines_iff]
    exact .inr hline

end Vendoring.Archive
