import Vendoring.Json.Records
import Vendoring.Proofs.Json.Decoded
import Vendoring.Proofs.Json.Spelling
import Vendoring.Proofs.Table

/-!
# Records that were written

Each record is decoded field by field from what was written, and what is read back of a field is
what the record had there.  In the settings for vendored dependencies only the dependencies may be
lost, and so they decide what is decoded (`ShadeSettings.decode_reading`).

Other records are read back as they were (`decode_undoes_writing`), but for two that do not write
everything they hold: an archive entry is read back without its contents, and a configuration name
of one's own that is spelt like one of the build's as the build's name.
-/

namespace Vendoring

open Json (ReadsBack decodeCoordinate decodeList decodeString reading)

/-! ## What is read of a record -/

/-- Relocation rules are read back. -/
theorem RelocationRule.readsBack : ReadsBack decode toJson :=
  Json.readsBack_record "RelocationRule" fields
    (fun r : RelocationRule => [.string r.pattern, .string r.destination])
    (fun _ => rfl) (by decide) fun r => by simp [fields]

theorem SigningCredential.readsBack : ReadsBack decode toJson :=
  Json.readsBack_record "SigningCredential" fields (fun c : SigningCredential => [.string c.keyId])
    (fun _ => rfl) (by decide) fun c => by simp [fields]

theorem ClassifierPolicy.readsBack : ReadsBack decode toJson :=
  Json.readsBack_record "ClassifierPolicy" fields
    (fun p : ClassifierPolicy => [.string p.shaded, .string p.thin])
    (fun _ => rfl) (by decide) fun p => by simp [fields]

theorem ArtifactSettings.readsBack : ReadsBack decode toJson :=
  Json.readsBack_record "ArtifactSettings" fields
    (fun s : ArtifactSettings => [.string s.baseName, .string s.version])
    (fun _ => rfl) (by decide) fun s => by simp [fields]

/-- Conventions are read back; their numbers have 32 bits. -/
theorem Conventions.readsBack : ReadsBack decode toJson :=
  Json.readsBack_record "SubprojectConventions" fields
    (fun c : Conventions => [.string c.name, .string c.vendorDir, .string c.group,
      .string c.version, .string c.sourceEncoding, .number c.toolchain.toNat,
      .number c.release.toNat])
    (fun _ => rfl) (by decide) fun c => by
      simp [fields, Json.readsBack_path c.vendorDir, Json.readsBack_uint32 c.toolchain,
        Json.readsBack_uint32 c.release]

/-- Classifiers are read back, the default one from `null`. -/
theorem Classifier.readsBack : ReadsBack decode toJson := fun c =>
  congrArg (Except.map Classifier.mk) (Json.readsBack_optional c.text?)

theorem ArtifactKind.text_injective : Function.Injective text := by
  intro k l h
  cases k <;> cases l <;> first | rfl | exact absurd h (by decide)

theorem ArtifactKind.readsBack : ReadsBack decode toJson :=
  Json.readsBack_enum text_injective fun k => by cases k <;> decide

theorem Artifact.readsBack : ReadsBack decode toJson :=
  Json.readsBack_record "ArtifactDescriptor" fields
    (fun a : Artifact =>
      [a.kind.toJson, .string a.baseName, .string a.version, a.classifier.toJson])
    (fun _ => rfl) (by decide) fun a => by
      simp [fields, ArtifactKind.readsBack a.kind, Classifier.readsBack a.classifier]

theorem Variant.readsBack : ReadsBack decode toJson :=
  Json.readsBack_record "OutgoingVariant" fields
    (fun v : Variant => [.string v.name, .array (v.artifacts.map Artifact.toJson)])
    (fun _ => rfl) (by decide) fun v => by
      have hartifacts := Artifact.readsBack.list v.artifacts
      simp [fields, hartifacts]

/-- The variables of test runs are read back as a table, since they are written in its order. -/
theorem TestRun.readsBack_environment : ReadsBack decodeEnvironment fun environment =>
    .object (environment.rows.map fun row => (row.1, .string row.2)) := by
  intro environment
  rw [decodeEnvironment, Json.readsBack_string.map environment.rows, map_ok, Table.ofList_rows]

theorem TestRun.readsBack : ReadsBack decode toJson :=
  Json.readsBack_record "TestRunSpec" fields
    (fun t : TestRun =>
      [.object (t.environment.rows.map fun row : String × String => (row.1, .string row.2)),
        .strings t.excludedTests])
    (fun _ => rfl) (by decide) fun t => by
      simp [fields, readsBack_environment t.environment, Json.readsBack_strings t.excludedTests]

/-- An entry is read back without its contents, which are not written. -/
theorem ArchiveEntry.decode_reading (e : ArchiveEntry) :
    decode e.toJson.reading = .ok { e with contents := ByteArray.empty } := by
  have hread := Json.decodeRecord_reading "ArchiveEntry" fields
    [.string e.path, .strings e.references] { path := "" } rfl (by decide)
  refine hread.trans ?_
  simp [fields, Json.readsBack_strings e.references]

/-- To decode settings that were written is to decode their dependencies. -/
theorem ShadeSettings.decode_reading (s : ShadeSettings) :
    decode s.toJson.reading =
      (decodeList decodeCoordinate (reading (.array (s.dependencies.map Coordinate.toJson)))).map
        fun dependencies => { s with dependencies } := by
  have hrules : decodeList RelocationRule.decode
      (reading (.array (s.relocations.map RelocationRule.toJson))) = .ok s.relocations :=
    RelocationRule.readsBack.list s.relocations
  have hread := Json.decodeRecord_reading "ShadeSettings" fields
    [.string s.configuration, .array (s.dependencies.map Coordinate.toJson),
      .array (s.relocations.map RelocationRule.toJson), .bool s.minimize, .strings s.keep,
      .string s.shadedClassifier, .string s.thinClassifier] {} rfl (by decide)
  refine hread.trans ?_
  cases hdependencies : decodeList decodeCoordinate
      (reading (.array (s.dependencies.map Coordinate.toJson))) with
  | error e => simp [fields, hdependencies]
  | ok dependencies =>
    simp [fields, hdependencies, hrules, Json.readsBack_strings s.keep,
      Json.readsBack_bool s.minimize]

namespace ConfigurationName

/-- A name is read from its text. -/
theorem decode_reading (n : ConfigurationName) : decode n.toJson.reading = .ok (ofText n.text) := by
  rw [decode, toJson, Json.decodeString_reading, map_ok]

/-- Is a name one of one's own that is spelt like one of the build's? -/
def Disguised (n : ConfigurationName) : Prop :=
  ∃ own : ConfigurationName, own.isCustom = false ∧ n = custom own.text

/-- A name is read from its text as itself, unless it is spelt like another. -/
theorem ofText_text_eq_iff (n : ConfigurationName) : ofText n.text = n ↔ ¬ n.Disguised := by
  constructor
  · rintro h ⟨own, hown, rfl⟩
    cases own with
    | custom s => cases hown
    | _ => exact absurd h (by decide)
  · intro h
    cases n with
    | custom s =>
      have hne : ∀ own : ConfigurationName, own.isCustom = false → s ≠ own.text :=
        fun own hown hs => h ⟨own, hown, hs ▸ rfl⟩
      have h₁ : s ≠ "implementation" := hne implementation rfl
      have h₂ : s ≠ "testImplementation" := hne testImplementation rfl
      have h₃ : s ≠ "runtime" := hne runtime rfl
      have h₄ : s ≠ "compileOnly" := hne compileOnly rfl
      simp [ofText, text, h₁, h₂, h₃, h₄]
    | _ => decide

end ConfigurationName

/-! ## What is decoded of a text -/

/-- Is a value decoded from the texts of another, on one line and over several? -/
def Json.DecodesTo {α : Type} (decoder : Decoder α) (v : Json) (a : α) : Prop :=
  Json.decode decoder v.compact = .ok a ∧ Json.decode decoder v.pretty = .ok a

theorem Json.decodesTo_iff {α : Type} {decoder : Decoder α} {v : Json} {a : α} :
    DecodesTo decoder v a ↔ decoder v.reading = .ok a := by
  rw [DecodesTo, decode_compact, decode_pretty, and_self]

/-- **Decoding undoes writing**, for all records at once. -/
theorem decode_undoes_writing :
    ((∀ r : RelocationRule, Json.DecodesTo RelocationRule.decode r.toJson r) ∧
      (∀ c : SigningCredential, Json.DecodesTo SigningCredential.decode c.toJson c) ∧
      (∀ p : ClassifierPolicy, Json.DecodesTo ClassifierPolicy.decode p.toJson p) ∧
      (∀ c : Classifier, Json.DecodesTo Classifier.decode c.toJson c) ∧
      (∀ a : Artifact, Json.DecodesTo Artifact.decode a.toJson a) ∧
      (∀ v : Variant, Json.DecodesTo Variant.decode v.toJson v) ∧
      (∀ c : Conventions, Json.DecodesTo Conventions.decode c.toJson c) ∧
      (∀ s : ArtifactSettings, Json.DecodesTo ArtifactSettings.decode s.toJson s) ∧
      ∀ t : TestRun, Json.DecodesTo TestRun.decode t.toJson t) ∧
    (∀ e : ArchiveEntry,
      Json.DecodesTo ArchiveEntry.decode e.toJson { e with contents := ByteArray.empty }) ∧
    ∀ n : ConfigurationName, ∃ n', Json.DecodesTo ConfigurationName.decode n.toJson n' ∧
      n'.text = n.text ∧ (n' = n ↔ ¬ n.Disguised) := by
  simp only [Json.decodesTo_iff]
  refine ⟨⟨RelocationRule.readsBack, SigningCredential.readsBack, ClassifierPolicy.readsBack,
    Classifier.readsBack, Artifact.readsBack, Variant.readsBack, Conventions.readsBack,
    ArtifactSettings.readsBack, TestRun.readsBack⟩, ArchiveEntry.decode_reading, fun n => ?_⟩
  exact ⟨.ofText n.text, n.decode_reading, ConfigurationName.text_ofText n.text,
    n.ofText_text_eq_iff⟩

-- a name of one's own that is spelt like one of the build's
example : (Json.decode ConfigurationName.decode
    (ConfigurationName.custom "runtime").toJson.compact).toOption = some .runtime := by
  decide +kernel

end Vendoring
