import Provisioner.Proofs.Error.Outcome
import Provisioner.Proofs.EnvFile.Reference
import Provisioner.Settings.Basic

/-!
# Readings of the settings

The environment and the file assign texts. So if the caller gives no values then the address and the
database, which may be any text, are always there, and a reading can fail in one way only: the text
for the level, in upper case, is not the name of a level.

The address is read off the variables that spell its name, and nothing else is. Two environments
that agree on all other variables are therefore read to the same database and the same level, or
fail with the same report, in which the address does not occur.

## Main definitions

* `Settings.unaddressed` — an environment but for the variables that spell the name of the address
* `Settings.Alike` — settings that differ in the address at most

## Main results

* `Settings.read_eq` — a reading, given that nothing comes from the caller
* `Settings.alike_read` — readings in environments that differ in the address at most
-/

namespace Provisioner

namespace Settings

/-! ### One reading -/

theorem readLevel_text (text : String) :
    readLevel (.text text) = match Level.ofName? (Text.upper text) with
      | some level => .ok level
      | none => .error { field := .level, value := .text (Text.upper text) } := rfl

/-- What a reading comes to if nothing comes from the caller. -/
theorem read_eq (environment : Assoc String) (envFile : Option String) :
    let s := Sources.of [] environment envFile
    read [] environment envFile = match Level.ofName? (Text.upper (s.text .level)) with
      | some level => .ok { uri := s.text .uri, database := s.text .database, level }
      | none => .error (.invalidSettings
          [{ field := .level, value := .text (Text.upper (s.text .level)) }]) := by
  intro s
  have hvalue : ∀ f, s.value f = .text (s.text f) := fun f => rfl
  have hread : read [] environment envFile = load s := rfl
  rw [hread, load, ofSources, hvalue, hvalue, hvalue]
  simp only [ofValues, readText, Argument.text?, readLevel_text]
  cases Level.ofName? (Text.upper (s.text .level)) <;> rfl

/-- A reading fails if and only if the level has no name of a level, and this is all that is
reported then. -/
theorem read_eq_error_iff {environment : Assoc String} {envFile : Option String} {e : Error} :
    let text := (Sources.of [] environment envFile).text .level
    read [] environment envFile = .error e ↔
      Level.ofName? (Text.upper text) = none
        ∧ e = .invalidSettings [{ field := .level, value := .text (Text.upper text) }] := by
  intro text
  rw [read_eq]
  cases Level.ofName? (Text.upper text) with
  | some level => simp
  | none => simp [text, eq_comm]

/-! ### Two readings -/

/-- An environment without the variables that spell the name of the address. -/
def unaddressed (environment : Assoc String) : Assoc String :=
  environment.filter fun e => !Text.spells e.1 Field.uri.name

/-- A name is spelled as that of one setting at most. -/
theorem not_spells_uri {name : String} {f : Field} (h : Text.spells name f.name = true)
    (hf : f ≠ .uri) : Text.spells name Field.uri.name = false := by
  simp only [Text.spells, beq_iff_eq, beq_eq_false_iff_ne] at h ⊢
  rw [h]
  cases f with
  | uri => exact absurd rfl hf
  | database | level => decide

/-- The variables that spell the name of another setting are all kept. -/
theorem spellings_unaddressed (environment : Assoc String) {f : Field} (hf : f ≠ .uri) :
    spellings (unaddressed environment) f = spellings environment f := by
  rw [spellings, spellings, unaddressed, List.filter_filter]
  refine congrArg _ (List.filter_congr fun e _ => ?_)
  cases h : Text.spells e.1 f.name with
  | false => rfl
  | true => simp [not_spells_uri h hf]

/-- Settings that differ in the address at most. -/
structure Alike (a b : Settings) : Prop where
  database : a.database = b.database
  level : a.level = b.level

/-- **Readings do not tell the address.** -/
theorem alike_read {environment environment' : Assoc String} {envFile : Option String}
    (he : unaddressed environment = unaddressed environment')
    (hf : ∀ text, envFile = some text → EnvFile.ReadsAlone text) :
    AlikeOutcomes Alike (read [] environment envFile) (read [] environment' envFile) := by
  have hfile : (Sources.of [] environment envFile).file
      = (Sources.of [] environment' envFile).file := by
    cases envFile with
    | none => rfl
    | some text => exact EnvFile.read_eq_read (hf text rfl) environment environment'
  have htext : ∀ f, f ≠ .uri →
      (Sources.of [] environment envFile).text f = (Sources.of [] environment' envFile).text f := by
    intro f hne
    have henv : spellings (Sources.of [] environment envFile).environment f
        = spellings (Sources.of [] environment' envFile).environment f := by
      have h := spellings_unaddressed environment hne
      rw [he, spellings_unaddressed environment' hne] at h
      exact h.symm
    rw [Sources.text, Sources.text, hfile, henv]
  rw [read_eq, read_eq]
  simp only [htext .level (by decide), htext .database (by decide)]
  cases Level.ofName? (Text.upper ((Sources.of [] environment' envFile).text .level)) with
  | some level => exact .ok ⟨rfl, rfl⟩
  | none => exact .error _

end Settings

end Provisioner
