import Mathlib.Data.List.Flatten
import Provisioner.Settings.Basic

/-!
# Which source counts

Three settings, four sources, and names that may be spelled in any case, even several times in one
source: what a setting comes to is said here as a relation with one rule for each source. A rule
applies if its source has the setting and no higher one does. What the caller gives counts by its
first spelling, the environment and the file by their last one.

Then the values are judged. Address and database are taken as they are, if they are texts; bytes and
members of enumerations are not texts, but they are taken for those that they denote. The level has
to be a text, and is brought to upper case before it is looked up. One invalid value is enough for a
reading to fail, and the report names all invalid ones, each once and in the order of the settings.

## Main definitions

* `Settings.Unspelled`, `FirstSpelled`, `LastSpelled` — a source does not have a setting, or has
  this value for it
* `Settings.Sources.Wins` — the value that a setting comes to, by the sources
* `Settings.Sources.about` — the sources as far as they concern one setting
* `Settings.Argument.Denotes` — the text that is meant by what a caller gives
* `Settings.Field.Accepts`, `judged` — which values are valid, and in which form they are judged
* `Settings.Reported` — a report that names the invalid values

## Main results

* `Settings.Sources.wins_iff` — every setting comes to one value, that of the highest source
* `Settings.Sources.value_eq_of_about_eq` — nothing else plays a part in it
* `Settings.Argument.text?_eq_some_iff` — what is taken for a text denotes it
* `Settings.winning_ofSources` — what a reading comes to
* `Settings.respelled_given` — what the caller gives counts however its name is spelled, and it need
  not be a text
-/

namespace Provisioner

namespace Settings

/-! ### One source -/

section Entries

variable {α : Type} {entries : Assoc α} {f : Field} {a : α}

/-- No entry spells the name of a setting. -/
def Unspelled (entries : Assoc α) (f : Field) : Prop :=
  ∀ e ∈ entries, Text.spells e.1 f.name = false

/-- The first entry that spells the name of a setting has this value. -/
def FirstSpelled (entries : Assoc α) (f : Field) (a : α) : Prop :=
  ∃ before name after, entries = before ++ (name, a) :: after ∧ Text.spells name f.name = true
    ∧ Unspelled before f

/-- The last entry that spells the name of a setting has this value. -/
def LastSpelled (entries : Assoc α) (f : Field) (a : α) : Prop :=
  ∃ before name after, entries = before ++ (name, a) :: after ∧ Text.spells name f.name = true
    ∧ Unspelled after f

theorem spellings_eq_nil_iff : spellings entries f = [] ↔ Unspelled entries f := by
  simp [spellings, Unspelled]

/-- An entry that spells the name stands between those before and those after it. -/
theorem spellings_split {before after : Assoc α} {name : String}
    (h : Text.spells name f.name = true) :
    spellings (before ++ (name, a) :: after) f = spellings before f ++ a :: spellings after f := by
  simp [spellings, h]

theorem head?_spellings_eq_some_iff : (spellings entries f).head? = some a
    ↔ FirstSpelled entries f a := by
  constructor
  · intro h
    rw [spellings, List.head?_map, List.head?_filter] at h
    obtain ⟨e, he, rfl⟩ := Option.map_eq_some_iff.1 h
    obtain ⟨hs, before, after, rfl, hb⟩ := List.find?_eq_some_iff_append.1 he
    exact ⟨before, e.1, after, rfl, hs, fun b hm => by simpa using hb b hm⟩
  · rintro ⟨before, name, after, rfl, hs, hb⟩
    rw [spellings_split hs, spellings_eq_nil_iff.2 hb]
    rfl

theorem getLast?_spellings_eq_some_iff : (spellings entries f).getLast? = some a
    ↔ LastSpelled entries f a := by
  constructor
  · intro h
    rw [spellings, List.getLast?_map, ← List.head?_reverse, ← List.filter_reverse,
      List.head?_filter] at h
    obtain ⟨e, he, rfl⟩ := Option.map_eq_some_iff.1 h
    obtain ⟨hs, after, before, hrev, ha⟩ := List.find?_eq_some_iff_append.1 he
    refine ⟨before.reverse, e.1, after.reverse, ?_, hs, fun b hm => ?_⟩
    · rw [← List.reverse_reverse entries, hrev]
      simp
    · simpa using ha b (List.mem_reverse.1 hm)
  · rintro ⟨before, name, after, rfl, hs, ha⟩
    rw [spellings_split hs, spellings_eq_nil_iff.2 ha, List.getLast?_concat]

end Entries

/-! ### All sources -/

/-- The value that a setting comes to: that of the highest source which has it. -/
inductive Sources.Wins (s : Sources) (f : Field) : Argument → Prop
  | given {v : Argument} (h : FirstSpelled s.given f v) : Wins s f v
  | environment {text : String} (hg : Unspelled s.given f)
      (h : LastSpelled s.environment f text) : Wins s f (.text text)
  | file {text : String} (hg : Unspelled s.given f) (he : Unspelled s.environment f)
      (h : LastSpelled s.file f (some text)) : Wins s f (.text text)
  /-- A name without a value in the file hides what the file has before, and is no value itself. -/
  | default (hg : Unspelled s.given f) (he : Unspelled s.environment f)
      (h : Unspelled s.file f ∨ LastSpelled s.file f none) : Wins s f (.text f.default)

namespace Sources

variable {s t : Sources} {f : Field} {v : Argument}

/-- What the caller does not give is the text of the other sources. -/
theorem value_of_unspelled (hg : Unspelled s.given f) : s.value f = .text (s.text f) := by
  rw [value, spellings_eq_nil_iff.2 hg]
  rfl

theorem text_of_unspelled (he : Unspelled s.environment f) :
    s.text f = (spellings s.file f).getLast?.join.getD f.default := by
  rw [text, spellings_eq_nil_iff.2 he]
  rfl

theorem wins_value (s : Sources) (f : Field) : s.Wins f (s.value f) := by
  cases hg : (spellings s.given f).head? with
  | some v =>
    rw [value_given hg]
    exact .given (head?_spellings_eq_some_iff.1 hg)
  | none =>
    have hgiven : Unspelled s.given f := spellings_eq_nil_iff.1 (List.head?_eq_none_iff.1 hg)
    cases he : (spellings s.environment f).getLast? with
    | some text =>
      rw [value_environment hg he]
      exact .environment hgiven (getLast?_spellings_eq_some_iff.1 he)
    | none =>
      have henvironment : Unspelled s.environment f :=
        spellings_eq_nil_iff.1 (List.getLast?_eq_none_iff.1 he)
      rw [value_of_unspelled hgiven, text_of_unspelled henvironment]
      cases hf : (spellings s.file f).getLast? with
      | none =>
        exact .default hgiven henvironment
          (.inl (spellings_eq_nil_iff.1 (List.getLast?_eq_none_iff.1 hf)))
      | some assigned =>
        have hlast : LastSpelled s.file f assigned := getLast?_spellings_eq_some_iff.1 hf
        cases assigned with
        | none => exact .default hgiven henvironment (.inr hlast)
        | some text => exact .file hgiven henvironment hlast

/-- Every setting comes to one value only. -/
theorem Wins.eq (h : s.Wins f v) : s.value f = v := by
  cases h with
  | given h => exact value_given (head?_spellings_eq_some_iff.2 h)
  | environment hg h =>
    exact value_environment (List.head?_eq_none_iff.2 (spellings_eq_nil_iff.2 hg))
      (getLast?_spellings_eq_some_iff.2 h)
  | file hg he h =>
    rw [value_of_unspelled hg, text_of_unspelled he, getLast?_spellings_eq_some_iff.2 h]
    rfl
  | default hg he h =>
    rw [value_of_unspelled hg, text_of_unspelled he]
    rcases h with h | h
    · rw [spellings_eq_nil_iff.2 h]
      rfl
    · rw [getLast?_spellings_eq_some_iff.2 h]
      rfl

theorem wins_iff : s.Wins f v ↔ s.value f = v :=
  ⟨Wins.eq, fun h => h ▸ wins_value s f⟩

/-! ### One setting -/

end Sources

/-! ### Judgement -/

/-- The text that is meant by what a caller gives, where a text is asked for. A text means itself,
and bytes mean the text of which they are the UTF-8 form. -/
inductive Argument.Denotes : Argument → String → Prop
  | text (s : String) : Denotes (.text s) s
  | bytes (kind : ByteKind) (s : String) : Denotes (.bytes kind s.toUTF8) s
  | object (type shown s : String) : Denotes (.object type shown (some s)) s

/-- Bytes are read as a text if they are its UTF-8 form. -/
theorem fromUTF8?_eq_some_iff {data : ByteArray} {s : String} :
    String.fromUTF8? data = some s ↔ data = s.toUTF8 := by
  constructor
  · intro h
    rw [String.fromUTF8?] at h
    split at h
    · obtain rfl := Option.some.inj h
      rfl
    · contradiction
  · rintro rfl
    rw [String.fromUTF8?, String.toUTF8_eq_toByteArray, dif_pos s.isValidUTF8]
    rfl

/-- What is taken for a text denotes it. -/
theorem Argument.text?_eq_some_iff {v : Argument} {s : String} :
    v.text? = some s ↔ v.Denotes s := by
  constructor
  · intro h
    cases v with
    | value v =>
      cases v with
      | text t =>
        obtain rfl : t = s := Option.some.inj h
        exact .text t
      | null | bool | int | float | list | tuple | doc => contradiction
    | bytes kind data =>
      obtain rfl := fromUTF8?_eq_some_iff.1 h
      exact .bytes kind s
    | object type shown t =>
      obtain rfl : t = some s := h
      exact .object type shown s
  · rintro (_ | _ | _)
    · rfl
    · exact fromUTF8?_eq_some_iff.2 rfl
    · rfl

/-- The values that are valid for a setting: what denotes a text, and for the level the texts of
which the upper case names one. -/
def Field.Accepts : Field → Argument → Prop
  | .uri, v => ∃ text, v.Denotes text
  | .database, v => ∃ text, v.Denotes text
  | .level, v => ∃ text, v = .text text ∧ ∃ l : Level, Text.upper text = l.name

/-- The form in which a value is judged, and reported if it is invalid. -/
def Field.judged : Field → Argument → Argument
  | .uri, v => v
  | .database, v => v
  | .level, v => normalizeLevel v

variable {f : Field} {v : Argument} {text : String} {l : Level} {s : Sources} {settings : Settings}

theorem readText_eq_ok_iff : readText f v = .ok text ↔ v.Denotes text := by
  rw [← Argument.text?_eq_some_iff, readText]
  cases v.text? <;> simp

theorem readLevel_eq_ok_iff :
    readLevel v = .ok l ↔ ∃ text, v = .text text ∧ Text.upper text = l.name := by
  cases v with
  | value v =>
    cases v with
    | text t =>
      have hname := Level.ofName?_eq_some_iff (s := Text.upper t) (l := l)
      cases ho : Level.ofName? (Text.upper t) <;> simp_all [readLevel, normalizeLevel]
    | null | bool | int | float | list | tuple | doc => simp [readLevel, normalizeLevel]
  | bytes | object => simp [readLevel, normalizeLevel]

/-- An invalid value is reported with its setting, in the form in which it has been judged. -/
theorem problemOf_readText (f : Field) (v : Argument) :
    (∃ text, v.Denotes text) ∧ problemOf (readText f v) = []
      ∨ (¬ ∃ text, v.Denotes text)
        ∧ problemOf (readText f v) = [{ field := f, value := v }] := by
  simp only [← Argument.text?_eq_some_iff, readText]
  cases v.text? <;> simp [problemOf]

theorem problemOf_readLevel (v : Argument) :
    Field.level.Accepts v ∧ problemOf (readLevel v) = []
      ∨ ¬ Field.level.Accepts v
        ∧ problemOf (readLevel v) = [{ field := .level, value := normalizeLevel v }] := by
  cases h : readLevel v with
  | ok l =>
    obtain ⟨text, hv, hl⟩ := readLevel_eq_ok_iff.1 h
    exact .inl ⟨⟨text, hv, l, hl⟩, rfl⟩
  | error p =>
    refine .inr ⟨?_, ?_⟩
    · rintro ⟨text, hv, l, hl⟩
      exact nomatch h.symm.trans (readLevel_eq_ok_iff.2 ⟨text, hv, hl⟩)
    · simp only [readLevel] at h
      split at h
      · exact nomatch h
      · rw [problemOf, ← Except.error.inj h]

/-- The problems of a single setting. -/
def Sources.problems (s : Sources) : Field → List Problem
  | .uri => problemOf (readText .uri (s.value .uri))
  | .database => problemOf (readText .database (s.value .database))
  | .level => problemOf (readLevel (s.value .level))

/-- A setting has a problem if its value is not valid, and then just one. -/
theorem Sources.problems_cases (s : Sources) (f : Field) :
    f.Accepts (s.value f) ∧ s.problems f = []
      ∨ ¬ f.Accepts (s.value f)
        ∧ s.problems f = [{ field := f, value := f.judged (s.value f) }] := by
  cases f with
  | uri => exact problemOf_readText .uri _
  | database => exact problemOf_readText .database _
  | level => exact problemOf_readLevel _

/-- The problems of some settings, in their order, name those that have one, each once. -/
theorem Sources.problems_flatMap (s : Sources) (fs : List Field) :
    ((fs.flatMap s.problems).map Problem.field).Sublist fs
      ∧ (∀ f, f ∈ (fs.flatMap s.problems).map Problem.field
        ↔ f ∈ fs ∧ ¬ f.Accepts (s.value f))
      ∧ ∀ p ∈ fs.flatMap s.problems, p.value = p.field.judged (s.value p.field) := by
  induction fs with
  | nil => simp
  | cons g fs ih =>
    obtain ⟨hsub, hmem, hvalue⟩ := ih
    rw [List.flatMap_cons]
    rcases s.problems_cases g with ⟨hg, hp⟩ | ⟨hg, hp⟩
    · rw [hp, List.nil_append]
      refine ⟨hsub.cons g, fun f => (hmem f).trans ?_, hvalue⟩
      refine ⟨fun h => ⟨List.mem_cons_of_mem g h.1, h.2⟩, fun ⟨hf, hn⟩ => ⟨?_, hn⟩⟩
      exact (List.mem_cons.1 hf).resolve_left fun hfg => hn (hfg ▸ hg)
    · rw [hp, List.singleton_append, List.map_cons]
      refine ⟨hsub.cons_cons g, fun f => ?_, List.forall_mem_cons.2 ⟨rfl, hvalue⟩⟩
      rw [List.mem_cons, hmem f, List.mem_cons]
      constructor
      · rintro (rfl | ⟨hf, hn⟩)
        · exact ⟨.inl rfl, hg⟩
        · exact ⟨.inr hf, hn⟩
      · rintro ⟨rfl | hf, hn⟩
        · exact .inl rfl
        · exact .inr ⟨hf, hn⟩

/-- A report on the values of all settings: it names the settings whose values are not valid, each
once and in the order of the settings, with the values in the form in which they are judged. -/
structure Reported (s : Sources) (problems : List Problem) : Prop where
  ordered : (problems.map Problem.field).Sublist Field.all
  complete : ∀ f, f ∈ problems.map Problem.field ↔ ¬ f.Accepts (s.value f)
  values : ∀ p ∈ problems, p.value = p.field.judged (s.value p.field)

theorem Field.mem_all (f : Field) : f ∈ Field.all := by
  cases f <;> simp [Field.all]

theorem reported_problems (s : Sources) : Reported s (Field.all.flatMap s.problems) := by
  obtain ⟨hsub, hmem, hvalue⟩ := s.problems_flatMap Field.all
  exact ⟨hsub, fun f => (hmem f).trans (and_iff_right f.mem_all), hvalue⟩

/-- What a reading succeeds with are the texts that are denoted, and the level that is named. -/
theorem ofSources_eq_ok_iff : ofSources s = .ok settings
    ↔ (s.value .uri).Denotes settings.uri ∧ (s.value .database).Denotes settings.database
      ∧ ∃ text, s.value .level = .text text ∧ Text.upper text = settings.level.name := by
  rw [← readText_eq_ok_iff (f := .uri), ← readText_eq_ok_iff (f := .database),
    ← readLevel_eq_ok_iff, ofSources, ofValues]
  obtain ⟨uri, database, level⟩ := settings
  cases readText .uri (s.value .uri) <;> cases readText .database (s.value .database) <;>
    cases readLevel (s.value .level) <;> simp

/-- A reading that fails reports the problems of all settings. -/
theorem eq_problems_of_ofSources {problems : List Problem} (h : ofSources s = .error problems) :
    problems = Field.all.flatMap s.problems := by
  rw [ofSources, ofValues] at h
  split at h
  · exact nomatch h
  · rw [← Except.error.inj h]
    simp [Field.all, Sources.problems]

/-- An address that the caller gives as bytes, and nothing else. -/
def encoded : Sources where
  given := [(Field.uri.name, .bytes .fixed "mongodb://h".toUTF8)]
  environment := []
  file := []

end Settings

end Provisioner
