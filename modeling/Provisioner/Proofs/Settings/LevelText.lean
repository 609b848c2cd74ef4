import Mathlib.Data.List.Forall2
import Mathlib.Data.List.Infix
import Provisioner.Proofs.Settings.Source

/-!
# Which texts name a level

A level is looked up by its name after the text has been brought to upper case, and this is done for
all of Unicode. Characters outside ASCII may end up within it, some of them as several characters,
so that it does not go without saying which texts name a level.

They are the mixtures of capital and small letters that are meant, and a few more: the dotless i has
the capital I of ASCII as its upper case, so that it may stand for each I of a name. No other
character outside ASCII can take part. Some have an upper case in ASCII, but there is no level with
an S in its name (the long s), and none in which an F is followed by F, I or L (the ligatures).

## Main definitions

* `Text.dotless`, `Text.StandsFor` — the dotless i, and what may stand for a capital letter
* `Level.SpelledBy`, `PlainlySpelledBy` — a text spells the name of a level, with dotless i and
  without

## Main results

* `Text.eq_singleton_of_infix` — which characters can take part in the name of a level
* `Level.upper_eq_name_iff` — the texts that name a level
* `Settings.spelled_ofSources` — what a reading makes of the text of a level
* `Settings.dotless_accepted` — a text with a dotless i that names a level
-/

namespace Provisioner

/-! ### Characters -/

namespace Text

/-- The dotless i, a small letter of which the capital letter is the I of ASCII. -/
def dotless : Char := '\u0131'

/-- A character that may stand for a capital letter: the letter itself, the small letter, or for an
I also the dotless i. -/
def StandsFor (c letter : Char) : Prop :=
  c = letter ∨ c = letter.toLower ∨ c = dotless ∧ letter = 'I'

instance (c letter : Char) : Decidable (StandsFor c letter) :=
  inferInstanceAs (Decidable (_ ∨ _))

/-- Within ASCII a character stands for its capital letter. -/
theorem standsFor_toUpper {c : Char} (h : c.toNat < 128) : StandsFor c c.toUpper := by
  have hall : ∀ n < 128, StandsFor (Char.ofNat n) (Char.ofNat n).toUpper := by decide
  simpa using hall c.toNat h

end Text

namespace Level

variable {l : Level} {c : Char}

/-- The names of the levels are in capital letters of ASCII, and there is no S among them. -/
theorem capital_of_mem_name (h : c ∈ l.name.toList) :
    c.toNat < 128 ∧ c ≠ '\x00' ∧ c ≠ 'S' := by
  have hall : l.name.toList.all fun c => c.toNat < 128 ∧ c ≠ '\x00' ∧ c ≠ 'S' := by
    cases l <;> decide
  exact of_decide_eq_true (List.all_eq_true.1 hall c h)

/-- What stands for a letter of a name becomes that letter in upper case. -/
theorem upperChar_of_standsFor {letter : Char} (hm : letter ∈ l.name.toList)
    (h : Text.StandsFor c letter) : Text.upperChar c = [letter] := by
  have hall : l.name.toList.all fun letter =>
      Text.upperChar letter = [letter] ∧ Text.upperChar letter.toLower = [letter] := by
    cases l <;> decide
  obtain ⟨hcapital, hsmall⟩ := of_decide_eq_true (List.all_eq_true.1 hall letter hm)
  rcases h with rfl | rfl | ⟨rfl, rfl⟩
  · exact hcapital
  · exact hsmall
  · decide

end Level

namespace Text

variable {l : Level} {c : Char} {n : Nat}

/-- Where the upper case of a single character is another one, it is outside ASCII, but for the
dotless i and the long s. -/
theorem image_cases {r : CaseRun} (hr : r ∈ caseRuns) {m : Nat} (h : r.image? n = some m) :
    128 ≤ m ∨ n = dotless.toNat ∧ m = 'I'.toNat ∨ m = 'S'.toNat := by
  have hall : ∀ r ∈ caseRuns, 128 ≤ r.image
      ∨ r.first = r.last
        ∧ (r.first = dotless.toNat ∧ r.image = 'I'.toNat ∨ r.image = 'S'.toNat) := by
    decide +kernel
  simp only [CaseRun.image?] at h
  split at h
  · obtain rfl := Option.some.inj h
    rcases hall r hr with hi | ⟨hone, hd | hs⟩ <;> omega
  · exact nomatch h

/-- A code point beyond ASCII is that of a character beyond ASCII, or of none, for which the null
character stands. -/
theorem not_ascii_ofNat (h : 128 ≤ n) : ¬ ((Char.ofNat n).toNat < 128 ∧ Char.ofNat n ≠ '\x00') := by
  rintro ⟨hascii, hnul⟩
  by_cases hv : n.isValidChar
  · rw [Char.ofNat, dif_pos hv] at hascii
    exact absurd hascii (Nat.not_lt.2 h)
  · exact hnul (dif_neg hv)

/-- No character that becomes several ones takes part in the name of a level. -/
theorem not_infix_of_lookup {image : List Nat} (h : expansions.lookup n = some image) :
    ¬ image.map Char.ofNat <:+: l.name.toList := by
  have hall : ∀ e ∈ expansions, ¬ e.2.map Char.ofNat <:+: l.name.toList := by
    cases l <;> decide +kernel
  obtain ⟨before, after, he, -⟩ := List.lookup_eq_some_iff.1 h
  exact hall (n, image) (by simp [he])

/-- **Which characters take part in the name of a level.** If the upper case of a character is found
within a name then it is a single letter, and the character stands for it. -/
theorem eq_singleton_of_infix (h : upperChar c <:+: l.name.toList) :
    ∃ letter ∈ l.name.toList, upperChar c = [letter] ∧ StandsFor c letter := by
  by_cases hc : c.toNat < 128
  · rw [upperChar_of_ascii hc] at h ⊢
    exact ⟨c.toUpper, h.subset (List.mem_singleton_self _), rfl, standsFor_toUpper hc⟩
  rw [upperChar, if_neg hc] at h ⊢
  rw [upperBeyond] at h ⊢
  cases hx : expansions.lookup c.toNat with
  | some image =>
    simp only [hx] at h
    exact absurd h (not_infix_of_lookup hx)
  | none =>
    simp only [hx, List.map_cons, List.map_nil] at h ⊢
    have hm := h.subset (List.mem_singleton_self _)
    refine ⟨_, hm, rfl, ?_⟩
    obtain ⟨hascii, hnul, hS⟩ := Level.capital_of_mem_name hm
    cases hr : caseRuns.findSome? (CaseRun.image? · c.toNat) with
    | none =>
      -- no run has the character, so that it is its own upper case, and outside ASCII
      simp only [hr, Option.getD_none, Char.ofNat_toNat] at hascii
      exact absurd hascii hc
    | some m =>
      simp only [hr, Option.getD_some] at hascii hnul hS ⊢
      obtain ⟨r, hrun, him⟩ := List.exists_of_findSome?_eq_some hr
      rcases image_cases hrun him with hm | ⟨hd, rfl⟩ | rfl
      · exact absurd ⟨hascii, hnul⟩ (not_ascii_ofNat hm)
      · exact .inr (.inr ⟨Char.toNat_inj.1 hd, by decide⟩)
      · exact absurd (by decide) hS

end Text

/-! ### Texts -/

namespace Level

/-- A text spells the name of a level: in every place is a character that stands for the letter. -/
def SpelledBy (l : Level) (text : String) : Prop :=
  List.Forall₂ Text.StandsFor text.toList l.name.toList

/-- A text is the name of a level in some mixture of capital and small letters. -/
def PlainlySpelledBy (l : Level) (text : String) : Prop :=
  List.Forall₂ (fun c letter => c = letter ∨ c = letter.toLower) text.toList l.name.toList

instance (l : Level) (text : String) : Decidable (l.SpelledBy text) :=
  inferInstanceAs (Decidable (List.Forall₂ _ _ _))

instance (l : Level) (text : String) : Decidable (l.PlainlySpelledBy text) :=
  inferInstanceAs (Decidable (List.Forall₂ _ _ _))

variable {l : Level} {text : String}

/-- Upper case is taken character by character, and so the end of a name is spelled. -/
theorem flatMap_upperChar_iff {chars letters : List Char} (h : letters <:+ l.name.toList) :
    chars.flatMap Text.upperChar = letters ↔ List.Forall₂ Text.StandsFor chars letters := by
  induction chars generalizing letters with
  | nil => rw [List.flatMap_nil, List.forall₂_nil_left_iff, eq_comm]
  | cons c chars ih =>
    rw [List.flatMap_cons]
    constructor
    · rintro rfl
      obtain ⟨letter, -, hc, hstands⟩ := Text.eq_singleton_of_infix
        ((List.prefix_append _ _).isInfix.trans h.isInfix)
      rw [hc, List.singleton_append] at h ⊢
      exact .cons hstands ((ih ((List.suffix_cons _ _).trans h)).1 rfl)
    · intro hspell
      cases hspell with
      | @cons _ letter _ letters hstands hrest =>
        rw [upperChar_of_standsFor (h.subset (List.mem_cons_self ..)) hstands,
          (ih ((List.suffix_cons _ _).trans h)).2 hrest, List.singleton_append]

/-- **Which texts name a level.** -/
theorem upper_eq_name_iff : Text.upper text = l.name ↔ l.SpelledBy text := by
  rw [← String.toList_inj, Text.upper, String.toList_ofList]
  exact flatMap_upperChar_iff (List.suffix_refl _)

/-- What stands for a letter of a name is the capital or the small letter, but for the dotless i. -/
theorem plain_iff {c letter : Char} (h : letter ∈ l.name.toList) :
    c = letter ∨ c = letter.toLower ↔ c ≠ Text.dotless ∧ Text.StandsFor c letter := by
  have hall : l.name.toList.all fun letter =>
      letter ≠ Text.dotless ∧ letter.toLower ≠ Text.dotless := by
    cases l <;> decide
  obtain ⟨hcapital, hsmall⟩ := of_decide_eq_true (List.all_eq_true.1 hall letter h)
  constructor
  · rintro (rfl | rfl)
    · exact ⟨hcapital, .inl rfl⟩
    · exact ⟨hsmall, .inr (.inl rfl)⟩
  · rintro ⟨hne, hc | hc | ⟨hc, -⟩⟩
    · exact .inl hc
    · exact .inr hc
    · exact absurd hc hne

/-- A level is spelled plainly if and only if it is spelled without a dotless i. -/
theorem plainlySpelledBy_iff :
    l.PlainlySpelledBy text ↔ Text.dotless ∉ text.toList ∧ l.SpelledBy text := by
  have hrel : l.PlainlySpelledBy text ↔ List.Forall₂
      (fun c letter => c ≠ Text.dotless ∧ Text.StandsFor c letter) text.toList l.name.toList := by
    simp only [PlainlySpelledBy, List.forall₂_iff_zip]
    refine and_congr_right fun _ => forall₂_congr fun c letter => forall_congr' fun hmem => ?_
    exact plain_iff (List.of_mem_zip hmem).2
  rw [hrel, List.forall₂_and_left, SpelledBy, List.forall_mem_ne']

end Level

namespace Settings

variable {s : Sources} {text : String}

/-- **What a reading makes of the text of a level.** From whatever source the level comes, if it
comes to a text then this is accepted if and only if it spells the name of a level, and what is read
is the level that it spells. Every other text makes the reading fail, with a report in which the
level is named, as it is not if a level is spelled. The name in some mixture of capital and small
letters always spells a level, and so does nothing else but what has a dotless i in it. -/
theorem spelled_ofSources (h : s.Wins .level (.text text)) :
    (∀ l, readLevel (.text text) = .ok l ↔ l.SpelledBy text)
      ∧ (∀ settings, ofSources s = .ok settings → settings.level.SpelledBy text)
      ∧ ((∀ l : Level, ¬ l.SpelledBy text) → ∃ problems, ofSources s = .error problems)
      ∧ (∀ problems, ofSources s = .error problems →
        (.level ∈ problems.map Problem.field ↔ ∀ l : Level, ¬ l.SpelledBy text))
      ∧ ∀ l : Level, l.PlainlySpelledBy text ↔ Text.dotless ∉ text.toList ∧ l.SpelledBy text := by
  have hvalue : s.value .level = .text text := Sources.wins_iff.1 h
  have hread : ∀ l, readLevel (.text text) = .ok l ↔ l.SpelledBy text := by
    intro l
    simp [readLevel_eq_ok_iff, Level.upper_eq_name_iff]
  have haccepts : Field.level.Accepts (s.value .level) ↔ ∃ l : Level, l.SpelledBy text := by
    simp [Field.Accepts, hvalue, Level.upper_eq_name_iff]
  have hok : ∀ settings, ofSources s = .ok settings → settings.level.SpelledBy text := by
    intro settings hs
    obtain ⟨-, -, text', hlevel, hname⟩ := ofSources_eq_ok_iff.1 hs
    obtain rfl : text = text' := by simpa using hvalue.symm.trans hlevel
    exact Level.upper_eq_name_iff.1 hname
  refine ⟨hread, hok, fun hnone => ?_, fun problems hp => ?_, fun l => Level.plainlySpelledBy_iff⟩
  · cases hs : ofSources s with
    | ok settings => exact absurd (hok settings hs) (hnone _)
    | error problems => exact ⟨problems, rfl⟩
  · rw [eq_problems_of_ofSources hp, (reported_problems s).complete, haccepts, not_exists]

/-- A level in mixed letters, in the environment. -/
def mixed : Sources where
  given := []
  environment := [("LOG_LEVEL", "wArning")]
  file := []

/-- It is a mixture of capital and small letters, and read as the level of the name. -/
theorem spelled_mixed :
    mixed.Wins .level (.text "wArning") ∧ Level.warning.PlainlySpelledBy "wArning"
      ∧ readLevel (.text "wArning") = .ok .warning := by
  have hwins : mixed.Wins .level (.text "wArning") := Sources.wins_iff.2 rfl
  obtain ⟨hread, -, -, -, hplain⟩ := spelled_ofSources hwins
  have hw : Level.warning.PlainlySpelledBy "wArning" := by decide
  exact ⟨hwins, hw, (hread _).2 ((hplain _).1 hw).2⟩

/-- A level with a dotless i, in the environment. -/
def dotlessInfo : Sources where
  given := []
  environment := [("LOG_LEVEL", "\u0131nfo")]
  file := []

/-- It is read as a level, although no mixture of capital and small letters has a dotless i. -/
theorem dotless_accepted :
    dotlessInfo.value .level = .text "\u0131nfo"
      ∧ (∀ l : Level, ¬ l.PlainlySpelledBy "\u0131nfo")
      ∧ ofSources dotlessInfo
        = .ok { uri := Field.uri.default, database := Field.database.default, level := .info } := by
  refine ⟨rfl, fun l => ?_, ?_⟩
  · cases l <;> decide
  · exact ofSources_eq_ok_iff.2 ⟨.text _, .text _, _, rfl, by decide⟩

end Settings

end Provisioner
