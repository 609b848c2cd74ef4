import Mathlib.Data.List.DropRight
import Mathlib.Data.List.TakeWhile
import Provisioner.EnvFile

/-!
# Environment files without references

A reference is the only way in which the environment gets into the values of an environment file. If
no value refers to anything then the file is read alike in every environment.

What counts is the values, which are not parts of the text as it stands: line ends are unified, and
between quotes backslashes are taken out. None of this can make a reference up. What is replaced and
what it is replaced by are none of the characters that a reference is recognized by, and something
stands where something was replaced, so that these characters are no nearer to each other in a value
than they are in the text.

## Main definitions

* `EnvFile.Closes` — characters that complete a reference which has been begun
* `EnvFile.Unreferring`, `ReadsAlone` — no reference in some characters, or in the values of a text
* `EnvFile.Blurs` — characters some of which are replaced by others

## Main results

* `EnvFile.read_eq_read` — a file without references is read alike in every environment
* `EnvFile.readsAlone_of_text` — a text in which no reference stands
-/

namespace Provisioner

namespace EnvFile

variable {cs ds : List Char}

/-! ### References -/

/-- A reference that has been begun is completed: by a brace, or by a colon and a hyphen and a brace
after them. -/
def Closes : List Char → Prop
  | [] => False
  | c :: rest =>
    if c = '\x7d' then True
    else if c = ':' then ∃ standIn, rest = '-' :: standIn ∧ '\x7d' ∈ standIn
    else Closes rest

theorem closes_brace (cs : List Char) : Closes ('\x7d' :: cs) := trivial

theorem closes_colon_iff : Closes (':' :: cs) ↔ ∃ standIn, cs = '-' :: standIn ∧ '\x7d' ∈ standIn :=
  Iff.rfl

theorem closes_cons_iff {c : Char} (hb : c ≠ '\x7d') (hc : c ≠ ':') :
    Closes (c :: cs) ↔ Closes cs := by
  rw [Closes, if_neg hb, if_neg hc]

/-- A character before the end of the name only makes the name longer. -/
theorem reference?_cons {c : Char} (hb : c ≠ '\x7d') (hc : c ≠ ':') (cs : List Char) :
    reference? (c :: cs) = none ↔ reference? cs = none := by
  have hdrop : (c :: cs).dropWhile (fun c => c ≠ '\x7d' && c ≠ ':')
      = cs.dropWhile fun c => c ≠ '\x7d' && c ≠ ':' := by
    simp [hb, hc]
  simp only [reference?]
  rw [hdrop]
  split
  · simp
  · split <;> simp
  · simp

/-- After the colon and the hyphen the stand-in reaches to a brace. -/
theorem reference?_standIn (cs : List Char) :
    reference? (':' :: '-' :: cs) = none ↔ '\x7d' ∉ cs := by
  have hdrop : cs.dropWhile (· ≠ '\x7d') = [] ↔ '\x7d' ∉ cs := by
    simp only [List.dropWhile_eq_nil_iff, decide_eq_true_eq]
    exact ⟨fun h hm => h _ hm rfl, fun h c hc hb => h (hb ▸ hc)⟩
  have hcolon : (':' :: '-' :: cs).dropWhile (fun c => c ≠ '\x7d' && c ≠ ':')
      = ':' :: '-' :: cs := rfl
  rw [← hdrop]
  cases h : cs.dropWhile (· ≠ '\x7d') with
  | nil => simp only [reference?, hcolon, h]
  | cons c after => simp only [reference?, hcolon, h, reduceCtorEq]

theorem reference?_eq_none_iff (cs : List Char) : reference? cs = none ↔ ¬ Closes cs := by
  induction cs with
  | nil => simp [reference?, Closes]
  | cons c cs ih =>
    by_cases hb : c = '\x7d'
    · simp [reference?, Closes, hb]
    by_cases hc : c = ':'
    · subst hc
      rw [closes_colon_iff]
      by_cases hcs : ∃ standIn, cs = '-' :: standIn
      · obtain ⟨standIn, rfl⟩ := hcs
        simp [reference?_standIn]
      · have hnone : ¬ ∃ standIn, cs = '-' :: standIn ∧ '\x7d' ∈ standIn :=
          fun ⟨standIn, h, _⟩ => hcs ⟨standIn, h⟩
        simp only [hnone, not_false_eq_true, iff_true, reference?]
        split <;> simp_all
    · rw [closes_cons_iff hb hc, ← ih, reference?_cons hb hc]

/-- Characters in which no reference stands. -/
def Unreferring (cs : List Char) : Prop :=
  ∀ inside, '$' :: '\x7b' :: inside <:+ cs → reference? inside = none

theorem Unreferring.of_suffix (h : Unreferring cs) (hs : ds <:+ cs) : Unreferring ds :=
  fun inside hi => h inside (hi.trans hs)

/-- Where no reference stands there is nothing to replace. -/
theorem expandWithin_of_unreferring (meaning : String → String → String) (fuel : Nat)
    (h : Unreferring cs) : expandWithin meaning fuel cs = cs := by
  fun_induction expandWithin meaning fuel cs with
  | case1 cs => rfl
  | case2 fuel hf => rfl
  | case3 fuel inside n standIn after hr ih =>
    rw [h inside (List.suffix_refl _)] at hr
    cases hr
  | case4 fuel inside hr ih => rw [ih (h.of_suffix (List.suffix_cons _ _))]
  | case5 fuel c rest hne ih => rw [ih (h.of_suffix (List.suffix_cons _ _))]

/-- A text whose values refer to nothing. -/
def ReadsAlone (text : String) : Prop :=
  ∀ n v, (n, some v) ∈ statements text → Unreferring v.toList

theorem enter_eq_enter (environment environment' : Assoc String)
    {found : List (String × Option String)} (earlier : Assoc (Option String))
    (h : ∀ n v, (n, some v) ∈ found → Unreferring v.toList) :
    enter environment found earlier = enter environment' found earlier := by
  induction found generalizing earlier with
  | nil => rfl
  | cons a found ih =>
    obtain ⟨n, value⟩ := a
    have hvalue : value.map (expand (meaning earlier environment))
        = value.map (expand (meaning earlier environment')) := by
      refine Option.map_congr fun v hv => ?_
      have hv : Unreferring v.toList := h n v (hv ▸ List.mem_cons_self)
      rw [expand, expand, expandWithin_of_unreferring _ _ hv, expandWithin_of_unreferring _ _ hv]
    rw [enter, enter, hvalue]
    exact ih _ fun n v hm => h n v (List.mem_cons_of_mem _ hm)

/-- **A file without references** is read alike in every environment. -/
theorem read_eq_read {text : String} (h : ReadsAlone text)
    (environment environment' : Assoc String) :
    read environment text = read environment' text :=
  enter_eq_enter environment environment' [] h

/-! ### Replacing characters -/

/-- The characters that a reference is recognized by. -/
def marks : List Char := ['$', '\x7b', '\x7d', ':', '-']

/-- Characters some of which have been replaced, each time some by one, and none of them a mark. -/
inductive Blurs : List Char → List Char → Prop
  | nil : Blurs [] []
  | same (c : Char) {cs ds : List Char} (h : Blurs cs ds) : Blurs (c :: cs) (c :: ds)
  | other {xs : List Char} {d : Char} {cs ds : List Char} (hxs : ∀ x ∈ xs, x ∉ marks)
    (hd : d ∉ marks) (h : Blurs cs ds) : Blurs (xs ++ cs) (d :: ds)

theorem Blurs.refl (cs : List Char) : Blurs cs cs := by
  induction cs with
  | nil => exact .nil
  | cons c cs ih => exact .same c ih

/-- Before a mark everything is as it was. -/
theorem Blurs.of_mark {c : Char} (h : Blurs cs (c :: ds)) (hc : c ∈ marks) :
    ∃ cs', cs = c :: cs' ∧ Blurs cs' ds := by
  cases h with
  | same _ h => exact ⟨_, rfl, h⟩
  | other _ hd _ => exact absurd hc hd

theorem Blurs.mem_of_mark {c : Char} (h : Blurs cs ds) (hc : c ∈ marks) (hm : c ∈ ds) : c ∈ cs := by
  induction h with
  | nil => exact hm
  | same d _ ih =>
    rcases List.mem_cons.1 hm with rfl | hm
    · exact List.mem_cons_self
    · exact List.mem_cons_of_mem _ (ih hm)
  | other _ hd _ ih =>
    rcases List.mem_cons.1 hm with rfl | hm
    · exact absurd hc hd
    · exact List.mem_append_right _ (ih hm)

theorem closes_append_of_unmarked {xs : List Char} (hxs : ∀ x ∈ xs, x ∉ marks) (h : Closes cs) :
    Closes (xs ++ cs) := by
  induction xs with
  | nil => exact h
  | cons x xs ih =>
    obtain ⟨hx, hxs⟩ := List.forall_mem_cons.1 hxs
    have hb : x ≠ '\x7d' := fun hb => hx (hb ▸ by decide)
    have hc : x ≠ ':' := fun hc => hx (hc ▸ by decide)
    exact (closes_cons_iff hb hc).2 (ih hxs)

/-- What completes a reference after the replacement has done so before. -/
theorem Blurs.closes (h : Blurs cs ds) (hds : Closes ds) : Closes cs := by
  induction h with
  | nil => exact hds
  | @same c cs ds h ih =>
    by_cases hb : c = '\x7d'
    · exact hb ▸ closes_brace cs
    by_cases hc : c = ':'
    · subst hc
      obtain ⟨standIn, rfl, hm⟩ := hds
      obtain ⟨cs', rfl, h'⟩ := h.of_mark (by decide)
      exact ⟨cs', rfl, h'.mem_of_mark (by decide) hm⟩
    · exact (closes_cons_iff hb hc).2 (ih ((closes_cons_iff hb hc).1 hds))
  | @other xs d cs ds hxs hd h ih =>
    have hb : d ≠ '\x7d' := fun hb => hd (hb ▸ by decide)
    have hc : d ≠ ':' := fun hc => hd (hc ▸ by decide)
    exact closes_append_of_unmarked hxs (ih ((closes_cons_iff hb hc).1 hds))

/-- Where a reference begins after the replacement, one has begun before. -/
theorem Blurs.begins {inside : List Char} (h : Blurs cs ds)
    (hs : '$' :: '\x7b' :: inside <:+ ds) :
    ∃ inside', '$' :: '\x7b' :: inside' <:+ cs ∧ Blurs inside' inside := by
  induction h with
  | nil => simp at hs
  | @same c cs ds h ih =>
    rcases List.suffix_cons_iff.1 hs with heq | hs
    · obtain ⟨rfl, rfl⟩ := List.cons.inj heq
      obtain ⟨cs', rfl, h'⟩ := h.of_mark (by decide)
      exact ⟨cs', List.suffix_refl _, h'⟩
    · obtain ⟨inside', hs', h'⟩ := ih hs
      exact ⟨inside', hs'.trans (List.suffix_cons _ _), h'⟩
  | @other xs d cs ds hxs hd h ih =>
    rcases List.suffix_cons_iff.1 hs with heq | hs
    · obtain ⟨rfl, rfl⟩ := List.cons.inj heq
      exact absurd (by decide) hd
    · obtain ⟨inside', hs', h'⟩ := ih hs
      exact ⟨inside', hs'.trans (List.suffix_append _ _), h'⟩

/-- Replacing characters does not make a reference up. -/
theorem Unreferring.of_blurs (h : Unreferring cs) (hb : Blurs cs ds) : Unreferring ds := by
  intro inside hs
  obtain ⟨inside', hs', hb'⟩ := hb.begins hs
  rw [reference?_eq_none_iff]
  exact fun hc => (reference?_eq_none_iff inside').1 (h inside' hs') (hb'.closes hc)

/-! ### Reading a text -/

theorem closes_append (h : Closes cs) (ds : List Char) : Closes (cs ++ ds) := by
  induction cs with
  | nil => exact False.elim h
  | cons c cs ih =>
    by_cases hb : c = '\x7d'
    · exact hb ▸ closes_brace _
    by_cases hc : c = ':'
    · subst hc
      obtain ⟨standIn, rfl, hm⟩ := h
      exact ⟨standIn ++ ds, rfl, List.mem_append_left ds hm⟩
    · exact (closes_cons_iff hb hc).2 (ih ((closes_cons_iff hb hc).1 h))

theorem Unreferring.of_isPrefix (h : Unreferring cs) (hp : ds <+: cs) : Unreferring ds := by
  intro inside hs
  obtain ⟨more, rfl⟩ := hp
  obtain ⟨before, rfl⟩ := hs
  have hinside := h (inside ++ more) ⟨before, by simp⟩
  rw [reference?_eq_none_iff] at hinside ⊢
  exact fun hc => hinside (closes_append hc more)

/-- Characters that are no marks may be left out before another one. -/
theorem Blurs.cons_unmarked {x d : Char} (h : Blurs cs (d :: ds)) (hx : x ∉ marks)
    (hd : d ∉ marks) : Blurs (x :: cs) (d :: ds) := by
  cases h with
  | same _ h =>
    have hxd : ∀ y ∈ [x, d], y ∉ marks := by simp [hx, hd]
    exact .other hxd hd h
  | @other xs _ cs _ hxs _ h =>
    have hxs' : ∀ y ∈ x :: xs, y ∉ marks := List.forall_mem_cons.2 ⟨hx, hxs⟩
    exact .other hxs' hd h

theorem blurs_unifyLines (cs : List Char) : Blurs cs (unifyLines cs) := by
  fun_induction unifyLines cs with
  | case1 => exact .nil
  | case2 rest ih => exact ih.cons_unmarked (by decide) (by decide)
  | case3 rest h ih =>
    have hreturn : ∀ y ∈ ['\r'], y ∉ marks := List.forall_mem_singleton.2 (by decide)
    exact .other hreturn (by decide) ih
  | case4 c rest h ih => exact .same c ih

/-- Between quotes, what is replaced is no mark, and what replaces it is none. -/
theorem blurs_unescape {meaning? : Char → Option Char}
    (hm : ∀ {c d}, meaning? c = some d → c ∉ marks ∧ d ∉ marks) (waits : Bool) (cs : List Char) :
    Blurs (if waits then '\\' :: cs else cs) (unescape meaning? waits cs) := by
  fun_induction unescape meaning? waits cs with
  | case1 => exact .nil
  | case2 => exact .refl _
  | case3 rest ih => exact ih
  | case4 c rest hc ih => exact .same c ih
  | case5 c rest d hd ih =>
    obtain ⟨h₁, h₂⟩ := hm hd
    have hescape : ∀ y ∈ ['\\', c], y ∉ marks := by simpa using ⟨by decide, h₁⟩
    exact .other hescape h₂ ih
  | case6 c rest hd ih => exact .same _ (.same c ih)

theorem unmarked_singleMeaning {c d : Char} (h : singleMeaning? c = some d) :
    c ∉ marks ∧ d ∉ marks := by
  rw [singleMeaning?] at h
  split at h
  · rename_i hc
    obtain rfl := Option.some.inj h
    rcases hc with rfl | rfl <;> decide
  · cases h

theorem unmarked_doubleMeaning {c d : Char} (h : doubleMeaning? c = some d) :
    c ∉ marks ∧ d ∉ marks := by
  unfold doubleMeaning? at h
  split at h <;> cases h <;> decide

/-- What stands before the closing quote begins the characters, and what follows it ends them. -/
theorem closing_split {quote : Char} {escaped : Bool} {v after : List Char}
    (h : closing quote escaped cs = some (v, after)) : v <+: cs ∧ after <:+ cs := by
  fun_induction closing quote escaped cs generalizing v after with
  | case1 => cases h
  | case2 c rest ih =>
    obtain ⟨⟨v', after'⟩, hfound, heq⟩ := Option.map_eq_some_iff.1 h
    cases heq
    obtain ⟨hv, hafter⟩ := ih hfound
    exact ⟨(List.prefix_cons_inj c).2 hv, hafter.trans (List.suffix_cons c rest)⟩
  | case3 rest =>
    cases h
    exact ⟨List.nil_prefix, List.suffix_cons _ _⟩
  | case4 c rest hc ih =>
    obtain ⟨⟨v', after'⟩, hfound, heq⟩ := Option.map_eq_some_iff.1 h
    cases heq
    obtain ⟨hv, hafter⟩ := ih hfound
    exact ⟨(List.prefix_cons_inj c).2 hv, hafter.trans (List.suffix_cons c rest)⟩

theorem isPrefix_beforeComment (cs : List Char) : beforeComment cs <+: cs := by
  fun_induction beforeComment cs with
  | case1 => exact List.prefix_refl _
  | case2 => exact List.nil_prefix
  | case3 c rest _ ih => exact (List.prefix_cons_inj c).2 ih

theorem isPrefix_dropBlanksRight (cs : List Char) : Text.dropBlanksRight cs <+: cs :=
  List.rdropWhile_prefix _ cs

/-- The characters that a reading leaves, or those at which it got stuck. -/
def remaining {α : Type} : Except Stuck (α × List Char) → List Char
  | .ok (_, rest) => rest
  | .error rest => rest

/-- A value stands between quotes, or is what is left of the line without blanks and comment. -/
theorem value_cases (cs : List Char) :
    (∃ quote rest meaning?, (∀ {c d}, meaning? c = some d → c ∉ marks ∧ d ∉ marks)
      ∧ quote :: rest <:+ cs
      ∧ value cs = match closing quote false rest with
        | some (v, after) => .ok (unescape meaning? false v, after)
        | none => .error (quote :: rest))
    ∨ value cs = .ok
        (Text.dropBlanksRight
          ((beforeComment (cs.takeWhile (· ≠ '\n'))).dropWhile Text.isBlank),
        cs.dropWhile (· ≠ '\n')) := by
  have hgap : cs.dropWhile isGap <:+ cs := List.dropWhile_suffix _
  simp only [value]
  split
  · rename_i rest hs
    exact .inl ⟨'\'', rest, singleMeaning?, unmarked_singleMeaning, hs ▸ hgap, hs ▸ rfl⟩
  · rename_i rest hs
    exact .inl ⟨'"', rest, doubleMeaning?, unmarked_doubleMeaning, hs ▸ hgap, hs ▸ rfl⟩
  · exact .inr rfl

theorem remaining_value (cs : List Char) : remaining (value cs) <:+ cs := by
  rcases value_cases cs with ⟨quote, rest, meaning?, hm, hs, hv⟩ | hv
  · rw [hv]
    split
    · rename_i v after hc
      exact (closing_split hc).2.trans ((List.suffix_cons _ _).trans hs)
    · exact hs
  · rw [hv]
    exact List.dropWhile_suffix _

/-- A value refers to nothing if the text does not. -/
theorem Unreferring.value (h : Unreferring cs) {v rest : List Char}
    (hv : value cs = .ok (v, rest)) : Unreferring v := by
  rcases value_cases cs with ⟨quote, inside, meaning?, hm, hs, hvalue⟩ | hvalue
  · rw [hvalue] at hv
    split at hv
    · rename_i w after hc
      cases hv
      have hinside : Unreferring inside := h.of_suffix ((List.suffix_cons _ _).trans hs)
      exact (hinside.of_isPrefix (closing_split hc).1).of_blurs (blurs_unescape hm false w)
    · cases hv
  · cases hvalue.symm.trans hv
    have hline : Unreferring (cs.takeWhile (· ≠ '\n')) := h.of_isPrefix (List.takeWhile_prefix _)
    have hshort := hline.of_isPrefix (isPrefix_beforeComment _)
    exact (hshort.of_suffix (List.dropWhile_suffix _)).of_isPrefix (isPrefix_dropBlanksRight _)

theorem nextLine_suffix (cs : List Char) : nextLine cs <:+ cs :=
  (List.drop_suffix _ _).trans (List.dropWhile_suffix _)

theorem afterExport_suffix (cs : List Char) : afterExport cs <:+ cs := by
  simp only [afterExport]
  split
  · exact (List.dropWhile_suffix _).trans (List.drop_suffix _ _)
  · exact List.suffix_refl _

theorem remaining_name (cs : List Char) : remaining (name cs) <:+ cs := by
  simp only [name]
  split
  · split
    · rename_i rest _ _ _ _ after heq
      have hafter : _ :: after <:+ rest := (Prod.mk.inj heq).2 ▸ List.dropWhile_suffix _
      exact (List.suffix_cons _ _).trans (hafter.trans (List.suffix_cons _ _))
    · exact List.suffix_refl _
  · split
    · rename_i after heq
      exact (Prod.mk.inj heq).2 ▸ List.dropWhile_suffix _
    · exact List.suffix_refl _

theorem remaining_ending (cs : List Char) : remaining (ending cs) <:+ cs := by
  have hgap : cs.dropWhile isGap <:+ cs := List.dropWhile_suffix _
  simp only [ending]
  split
  · exact List.nil_suffix
  · rename_i rest hs
    exact (List.suffix_cons _ _).trans (hs ▸ hgap)
  · rename_i rest hs
    exact (nextLine_suffix rest).trans ((List.suffix_cons _ _).trans (hs ▸ hgap))
  · exact List.suffix_refl _

theorem remaining_bind {α β : Type} {x : Except Stuck (α × List Char)}
    {f : α × List Char → Except Stuck (β × List Char)} (hx : remaining x <:+ cs)
    (hf : ∀ a rest, remaining (f (a, rest)) <:+ rest) : remaining (x >>= f) <:+ cs := by
  cases x with
  | error rest => exact hx
  | ok found => exact (hf found.1 found.2).trans hx

theorem remaining_assignment (cs : List Char) : remaining (assignment cs) <:+ cs := by
  refine remaining_bind (remaining_name cs) fun n rest => ?_
  have hgap : rest.dropWhile isGap <:+ rest := List.dropWhile_suffix _
  dsimp only
  split
  · rename_i after hs
    have hafter : after <:+ rest := (List.suffix_cons _ _).trans (hs ▸ hgap)
    exact remaining_bind ((remaining_value after).trans hafter) fun v rest =>
      remaining_bind (remaining_ending rest) fun _ rest => List.suffix_refl rest
  · exact remaining_bind ((remaining_ending _).trans hgap) fun _ rest => List.suffix_refl rest

theorem bind_eq_ok {α β : Type} {x : Except Stuck α} {f : α → Except Stuck β} {b : β}
    (h : (x >>= f) = .ok b) : ∃ a, x = .ok a ∧ f a = .ok b := by
  cases x with
  | error rest => cases h
  | ok a => exact ⟨a, rfl, h⟩

theorem Unreferring.assignment (h : Unreferring cs) {n v : String} {rest : List Char}
    (ha : assignment cs = .ok ((n, some v), rest)) : Unreferring v.toList := by
  obtain ⟨⟨n', after⟩, hn, ha⟩ := bind_eq_ok ha
  have hname : after <:+ cs := by
    have := remaining_name cs
    rwa [hn] at this
  have hgap : after.dropWhile isGap <:+ cs := (List.dropWhile_suffix _).trans hname
  dsimp only at ha
  split at ha
  · rename_i inside hs
    obtain ⟨⟨w, after'⟩, hw, ha⟩ := bind_eq_ok ha
    obtain ⟨⟨_, rest'⟩, _, ha⟩ := bind_eq_ok ha
    cases ha
    simpa using (h.of_suffix ((List.suffix_cons _ _).trans (hs ▸ hgap))).value hw
  · obtain ⟨⟨_, rest'⟩, _, ha⟩ := bind_eq_ok ha
    cases ha

theorem statement_suffix (cs : List Char) : (statement cs).2 <:+ cs := by
  have hexport := afterExport_suffix cs
  simp only [statement]
  split
  · rename_i rest hs
    exact (nextLine_suffix rest).trans ((List.suffix_cons _ _).trans (hs ▸ hexport))
  · have hassign := (remaining_assignment (afterExport cs)).trans hexport
    split
    · rename_i a rest hs
      rwa [hs] at hassign
    · rename_i rest hs
      rw [hs] at hassign
      exact (nextLine_suffix rest).trans hassign

theorem Unreferring.statement (h : Unreferring cs) {n v : String}
    (hs : (statement cs).1 = some (n, some v)) : Unreferring v.toList := by
  simp only [EnvFile.statement] at hs
  split at hs
  · cases hs
  · split at hs
    · rename_i rest ha
      cases hs
      exact (h.of_suffix (afterExport_suffix cs)).assignment ha
    · cases hs

theorem Unreferring.statementsWithin (h : Unreferring cs) (fuel : Nat) {n v : String}
    (hm : (n, some v) ∈ statementsWithin fuel cs) : Unreferring v.toList := by
  induction fuel generalizing cs with
  | zero => cases hm
  | succ fuel ih =>
    have hblank := h.of_suffix (List.dropWhile_suffix Text.isBlank)
    simp only [EnvFile.statementsWithin] at hm
    split at hm
    · cases hm
    · rename_i c rest hs
      rw [hs] at hblank
      rcases List.mem_append.1 hm with hm | hm
      · exact hblank.statement (Option.mem_toList.1 hm)
      · exact ih (hblank.of_suffix (statement_suffix _)) hm

theorem afterMark_suffix (cs : List Char) : afterMark cs <:+ cs := by
  unfold afterMark
  split
  · exact List.suffix_cons _ _
  · exact List.suffix_refl _

/-- **A text in which no reference stands** has none in its values. -/
theorem readsAlone_of_text {text : String} (h : Unreferring text.toList) : ReadsAlone text :=
  fun _ _ hm => ((h.of_suffix (afterMark_suffix _)).of_blurs (blurs_unifyLines _)).statementsWithin
    _ hm

end EnvFile

end Provisioner
