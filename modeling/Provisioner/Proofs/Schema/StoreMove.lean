import Mathlib.Logic.Relation
import Provisioner.Proofs.Schema.CompleteSchema
import Provisioner.Proofs.Schema.PreservedStore

/-!
# What the calls of several runs do to the contents

When several runs apply the schema at once, their calls alternate, and between any two calls of one
run the others may have done something. What a single call may do is little: the declared
collections grow, or the first index on the time of expiry, an ordinary one, gets the declared time
to live. Everything that a run has to remember from one call to the next remains true under such
moves.

Only one thing needs care. A run that has seen an index without a time to live gives it one later,
when another run may have done so already. It is the same index then, since the first index with
certain keys remains the first, and the same time to live, so nothing changes.

## Main definitions

* `Schema.Move`, `Advance`, `Evolves` — what one call may do, and any number of them
* `Schema.Due` — an index is to get the declared time to live, or has got it
* `Schema.Warranted` — what a decision about a declaration rests on

## Main results

* `Schema.Advance.fit`, `Advance.satisfied`, `Warranted.advance` — what remains true
* `Schema.Due.move` — giving the time to live is a move, even if another run has given it
* `Schema.preserved_of_evolves` — any number of moves preserve what was there
-/

namespace Provisioner

open Store

namespace Schema

variable {target collection name : String} {d : Definition} {s t u : Store} {xs : Indexes}
  {info : Info}

/-! ### Moves -/

/-- What one call of applying the schema may do to the contents: the declared collections grow, or
the first index on the time of expiry gets the declared time to live. -/
inductive Move (target : String) (s : Store) : Store → Prop
  | grown {t : Store} (h : Grown target s t) : Move target s t
  | expired {xs : Indexes} {name : String} {info : Info}
      (hx : s.indexes? target sessions = some xs) (hg : Assoc.get? xs name = some info)
      (hi : info.Expirable expiry) (hf : First xs expiry (name, info)) :
      Move target s (s.putIndexes target sessions (expired xs name info expiry))

/-- A move between contents in which no name is repeated. -/
structure Advance (target : String) (s t : Store) : Prop where
  before : s.Distinct
  after : t.Distinct
  move : Move target s t

/-- Any number of moves. -/
abbrev Evolves (target : String) : Store → Store → Prop := Relation.ReflTransGen (Advance target)

/-- What every move leaves true remains true. -/
theorem Evolves.keeps {P : Store → Prop} (hP : ∀ s t, Advance target s t → P s → P t)
    (h : Evolves target s t) (hs : P s) : P t := by
  induction h with
  | refl => exact hs
  | tail _ hstep ih => exact hP _ _ hstep ih

theorem Move.indexStep (h : Move target s t) :
    Grown target s t ∨ IndexStep target sessions expiry s t := by
  cases h with
  | grown hg => exact .inl hg
  | expired hx hg hi hf => exact .inr (.expired hx hg hi hf)

/-! ### What serves -/

theorem Grown.serving (h : Grown target s t) : Serving target s t := by
  rintro collection d ⟨e, he, hfit⟩
  obtain ⟨added, ha⟩ := h.indexes collection _ (indexes?_of_mem_indexes he)
  refine ⟨e, ?_, hfit⟩
  rw [indexes_of_indexes? ha]
  exact List.mem_append_left _ he

/-- What serves a declaration goes on serving it. -/
theorem Advance.fit (h : Advance target s t) (hf : (s.indexes target collection).Fit d) :
    (t.indexes target collection).Fit d := by
  rcases h.move.indexStep with hg | hstep
  · exact hg.serving collection d hf
  · exact serving_of_indexStep h.before hstep collection d hf

/-- What the verification has found it would find again. -/
theorem Advance.satisfied (h : Advance target s t)
    (hs : Indexes.satisfy d (s.indexes target collection) = .ok true) :
    Indexes.satisfy d (t.indexes target collection) = .ok true := by
  obtain ⟨xs, hx⟩ := exists_indexes?_of_satisfied hs
  rw [indexes_of_indexes? hx] at hs
  obtain ⟨hdistinct, -, hmove⟩ := h
  cases hmove with
  | grown hg =>
    obtain ⟨added, ha⟩ := hg.indexes collection xs hx
    rw [indexes_of_indexes? ha]
    exact Indexes.satisfy_append hs added
  | expired hx' hg hi hf =>
    by_cases hc : collection = sessions
    · subst hc
      obtain rfl := Option.some.inj (hx'.symm.trans hx)
      rw [indexes_putIndexes_self]
      exact Indexes.satisfy_set_ttl (hdistinct.indexes? hx).nodup hg hi.unlimited _ hs
    · rw [indexes_putIndexes_of_ne _ hc, indexes_of_indexes? hx]
      exact hs

/-! ### The time to live -/

theorem First.append (h : First xs d (name, info)) (added : Indexes) :
    First (xs ++ added) d (name, info) := by
  obtain ⟨keys, hk, hf⟩ := h
  exact ⟨keys, hk, Indexes.find?_append_of_some hf added⟩

/-- The index of a name lacks nothing but the declared time to live, and is the first with its keys;
or it has been given this time to live in the meantime. -/
inductive Due (target name : String) (s : Store) : Prop
  | pending {xs : Indexes} {info : Info} (hx : s.indexes? target sessions = some xs)
      (hg : Assoc.get? xs name = some info) (hi : info.Expirable expiry)
      (hf : First xs expiry (name, info))
  | given {xs : Indexes} {info : Info} (hx : s.indexes? target sessions = some xs)
      (hg : Assoc.get? xs name = some info)
      (hk : info.hasKeys (Definition.keys expiry) = .ok true)
      (hc : info.compatible expiry = true)
      (ht : Assoc.set info Index.ttl (Document.field expiry Index.ttl) = info)

/-- An index that is due has the keys and the options of the declaration. -/
theorem Due.index (h : Due target name s) :
    ∃ xs info, s.indexes? target sessions = some xs ∧ Assoc.get? xs name = some info
      ∧ info.hasKeys (Definition.keys expiry) = .ok true ∧ info.compatible expiry = true := by
  cases h with
  | pending hx hg hi hf => exact ⟨_, _, hx, hg, hi.hasKeys, hi.compatible⟩
  | given hx hg hk hc ht => exact ⟨_, _, hx, hg, hk, hc⟩

/-- The index of a name with the declared time to live is due, since it has it. -/
theorem due_set_ttl (hk : info.hasKeys (Definition.keys expiry) = .ok true)
    (hc : info.compatible expiry = true) :
    Due target name (s.putIndexes target sessions
      (Assoc.set xs name (Assoc.set info Index.ttl (Document.field expiry Index.ttl)))) := by
  refine .given (indexes?_putIndexes_self ..) (Assoc.get?_set_self _ name _) ?_ ?_
    (Assoc.set_set_self _ _ _ _)
  · rw [Info.hasKeys_set _ _ _ (by decide)]
    exact hk
  · rw [Info.compatible_set_ttl]
    exact hc

/-- What is due remains so, or has been done. -/
theorem Advance.due (h : Advance target s t) (hd : Due target name s) : Due target name t := by
  obtain ⟨hdistinct, -, hmove⟩ := h
  cases hmove with
  | grown hgrown =>
    cases hd with
    | pending hx hg hi hf =>
      obtain ⟨added, ha⟩ := hgrown.indexes sessions _ hx
      exact .pending ha ((Assoc.get?_append_of_mem added (Assoc.mem_keys_of_get? hg)).trans hg) hi
        (hf.append added)
    | given hx hg hk hc ht =>
      obtain ⟨added, ha⟩ := hgrown.indexes sessions _ hx
      exact .given ha ((Assoc.get?_append_of_mem added (Assoc.mem_keys_of_get? hg)).trans hg) hk hc
        ht
  | expired hx' hg' hi' hf' =>
    cases hd with
    | pending hx hg hi hf =>
      -- It is the same index, for both are the first with these keys.
      obtain rfl := Option.some.inj (hx'.symm.trans hx)
      obtain ⟨rfl, rfl⟩ := Prod.mk.inj (hf'.eq hf)
      exact due_set_ttl hi.hasKeys hi.compatible
    | @given xs info hx hg hk hc ht =>
      obtain rfl := Option.some.inj (hx'.symm.trans hx)
      rename_i other info'
      by_cases hn : name = other
      · subst hn
        obtain rfl := Option.some.inj (hg'.symm.trans hg)
        exact due_set_ttl hk hc
      · exact .given (indexes?_putIndexes_self ..) ((Assoc.get?_set_of_ne _ hn).trans hg) hk hc ht

/-- Giving the time to live is a move, whether or not it has been given in the meantime. -/
theorem Due.move (h : Due target name s) (hx : s.indexes? target sessions = some xs)
    (hg : Assoc.get? xs name = some info) :
    Move target s (s.putIndexes target sessions (expired xs name info expiry)) := by
  cases h with
  | pending hx' hg' hi hf =>
    obtain rfl := Option.some.inj (hx'.symm.trans hx)
    obtain rfl := Option.some.inj (hg'.symm.trans hg)
    exact .expired hx hg hi hf
  | given hx' hg' hk hc ht =>
    obtain rfl := Option.some.inj (hx'.symm.trans hx)
    obtain rfl := Option.some.inj (hg'.symm.trans hg)
    rw [expired, ht, Assoc.set_of_get? hg, putIndexes_of_indexes? hx]
    exact .grown (.refl target s)

/-- The declaration is served afterwards. -/
theorem Due.fit (h : Due target name s) (hx : s.indexes? target sessions = some xs)
    (hg : Assoc.get? xs name = some info) :
    ((s.putIndexes target sessions (expired xs name info expiry)).indexes target sessions).Fit
      expiry := by
  obtain ⟨xs', info', hx', hg', hk, hc⟩ := h.index
  obtain rfl := Option.some.inj (hx'.symm.trans hx)
  obtain rfl := Option.some.inj (hg'.symm.trans hg)
  rw [indexes_putIndexes_self]
  refine ⟨_, Assoc.mem_of_get? (Assoc.get?_set_self _ name _),
    Info.fits_eq_true_iff.2 ⟨?_, ?_, ?_⟩⟩
  · rw [Info.hasKeys_set _ _ _ (by decide)]
    exact hk
  · rw [Info.compatible_set_ttl]
    exact hc
  · rw [Info.expiresAs, Info.field_set_self, comparable_declared expiry (by simp [sessionIndexes]),
      Bool.or_true]

/-- A decision about a declaration is warranted: the declaration is served if nothing is to be done,
and a time to live that is to be given is due. Asking for an index needs no warrant. -/
def Warranted (target collection : String) (d : Definition) : Decision → Store → Prop
  | .keep, s => (s.indexes target collection).Fit d
  | .attach index seconds, s =>
    collection = sessions ∧ d = expiry ∧ seconds = Document.field expiry Index.ttl
      ∧ Due target index s
  | .create _, _ => True

/-- The only declared index with a time to live is the last one of the sessions. -/
theorem eq_expiry_of_limited (hd : d ∈ sessionIndexes)
    (hl : Document.field d Index.ttl ≠ .null) : d = expiry := by
  have hsplit : sessionIndexes = sessionIndexes.dropLast ++ [expiry] := rfl
  rw [hsplit] at hd
  rcases List.mem_append.1 hd with hd | hd
  · exact absurd (ttl_sessionIndexes d hd) hl
  · exact List.mem_singleton.1 hd

/-- What has been decided on the indexes of a collection is warranted. -/
theorem warranted_of_found {keys : Value} {found : Option (String × Info)} (hs : s.Distinct)
    (hl : Document.field d Index.ttl ≠ .null → collection = sessions ∧ d = expiry)
    (hk : Definition.keys d = .ok keys)
    (hf : Indexes.find? keys (s.indexes target collection) = .ok found) :
    Warranted target collection d (Decision.of found d) s := by
  cases hdec : Decision.of found d with
  | keep =>
    obtain ⟨name, info, rfl, hcompat, hexp⟩ := Decision.of_eq_keep_iff.1 hdec
    exact ⟨(name, info), Indexes.mem_of_find? hf,
      Info.fits_eq_true_iff.2 ⟨hk ▸ Indexes.hasKeys_of_find? hf, hcompat, hexp⟩⟩
  | attach index seconds =>
    obtain ⟨info, hfirst, hi, rfl⟩ := expirable_of_attach hk hf hdec
    obtain ⟨rfl, rfl⟩ := hl hi.limited
    have hx := indexes?_of_mem_indexes hfirst.mem
    exact ⟨rfl, rfl, rfl,
      .pending hx (Assoc.get?_of_mem (hs.indexes? hx).nodup hfirst.mem) hi hfirst⟩
  | create conflict => trivial

/-- It remains warranted, whatever other runs do. -/
theorem Warranted.advance {decision : Decision} (hw : Warranted target collection d decision s)
    (h : Advance target s t) : Warranted target collection d decision t := by
  cases decision with
  | keep => exact h.fit hw
  | attach index seconds =>
    obtain ⟨hc, hd, hseconds, hdue⟩ := hw
    exact ⟨hc, hd, hseconds, h.due hdue⟩
  | create conflict => trivial

/-! ### What is preserved -/

/-- Indexes of the sessions are as they were, or the first one on the time of expiry has got the
declared time to live and nothing else. -/
def Aged (xs ys : Indexes) : Prop :=
  ys = xs ∨ ∃ name info, Assoc.get? xs name = some info ∧ info.Expirable expiry
    ∧ First xs expiry (name, info) ∧ ys = expired xs name info expiry

theorem Aged.spared {ys : Indexes} (h : Aged xs ys) : Spared xs ys := by
  rcases h with rfl | ⟨name, info, hg, hi, -, rfl⟩
  · exact .inl rfl
  · exact .inr ⟨name, info, hg, unlimited_of_expirable hi, rfl⟩

/-- Among indexes of which the first one on the time of expiry may have got its time to live, and
others that have been added, no further one of the old indexes gets one. -/
theorem aged_expired {ys added : Indexes} (hxs : xs.Distinct) (hys : (ys ++ added).Distinct)
    (h : Aged xs ys) (hg : Assoc.get? (ys ++ added) name = some info)
    (hi : info.Expirable expiry) (hf : First (ys ++ added) expiry (name, info)) :
    ∃ zs added', expired (ys ++ added) name info expiry = zs ++ added' ∧ Aged xs zs := by
  obtain ⟨keys, hk, hf⟩ := hf
  rcases h with rfl | ⟨other, info', hg', hi', ⟨keys', hk', hf'⟩, rfl⟩
  · rcases Indexes.find?_append_eq_some hf with hold | ⟨-, hadded⟩
    · have hn : name ∈ Assoc.keys ys := Assoc.mem_keys_of_mem (Indexes.mem_of_find? hold)
      rw [Assoc.get?_append_of_mem added hn] at hg
      exact ⟨_, added, Assoc.set_append_of_mem added _ hn,
        .inr ⟨name, info, hg, hi, ⟨keys, hk, hold⟩, rfl⟩⟩
    · have hn : name ∉ Assoc.keys ys := by
        intro hn
        have hnodup := hys.nodup
        rw [Assoc.NodupKeys, Assoc.keys_append, List.nodup_append] at hnodup
        exact hnodup.2.2 name hn name (Assoc.mem_keys_of_mem hadded) rfl
      exact ⟨ys, _, Assoc.set_append_of_notMem added _ hn, .inl rfl⟩
  · -- The first index has a time to live by now, so it is not one that lacks it.
    obtain rfl := Except.ok.inj (hk.symm.trans hk')
    have hset := Indexes.find?_set_ttl hxs.nodup hg' hf' (Document.field expiry Index.ttl)
    rw [if_pos rfl] at hset
    have hsame := (Indexes.find?_append_of_some hset added).symm.trans hf
    obtain ⟨-, rfl⟩ := Prod.mk.inj (Option.some.inj (Except.ok.inj hsame))
    exact absurd ((Info.field_set_self ..).symm.trans hi.unlimited) hi.limited

/-- What was there is preserved, and the old indexes of the sessions have aged at most. -/
structure PreservedAged (target : String) (s t : Store) : Prop extends Preserved target s t where
  aged : ∀ xs, s.indexes? target Schema.sessions = some xs →
    ∃ ys added, t.indexes? target Schema.sessions = some (ys ++ added) ∧ Aged xs ys

theorem PreservedAged.refl (target : String) (s : Store) : PreservedAged target s s where
  toPreserved := (Grown.refl target s).preserved
  aged xs hx := ⟨xs, [], by rw [List.append_nil]; exact hx, .inl rfl⟩

theorem Move.preserved (h : Move target s t) : Preserved target s t := by
  cases h with
  | grown hg => exact hg.preserved
  | expired hx hg hi hf => exact (Expired.intro hx hg hi).preserved

/-- One move more. -/
theorem PreservedAged.advance (hs : s.Distinct) (h : PreservedAged target s t)
    (hstep : Advance target t u) :
    PreservedAged target s u := by
  have hp := hstep.move.preserved
  have haged : ∀ xs, s.indexes? target Schema.sessions = some xs →
      ∃ ys added, u.indexes? target Schema.sessions = some (ys ++ added) ∧ Aged xs ys := by
    intro xs hx
    obtain ⟨ys, added, ht, ha⟩ := h.aged xs hx
    obtain ⟨hdistinct, -, hmove⟩ := hstep
    cases hmove with
    | grown hg =>
      obtain ⟨added', hu⟩ := hg.indexes Schema.sessions _ ht
      exact ⟨ys, added ++ added', by rw [hu, List.append_assoc], ha⟩
    | expired hx' hg hi hf =>
      obtain rfl := Option.some.inj (hx'.symm.trans ht)
      obtain ⟨zs, added', hzs, hz⟩ :=
        aged_expired (hs.indexes? hx) (hdistinct.indexes? ht) ha hg hi hf
      exact ⟨zs, added', (indexes?_putIndexes_self ..).trans (congrArg some hzs), hz⟩
  refine ⟨⟨hp.elsewhere.trans h.elsewhere, h.databases.trans hp.databases,
    hp.others.trans h.others, h.collections.trans hp.collections, fun xs hx => ?_,
    fun xs hx => ?_⟩, haged⟩
  · obtain ⟨added, ha⟩ := h.credentials xs hx
    obtain ⟨added', ha'⟩ := hp.credentials _ ha
    exact ⟨added ++ added', by rw [ha', List.append_assoc]⟩
  · obtain ⟨ys, added, hu, ha⟩ := haged xs hx
    exact ⟨ys, added, hu, ha.spared⟩

/-- However many calls are made, and by whichever runs, what was there is preserved. -/
theorem preserved_of_evolves (hs : s.Distinct) (h : Evolves target s t) : Preserved target s t :=
  (h.keeps (fun _ _ hstep hk => hk.advance hs hstep) (PreservedAged.refl target s)).toPreserved

end Schema

end Provisioner
