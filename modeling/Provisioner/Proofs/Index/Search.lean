import Provisioner.Proofs.Assoc.Order
import Provisioner.Proofs.Error.Outcome
import Provisioner.Index.Compare

/-!
# What the searches find

Both searches go through the indexes in order, stop at the first that fits, and fail at an index
whose keys cannot be read if they come to it. The search for keys therefore says something about
every index before the one that it finds, and the search for an index that serves a declaration
can never come to the end if there is one.

## Main definitions

* `Indexes.Fit` — some index serves a declaration

## Main results

* `Indexes.find?_eq_some_iff`, `find?_eq_none_iff` — what the search for keys says
* `Indexes.satisfy_of_fit`, `satisfy_ne_false` — what the search for a serving index says
* `Indexes.missing_eq_nil`, `missing_eq_nil_of_ok` — nothing is missing if everything is served
* `Info.fits_set_ttl` — an index without a time to live serves as before when it gets one
-/

namespace Provisioner

namespace Info

variable {info : Info} {d : Definition} {keys seconds : Value}

/-- The keys of an index are not affected by its other entries. -/
theorem hasKeys_set {name : String} (info : Info) (value : Value) (keys : Except Error Value)
    (h : name ≠ "key") : hasKeys (Assoc.set info name value) keys = hasKeys info keys := by
  simp only [hasKeys, pattern, Assoc.get?_set_of_ne value h.symm]

theorem field_set_self (info : Info) (name : String) (value : Value) :
    Document.field (Assoc.set info name value) name = value := by
  simp [Document.field]

theorem field_set_of_ne {name other : String} (info : Info) (value : Value) (h : other ≠ name) :
    Document.field (Assoc.set info name value) other = Document.field info other := by
  simp [Document.field, Assoc.get?_set_of_ne value h]

/-- Uniqueness and filter are not affected by the time to live. -/
theorem compatible_set_ttl (info : Info) (seconds : Value) (d : Definition) :
    compatible (Assoc.set info Index.ttl seconds) d = compatible info d := by
  simp only [compatible, field_set_of_ne info seconds (show Index.uniqueness ≠ Index.ttl by decide),
    field_set_of_ne info seconds (show Index.filter ≠ Index.ttl by decide)]

/-- An index serves a declaration if it has the keys, the options and the time to live. -/
theorem fits_eq_true_iff : fits info d = .ok true ↔ hasKeys info (Definition.keys d) = .ok true
    ∧ compatible info d = true ∧ expiresAs info (Document.field d Index.ttl) = true := by
  rw [fits, bind_eq_ok_iff]
  constructor
  · rintro ⟨same, hk, h⟩
    have h : (same && compatible info d && expiresAs info (Document.field d Index.ttl)) = true :=
      Except.ok.inj h
    simp only [Bool.and_eq_true] at h
    exact ⟨h.1.1 ▸ hk, h.1.2, h.2⟩
  · rintro ⟨hk, hc, he⟩
    exact ⟨true, hk, by rw [hc, he]; rfl⟩

/-- Without a time to live an index only serves a declaration that asks for none. -/
theorem ttl_eq_null_of_expiresAs (hn : Document.field info Index.ttl = .null)
    (h : expiresAs info seconds = true) : seconds = .null := by
  rw [expiresAs, hn] at h
  cases seconds <;> simp_all [Value.isNull, Value.eqv, Value.sameNumber, Value.number?]

/-- An index without a time to live serves every declaration as before when it gets one. -/
theorem fits_set_ttl (hn : Document.field info Index.ttl = .null) (h : fits info d = .ok true) :
    fits (Assoc.set info Index.ttl seconds) d = .ok true := by
  obtain ⟨hk, hc, he⟩ := fits_eq_true_iff.1 h
  refine fits_eq_true_iff.2 ⟨?_, ?_, ?_⟩
  · rw [hasKeys_set info seconds _ (by decide)]
    exact hk
  · rw [compatible_set_ttl]
    exact hc
  · rw [expiresAs, ttl_eq_null_of_expiresAs hn he]
    rfl

/-- If it can be told whether an index without a time to live serves a declaration, then so it can
when it gets one, and it serves if it has served before. -/
theorem fits_set_ttl_of_ok {fit : Bool} (hn : Document.field info Index.ttl = .null)
    (h : fits info d = .ok fit) (seconds : Value) :
    ∃ fit', fits (Assoc.set info Index.ttl seconds) d = .ok fit' ∧ (fit = true → fit' = true) := by
  cases fit with
  | true => exact ⟨true, fits_set_ttl hn h, fun _ => rfl⟩
  | false =>
    obtain ⟨same, hk, -⟩ := bind_eq_ok_iff.1 h
    have hk' : hasKeys (Assoc.set info Index.ttl seconds) (Definition.keys d) = .ok same := by
      rwa [hasKeys_set info seconds _ (by decide)]
    exact ⟨_, by rw [fits, hk']; rfl, nofun⟩

/-- Whether an index serves a declaration can be told if its keys and those of the declaration can
be read. -/
theorem fits_of_wellFormed {items : List Value} (hw : info.WellFormed)
    (hk : Definition.keys d = .ok keys) (hi : keys.items = .ok items) :
    ∃ b, fits info d = .ok b := by
  obtain ⟨ps, hp⟩ := hw
  have hs : hasKeys info (Definition.keys d) = .ok (samePattern ps items) := by
    rw [hasKeys, hp, hk]
    refine bind_eq_ok_iff.2 ⟨ps, rfl, bind_eq_ok_iff.2 ⟨keys, rfl, ?_⟩⟩
    exact bind_eq_ok_iff.2 ⟨items, hi, rfl⟩
  exact ⟨_, by rw [fits, hs]; rfl⟩

/-- A declaration of which an index has the keys has readable keys. -/
theorem keys_of_hasKeys (h : hasKeys info (Definition.keys d) = .ok true) :
    ∃ keys items, Definition.keys d = .ok keys ∧ keys.items = .ok items := by
  obtain ⟨ps, -, h⟩ := bind_eq_ok_iff.1 h
  obtain ⟨keys, hk, h⟩ := bind_eq_ok_iff.1 h
  obtain ⟨items, hi, -⟩ := bind_eq_ok_iff.1 h
  exact ⟨keys, items, hk, hi⟩

end Info

namespace Indexes

variable {xs : Indexes} {d : Definition} {keys : Value} {e : String × Info}

/-! ### The search for keys -/

theorem find?_eq_some_iff : find? keys xs = .ok (some e) ↔
    ∃ before after, xs = before ++ e :: after ∧ Info.hasKeys e.2 (.ok keys) = .ok true
      ∧ ∀ x ∈ before, Info.hasKeys x.2 (.ok keys) = .ok false := by
  induction xs with
  | nil => simp [find?]
  | cons x xs ih =>
    rw [find?, bind_eq_ok_iff]
    constructor
    · rintro ⟨same, hs, h⟩
      cases same with
      | true =>
        obtain rfl : x = e := by simpa using Except.ok.inj h
        exact ⟨[], xs, rfl, hs, by simp⟩
      | false =>
        obtain ⟨before, after, rfl, he, hb⟩ := ih.1 h
        exact ⟨x :: before, after, rfl, he, List.forall_mem_cons.2 ⟨hs, hb⟩⟩
    · rintro ⟨before, after, hxs, he, hb⟩
      cases before with
      | nil =>
        obtain ⟨rfl, rfl⟩ := List.cons.inj hxs
        exact ⟨true, he, rfl⟩
      | cons y before =>
        obtain ⟨rfl, rfl⟩ := List.cons.inj hxs
        obtain ⟨hx, hb⟩ := List.forall_mem_cons.1 hb
        exact ⟨false, hx, ih.2 ⟨before, after, rfl, he, hb⟩⟩

theorem find?_eq_none_iff : find? keys xs = .ok none ↔
    ∀ x ∈ xs, Info.hasKeys x.2 (.ok keys) = .ok false := by
  induction xs with
  | nil => simp [find?]
  | cons x xs ih =>
    rw [find?, bind_eq_ok_iff, List.forall_mem_cons]
    constructor
    · rintro ⟨same, hs, h⟩
      cases same with
      | true => exact nomatch Except.ok.inj h
      | false => exact ⟨hs, ih.1 h⟩
    · rintro ⟨hx, h⟩
      exact ⟨false, hx, ih.2 h⟩

theorem mem_of_find? (h : find? keys xs = .ok (some e)) : e ∈ xs := by
  obtain ⟨before, after, rfl, -, -⟩ := find?_eq_some_iff.1 h
  simp

theorem hasKeys_of_find? (h : find? keys xs = .ok (some e)) :
    Info.hasKeys e.2 (.ok keys) = .ok true := by
  obtain ⟨-, -, -, he, -⟩ := find?_eq_some_iff.1 h
  exact he

/-- What has been found is found again among more indexes. -/
theorem find?_append_of_some (h : find? keys xs = .ok (some e)) (added : Indexes) :
    find? keys (xs ++ added) = .ok (some e) := by
  obtain ⟨before, after, rfl, he, hb⟩ := find?_eq_some_iff.1 h
  exact find?_eq_some_iff.2 ⟨before, after ++ added, by simp, he, hb⟩

/-- Where nothing has been found, an index that is added is found. -/
theorem find?_append_of_none (h : find? keys xs = .ok none)
    (he : Info.hasKeys e.2 (.ok keys) = .ok true) : find? keys (xs ++ [e]) = .ok (some e) :=
  find?_eq_some_iff.2 ⟨xs, [], rfl, he, find?_eq_none_iff.1 h⟩

/-- What is found among more indexes has been found before, or is one of those that have been
added. -/
theorem find?_append_eq_some {added : Indexes} (h : find? keys (xs ++ added) = .ok (some e)) :
    find? keys xs = .ok (some e) ∨ find? keys xs = .ok none ∧ e ∈ added := by
  induction xs with
  | nil => exact .inr ⟨rfl, mem_of_find? h⟩
  | cons x xs ih =>
    rw [List.cons_append, find?, bind_eq_ok_iff] at h
    obtain ⟨same, hx, h⟩ := h
    rw [find?, hx]
    cases same with
    | true => exact .inl h
    | false => exact ih h

/-- A change that leaves the keys of all indexes alone does not mislead the search. -/
theorem find?_map {f : String × Info → String × Info}
    (hf : ∀ e ∈ xs, Info.hasKeys (f e).2 (.ok keys) = Info.hasKeys e.2 (.ok keys)) :
    find? keys (xs.map f) = Option.map f <$> find? keys xs := by
  induction xs with
  | nil => rfl
  | cons x xs ih =>
    obtain ⟨hx, hxs⟩ := List.forall_mem_cons.1 hf
    simp only [List.map_cons, find?, hx, ih hxs]
    cases Info.hasKeys x.2 (.ok keys) with
    | error e => rfl
    | ok same => cases same <;> rfl

/-- The search for keys when the index of a name has got a time to live. -/
theorem find?_set_ttl {name : String} {info : Info} (hx : Assoc.NodupKeys xs)
    (hg : Assoc.get? xs name = some info) (hf : find? keys xs = .ok (some e)) (seconds : Value) :
    find? keys (Assoc.set xs name (Assoc.set info Index.ttl seconds))
      = .ok (some (if e.1 = name then (name, Assoc.set info Index.ttl seconds) else e)) := by
  rw [Assoc.set_eq_map hx (Assoc.mem_keys_of_get? hg), find?_map, hf]
  · rfl
  · intro x hm
    by_cases hn : x.1 = name
    · have hxi : x.2 = info := Option.some.inj ((Assoc.get?_of_mem hx hm).symm.trans (hn ▸ hg))
      rw [if_pos hn, Info.hasKeys_set _ _ _ (by decide), hxi]
    · rw [if_neg hn]

/-! ### The search for an index that serves -/

/-- Some index serves a declaration. -/
def Fit (xs : Indexes) (d : Definition) : Prop := ∃ e ∈ xs, Info.fits e.2 d = .ok true

/-- The search cannot come to its end if there is something to find. -/
theorem satisfy_ne_false (h : Fit xs d) : satisfy d xs ≠ .ok false := by
  obtain ⟨e, he, hf⟩ := h
  induction xs with
  | nil => simp at he
  | cons x xs ih =>
    rw [satisfy, Ne, bind_eq_ok_iff]
    rintro ⟨fit, hx, h⟩
    cases fit with
    | true => exact nomatch Except.ok.inj h
    | false =>
      rcases List.mem_cons.1 he with rfl | he
      · exact nomatch Except.ok.inj (hf.symm.trans hx)
      · exact ih he h

/-- If all keys can be read, then the search comes to an end or finds something. -/
theorem satisfy_of_wellFormed {items : List Value} (hk : Definition.keys d = .ok keys)
    (hi : keys.items = .ok items) (hw : ∀ e ∈ xs, Info.WellFormed e.2) :
    ∃ b, satisfy d xs = .ok b := by
  induction xs with
  | nil => exact ⟨false, rfl⟩
  | cons x xs ih =>
    obtain ⟨hx, hw⟩ := List.forall_mem_cons.1 hw
    obtain ⟨fit, hf⟩ := Info.fits_of_wellFormed hx hk hi
    simp only [satisfy, hf]
    cases fit with
    | true => exact ⟨true, rfl⟩
    | false => exact ih hw

theorem satisfy_of_fit (hw : ∀ e ∈ xs, Info.WellFormed e.2) (h : Fit xs d) :
    satisfy d xs = .ok true := by
  obtain ⟨e, -, hf⟩ := id h
  obtain ⟨keys, items, hk, hi⟩ := Info.keys_of_hasKeys (Info.fits_eq_true_iff.1 hf).1
  obtain ⟨b, hb⟩ := satisfy_of_wellFormed hk hi hw
  cases b with
  | true => exact hb
  | false => exact absurd hb (satisfy_ne_false h)

/-- What the search finds is there. -/
theorem fit_of_satisfy (h : satisfy d xs = .ok true) : Fit xs d := by
  induction xs with
  | nil => exact nomatch h
  | cons x xs ih =>
    rw [satisfy, bind_eq_ok_iff] at h
    obtain ⟨fit, hx, h⟩ := h
    cases fit with
    | true => exact ⟨x, List.mem_cons_self, hx⟩
    | false =>
      obtain ⟨e, he, hf⟩ := ih h
      exact ⟨e, List.mem_cons_of_mem _ he, hf⟩

/-- The search finds among more indexes what it has found before. -/
theorem satisfy_append (h : satisfy d xs = .ok true) (added : Indexes) :
    satisfy d (xs ++ added) = .ok true := by
  induction xs with
  | nil => exact nomatch h
  | cons x xs ih =>
    rw [satisfy, bind_eq_ok_iff] at h
    obtain ⟨fit, hx, h⟩ := h
    rw [List.cons_append, satisfy, hx]
    cases fit with
    | true => rfl
    | false => exact ih h

/-- An index that gets a time to live where it had none is not lost to the search. -/
theorem satisfy_set_ttl {name : String} {info : Info} (hx : Assoc.NodupKeys xs)
    (hg : Assoc.get? xs name = some info) (hn : Document.field info Index.ttl = .null)
    (seconds : Value) (h : satisfy d xs = .ok true) :
    satisfy d (Assoc.set xs name (Assoc.set info Index.ttl seconds)) = .ok true := by
  rw [Assoc.set_eq_map hx (Assoc.mem_keys_of_get? hg)]
  have hinfo : ∀ e ∈ xs, e.1 = name → e.2 = info := fun e he hname =>
    Option.some.inj ((Assoc.get?_of_mem hx he).symm.trans (hname ▸ hg))
  clear hx hg
  induction xs with
  | nil => exact nomatch h
  | cons x xs ih =>
    obtain ⟨hxinfo, hinfo⟩ := List.forall_mem_cons.1 hinfo
    rw [satisfy, bind_eq_ok_iff] at h
    obtain ⟨fit, hx, h⟩ := h
    have hrest : fit = false → satisfy d (xs.map fun e => if e.1 = name then
        (name, Assoc.set info Index.ttl seconds) else e) = .ok true := by
      rintro rfl
      exact ih h hinfo
    rw [List.map_cons, satisfy]
    by_cases hname : x.1 = name
    · obtain rfl := hxinfo hname
      rw [if_pos hname]
      obtain ⟨fit', hx', hfits⟩ := Info.fits_set_ttl_of_ok hn hx seconds
      rw [hx']
      cases fit' with
      | true => rfl
      | false => exact hrest (by simpa using hfits)
    · rw [if_neg hname, hx]
      cases fit with
      | true => rfl
      | false => exact hrest rfl

/-! ### What is missing -/

theorem missing_eq_nil {collection : String} {ds : List Definition}
    (h : ∀ d ∈ ds, satisfy d xs = .ok true) : missing collection xs ds = .ok [] := by
  induction ds with
  | nil => rfl
  | cons d ds ih =>
    obtain ⟨hd, h⟩ := List.forall_mem_cons.1 h
    simp only [missing, absent, hd, ih h]
    rfl

/-- If nothing is missing, then the search has found an index for every declaration. -/
theorem satisfy_of_missing_eq_nil {collection : String} {ds : List Definition}
    (h : missing collection xs ds = .ok []) : ∀ d ∈ ds, satisfy d xs = .ok true := by
  induction ds with
  | nil => simp
  | cons d ds ih =>
    obtain ⟨first, hf, h⟩ := bind_eq_ok_iff.1 h
    obtain ⟨others, ho, h⟩ := bind_eq_ok_iff.1 h
    obtain ⟨rfl, rfl⟩ := List.append_eq_nil_iff.1 (Except.ok.inj h)
    refine List.forall_mem_cons.2 ⟨?_, ih ho⟩
    obtain ⟨fit, hs, hf⟩ := bind_eq_ok_iff.1 hf
    cases fit with
    | true => exact hs
    | false =>
      obtain ⟨l, -, hl⟩ := bind_eq_ok_iff.1 hf
      exact nomatch Except.ok.inj hl

/-- Nothing is ever reported missing that is served. -/
theorem missing_eq_nil_of_ok {collection : String} {ds : List Definition} {names : List String}
    (h : ∀ d ∈ ds, Fit xs d) (hm : missing collection xs ds = .ok names) : names = [] := by
  induction ds generalizing names with
  | nil => exact (Except.ok.inj hm).symm
  | cons d ds ih =>
    obtain ⟨hd, h⟩ := List.forall_mem_cons.1 h
    obtain ⟨first, hf, hm⟩ := bind_eq_ok_iff.1 hm
    obtain ⟨others, ho, hm⟩ := bind_eq_ok_iff.1 hm
    obtain rfl := ih h ho
    obtain ⟨fit, hs, hf⟩ := bind_eq_ok_iff.1 hf
    cases fit with
    | true =>
      obtain rfl : [] = first := Except.ok.inj hf
      exact (Except.ok.inj hm).symm
    | false => exact absurd hs (satisfy_ne_false hd)

end Indexes

end Provisioner
