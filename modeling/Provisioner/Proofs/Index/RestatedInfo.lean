import Provisioner.Proofs.Index.SearchPosition

/-!
# Equal values in each other's place

The same index can be described in many ways. A direction or a time to live may be held as a number
or as a flag, a filter may have its entries in another order, uniqueness may be any value that
counts as set, and the keys may be a list of pairs or a document. All of this is up to whoever has
written the description, and nothing that is asked of an index depends on it: whether it has the
options of a declaration, whether it is the first one with given keys, and whether a declaration has
to be reported.

This rests on the equality of values being symmetric and transitive, which it is on values in which
no document repeats a name, and on every comparison being one by equality, by truth, or with null.
The order of the keys counts, and so do their fields, which are not replaced here. The names under
which declarations are reported do differ, since they are made from the directions as they are
written; hence the reports are compared by the positions of the declarations.

What cannot be read stays so, and with the same error. Numbers may be of any kind, and even a `nan`
may occur as long as it stays in its place.

## Main definitions

* `Value.Interchangeable` — the same value, or an equal one
* `Index.Redirected`, `Reheld` — keys with interchangeable directions, and keys of an existing index
  that may also have become a document
* `Info.Restated`, `Definition.Restated` — an index and a declaration with equal values in place of
  some others

## Main results

* `Value.eqv_congr` — equality does not tell interchangeable values apart
* `Index.Reheld.pattern`, `samePattern_congr` — how such keys are read and compared
* `Info.Restated.fits_eq` — an index serves a declaration in both cases or in none
* `Schema.searches_of_restated` — the same is found, and the same is reported
-/

namespace Provisioner

/-! ### Values -/

namespace Value

variable {v v' w w' : Value}

/-- The same value, or an equal one. A value that repeats no name in a document is equal to itself
unless there is a `nan` in it. -/
def Interchangeable (v w : Value) : Prop := v = w ∨ v.eqv w = true

theorem Interchangeable.refl (v : Value) : v.Interchangeable v := .inl rfl

/-- A comparison does not tell interchangeable values apart. -/
theorem Interchangeable.eqv_left (h : v.Interchangeable v') (hv : v.Distinct) (hv' : v'.Distinct)
    (hw : w.Distinct) : v.eqv w = v'.eqv w := by
  rcases h with rfl | h
  · rfl
  · have h' : v'.eqv v = true := hv.eqv_symm hv' h
    exact Bool.eq_iff_iff.2 ⟨hv'.eqv_trans hv hw h', hv.eqv_trans hv' hw h⟩

theorem Interchangeable.eqv_right (h : w.Interchangeable w') (hv : v.Distinct) (hw : w.Distinct)
    (hw' : w'.Distinct) : v.eqv w = v.eqv w' := by
  rcases h with rfl | h
  · rfl
  · have h' : w'.eqv w = true := hw.eqv_symm hw' h
    exact Bool.eq_iff_iff.2 ⟨fun hvw => hv.eqv_trans hw hw' hvw h,
      fun hvw => hv.eqv_trans hw' hw hvw h'⟩

theorem eqv_congr (h : v.Interchangeable v') (h' : w.Interchangeable w') (hv : v.Distinct)
    (hv' : v'.Distinct) (hw : w.Distinct) (hw' : w'.Distinct) : v.eqv w = v'.eqv w' :=
  (h.eqv_left hv hv' hw).trans (h'.eqv_right hv' hw hw')

/-- Only null is interchangeable with null. -/
theorem Interchangeable.isNull_eq (h : v.Interchangeable v') : v.isNull = v'.isNull := by
  rcases h with rfl | h
  · rfl
  · refine Bool.eq_iff_iff.2 ⟨?_, ?_⟩
    · intro hv
      rw [isNull_eq_true_iff] at hv
      subst hv
      rw [null_eqv_iff.1 h]
      rfl
    · intro hv'
      rw [isNull_eq_true_iff] at hv'
      subst hv'
      simpa using h

end Value

/-! ### Keys -/

namespace Index

open Value

variable {p q r s : Value × Value} {ps qs : List (Value × Value)} {item item' keys keys' : Value}
  {xs ys : List Value}

/-- A field with its direction, and with an interchangeable one. -/
def SameField (p q : Value × Value) : Prop := p.1 = q.1 ∧ p.2.Interchangeable q.2

/-- An item of some keys, and the same with an interchangeable direction if it is a pair. -/
inductive RedirectedItem : Value → Value → Prop
  | same (item : Value) : RedirectedItem item item
  | tuple (field : Value) {v w : Value} (h : v.Interchangeable w) :
    RedirectedItem (.tuple [field, v]) (.tuple [field, w])
  | list (field : Value) {v w : Value} (h : v.Interchangeable w) :
    RedirectedItem (.list [field, v]) (.list [field, w])

/-- Keys, and the same keys with interchangeable directions. -/
inductive Redirected : Value → Value → Prop
  | same (keys : Value) : Redirected keys keys
  | list {items items' : List Value} (h : List.Forall₂ RedirectedItem items items') :
    Redirected (.list items) (.list items')
  | tuple {items items' : List Value} (h : List.Forall₂ RedirectedItem items items') :
    Redirected (.tuple items) (.tuple items')
  | doc {entries entries' : List (String × Value)}
    (h : List.Forall₂ (fun e e' => e.1 = e'.1 ∧ e.2.Interchangeable e'.2) entries entries') :
    Redirected (.doc entries) (.doc entries')

/-- Keys of an existing index, and the same keys with interchangeable directions, possibly as a
document where they have been a list of pairs. That the fields of the pairs are different is part of
what a document is. -/
inductive Reheld : Value → Value → Prop
  | redirected {keys keys' : Value} (h : Redirected keys keys') : Reheld keys keys'
  | document {items : List Value} {ps : List (Value × Value)} {entries : List (String × Value)}
    (hp : (Value.list items).pairs = .ok ps)
    (h : List.Forall₂ (fun p e => p.1 = .text e.1 ∧ p.2.Interchangeable e.2) ps entries) :
    Reheld (.list items) (.doc entries)

theorem SameField.refl (p : Value × Value) : SameField p p := ⟨rfl, .refl p.2⟩

/-! #### Reading them -/

theorem RedirectedItem.unpack (h : RedirectedItem item item') :
    AlikeOutcomes SameField item.unpack item'.unpack := by
  cases h with
  | same => exact .refl SameField.refl _
  | tuple field h => exact .ok ⟨rfl, h⟩
  | list field h => exact .ok ⟨rfl, h⟩

theorem alike_unpackAll (h : List.Forall₂ RedirectedItem xs ys) :
    AlikeOutcomes (List.Forall₂ SameField) (unpackAll xs) (unpackAll ys) := by
  induction h with
  | nil => exact .ok .nil
  | cons hi _ ih =>
    exact hi.unpack.bind fun _ _ _ _ hp => ih.bind fun _ _ _ _ hps => .ok (.cons hp hps)

theorem Redirected.items (h : Redirected keys keys') :
    AlikeOutcomes (List.Forall₂ RedirectedItem) keys.items keys'.items := by
  cases h with
  | same => exact .refl (fun items => List.forall₂_same.2 fun item _ => .same item) _
  | list h => exact .ok h
  | tuple h => exact .ok h
  | doc h =>
    refine .ok (List.forall₂_map_left_iff.2 (List.forall₂_map_right_iff.2 ?_))
    exact h.imp fun e e' he => he.1 ▸ .same _

theorem Redirected.pairs (h : Redirected keys keys') :
    AlikeOutcomes (List.Forall₂ SameField) keys.pairs keys'.pairs :=
  h.items.bind fun _ _ _ _ => alike_unpackAll

theorem Redirected.pattern (h : Redirected keys keys') :
    AlikeOutcomes (List.Forall₂ SameField) (pattern keys) (pattern keys') := by
  cases h with
  | same => exact .refl (fun ps => List.forall₂_same.2 fun p _ => .refl p) _
  | list h => exact Redirected.pairs (.list h)
  | tuple h => exact Redirected.pairs (.tuple h)
  | doc h =>
    refine .ok (List.forall₂_map_left_iff.2 (List.forall₂_map_right_iff.2 ?_))
    exact h.imp fun e e' he => ⟨congrArg Value.text he.1, he.2⟩

/-- Keys that are held in another way are read as the same fields, with interchangeable
directions. -/
theorem Reheld.pattern (h : Reheld keys keys') :
    AlikeOutcomes (List.Forall₂ SameField) (pattern keys) (pattern keys') := by
  cases h with
  | redirected h => exact h.pattern
  | @document items ps entries hp h =>
    have hread : Index.pattern (.list items) = .ok ps := hp
    rw [hread]
    exact .ok (List.forall₂_map_right_iff.2 h)

/-! #### Comparing them -/

theorem equalPairs_congr (hpq : SameField p q) (hrs : SameField r s) (hp : p.2.Distinct)
    (hq : q.2.Distinct) (hr : r.2.Distinct) (hs : s.2.Distinct) :
    EqualPairs p r ↔ EqualPairs q s := by
  rw [EqualPairs, EqualPairs, hpq.1, hrs.1, eqv_congr hpq.2 hrs.2 hp hq hr hs]

/-- What is equal to a pair is a pair of equals. -/
theorem pair_eqv_iff :
    (pair p.1 p.2).eqv item = true ↔ ∃ r, item = pair r.1 r.2 ∧ EqualPairs p r := by
  constructor
  · intro h
    obtain ⟨r, rfl⟩ := exists_eq_pair h
    exact ⟨r, rfl, pair_eqv_pair_iff.1 h⟩
  · rintro ⟨r, rfl, h⟩
    exact pair_eqv_pair_iff.2 h

theorem pair_eqv_congr (hpq : SameField p q) (h : RedirectedItem item item') (hp : p.2.Distinct)
    (hq : q.2.Distinct) (hi : item.Distinct) (hi' : item'.Distinct) :
    (pair p.1 p.2).eqv item = (pair q.1 q.2).eqv item' := by
  cases h with
  | same =>
    rw [Bool.eq_iff_iff, pair_eqv_iff, pair_eqv_iff]
    refine exists_congr fun r => and_congr_right fun hr => ?_
    subst hr
    have hr : r.2.Distinct := distinct_tuple_iff.1 hi _ (by simp)
    exact equalPairs_congr hpq (.refl r) hp hq hr hr
  | @tuple field v w h =>
    have hv : v.Distinct := distinct_tuple_iff.1 hi _ (by simp)
    have hw : w.Distinct := distinct_tuple_iff.1 hi' _ (by simp)
    have hrs : SameField (field, v) (field, w) := ⟨rfl, h⟩
    exact Bool.eq_iff_iff.2 (pair_eqv_pair_iff.trans
      ((equalPairs_congr hpq hrs hp hq hv hw).trans pair_eqv_pair_iff.symm))
  | list field h => rfl

/-- Whether two patterns are the same does not depend on which of interchangeable directions they
have. -/
theorem samePattern_congr (hps : List.Forall₂ SameField ps qs)
    (hxs : List.Forall₂ RedirectedItem xs ys) (hp : ∀ p ∈ ps, p.2.Distinct)
    (hq : ∀ q ∈ qs, q.2.Distinct) (hx : ∀ x ∈ xs, x.Distinct) (hy : ∀ y ∈ ys, y.Distinct) :
    Info.samePattern ps xs = Info.samePattern qs ys := by
  rw [Info.samePattern, Info.samePattern]
  induction hps generalizing xs ys with
  | nil => cases hxs <;> rfl
  | cons hpq _ ih =>
    cases hxs with
    | nil => rfl
    | cons hxy hxs =>
      obtain ⟨hp, hps⟩ := List.forall_mem_cons.1 hp
      obtain ⟨hq, hqs⟩ := List.forall_mem_cons.1 hq
      obtain ⟨hx, hxs'⟩ := List.forall_mem_cons.1 hx
      obtain ⟨hy, hys'⟩ := List.forall_mem_cons.1 hy
      rw [List.map_cons, List.map_cons, eqvList, eqvList, pair_eqv_congr hpq hxy hp hq hx hy,
        ih hxs hps hqs hxs' hys']

/-! #### Repeated names -/

@[simp] theorem distinct_directed_iff {fields : List (String × Value)} :
    (directed fields).Distinct ↔ ∀ f ∈ fields, f.2.Distinct := by
  rw [directed, ofPairs, distinct_list_iff, List.forall_mem_map, List.forall_mem_map]
  simp [pair]

/-- Directions repeat no more names than the keys that they are read from. -/
theorem distinct_of_unpackAll (h : ∀ x ∈ xs, x.Distinct) (hp : unpackAll xs = .ok ps) :
    ∀ p ∈ ps, p.2.Distinct := by
  induction xs generalizing ps with
  | nil =>
    obtain rfl : [] = ps := Except.ok.inj hp
    simp
  | cons x xs ih =>
    obtain ⟨hx, hxs⟩ := List.forall_mem_cons.1 h
    obtain ⟨p, hu, hp⟩ := bind_eq_ok_iff.1 hp
    obtain ⟨rest, hr, hp⟩ := bind_eq_ok_iff.1 hp
    obtain rfl : p :: rest = ps := Except.ok.inj hp
    exact List.forall_mem_cons.2 ⟨(hx.of_unpack hu).2, ih hxs hr⟩

theorem distinct_of_pairs (h : keys.Distinct) (hp : keys.pairs = .ok ps) :
    ∀ p ∈ ps, p.2.Distinct := by
  obtain ⟨items, hi, hp⟩ := bind_eq_ok_iff.1 hp
  exact distinct_of_unpackAll (h.of_items hi) hp

theorem distinct_of_pattern (h : keys.Distinct) (hp : pattern keys = .ok ps) :
    ∀ p ∈ ps, p.2.Distinct := by
  cases keys with
  | doc entries =>
    obtain rfl := Except.ok.inj hp
    exact List.forall_mem_map.2 (distinct_doc_iff.1 h).2
  | null | bool | int | float | text | list | tuple => exact distinct_of_pairs h hp

end Index

/-! ### Indexes and declarations -/

/-- Two documents with the same options, as far as these are compared. -/
structure Document.SameOptions (d d' : Document) : Prop where
  uniqueness :
    (Document.field d Index.uniqueness).truth = (Document.field d' Index.uniqueness).truth
  filter : (Document.field d Index.filter).Interchangeable (Document.field d' Index.filter)
  lifetime : (Document.field d Index.ttl).Interchangeable (Document.field d' Index.ttl)

/-- An index, and the same index with other values that are equal. -/
structure Info.Restated (info info' : Info) : Prop where
  distinct : (Value.doc info).Distinct
  distinct' : (Value.doc info').Distinct
  key : Option.Rel Index.Reheld (Assoc.get? info "key") (Assoc.get? info' "key")
  options : Document.SameOptions info info'

/-- A declaration, and the same declaration with other values that are equal. -/
structure Definition.Restated (d d' : Definition) : Prop where
  distinct : (Value.doc d).Distinct
  distinct' : (Value.doc d').Distinct
  keys : Option.Rel Index.Redirected (Assoc.get? d "keys") (Assoc.get? d' "keys")
  options : Document.SameOptions d d'

/-- Keys, and the same keys with interchangeable directions, without repeated names. -/
structure Index.RestatedKeys (keys keys' : Value) : Prop where
  distinct : keys.Distinct
  distinct' : keys'.Distinct
  redirected : Index.Redirected keys keys'

open Index (RestatedKeys SameField)

/-- The keys of a declaration are missing in both cases, or redirected. -/
theorem Definition.Restated.alike_keys {d d' : Definition} (h : d.Restated d') :
    AlikeOutcomes RestatedKeys (Definition.keys d) (Definition.keys d') := by
  have hkeys := h.keys
  rw [Definition.keys, Definition.keys]
  generalize hg : Assoc.get? d "keys" = first at hkeys ⊢
  generalize hg' : Assoc.get? d' "keys" = second at hkeys ⊢
  cases hkeys with
  | none => exact .error _
  | some hk => exact .ok ⟨h.distinct.of_get? hg, h.distinct'.of_get? hg', hk⟩

namespace Info

variable {info info' : Info} {d d' : Definition} {ps : List (Value × Value)}
  {keys keys' : Except Error Value}

theorem distinct_of_pattern (h : (Value.doc info).Distinct) (hp : info.pattern = .ok ps) :
    ∀ p ∈ ps, p.2.Distinct := by
  rw [pattern] at hp
  split at hp
  · contradiction
  · next hg => exact Index.distinct_of_pattern (h.of_get? hg) hp

/-- The keys of an index cannot be read in both cases, or are the same fields with interchangeable
directions. -/
theorem Restated.alike_pattern (h : info.Restated info') :
    AlikeOutcomes (List.Forall₂ SameField) info.pattern info'.pattern := by
  have hkey := h.key
  rw [pattern, pattern]
  generalize Assoc.get? info "key" = first at hkey ⊢
  generalize Assoc.get? info' "key" = second at hkey ⊢
  cases hkey with
  | none => exact .error _
  | some hk => exact hk.pattern

theorem Restated.hasKeys_eq (h : info.Restated info') (hk : AlikeOutcomes RestatedKeys keys keys') :
    info.hasKeys keys = info'.hasKeys keys' := by
  refine (h.alike_pattern.bind fun ps qs hp hq hpq => hk.bind fun k k' _ _ hkeys =>
    hkeys.redirected.items.bind fun xs ys hx hy hxy => .ok ?_).eq
  exact Index.samePattern_congr hpq hxy (distinct_of_pattern h.distinct hp)
    (distinct_of_pattern h.distinct' hq) (hkeys.distinct.of_items hx) (hkeys.distinct'.of_items hy)

theorem Restated.compatible_eq (h : info.Restated info') (hd : d.Restated d') :
    info.compatible d = info'.compatible d' := by
  rw [compatible, compatible, h.options.uniqueness, hd.options.uniqueness,
    Value.eqv_congr h.options.filter hd.options.filter (h.distinct.field _) (h.distinct'.field _)
      (hd.distinct.field _) (hd.distinct'.field _)]

theorem Restated.expiresAs_eq (h : info.Restated info') (hd : d.Restated d') :
    info.expiresAs (Document.field d Index.ttl)
      = info'.expiresAs (Document.field d' Index.ttl) := by
  rw [expiresAs, expiresAs, hd.options.lifetime.isNull_eq,
    Value.eqv_congr h.options.lifetime hd.options.lifetime (h.distinct.field _)
      (h.distinct'.field _) (hd.distinct.field _) (hd.distinct'.field _)]

/-- An index serves a declaration in both cases or in none. -/
theorem Restated.fits_eq (h : info.Restated info') (hd : d.Restated d') :
    info.fits d = info'.fits d' := by
  rw [fits, fits, h.hasKeys_eq hd.alike_keys, h.compatible_eq hd, h.expiresAs_eq hd]

end Info

/-! ### Searches and reports -/

namespace Indexes

variable {xs ys : Indexes} {d d' : Definition} {ds es : List Definition} {collection : String}

/-- Indexes that are restated one by one. -/
def Restated (xs ys : Indexes) : Prop := List.Forall₂ (fun x y => x.2.Restated y.2) xs ys

theorem Restated.satisfy_eq (h : xs.Restated ys) (hd : d.Restated d') :
    satisfy d xs = satisfy d' ys := by
  induction h with
  | nil => rfl
  | cons hx _ ih => rw [satisfy, satisfy, hx.fits_eq hd, ih]

/-- Whether a declaration has a label does not depend on how its keys are written, although the
label does. -/
theorem alike_label (hd : d.Restated d') (collection : String) :
    AlikeOutcomes (fun _ _ => True) (label collection d) (label collection d') := by
  refine hd.alike_keys.bind fun keys keys' _ _ hkeys => ?_
  have hname : AlikeOutcomes (fun _ _ => True) (Index.defaultName keys) (Index.defaultName keys') :=
    hkeys.redirected.pairs.map fun _ _ _ => trivial
  exact hname.bind fun _ _ _ _ _ => .ok trivial

/-- A declaration is reported in both cases or in none. -/
theorem Restated.alike_absent (h : xs.Restated ys) (hd : d.Restated d') (collection : String) :
    AlikeOutcomes (fun report report' => report.isEmpty = report'.isEmpty)
      (absent collection xs d) (absent collection ys d') := by
  rw [absent, absent, h.satisfy_eq hd]
  cases satisfy d' ys with
  | error e => exact .error e
  | ok fit =>
    cases fit with
    | true => exact .ok rfl
    | false => exact (alike_label hd collection).bind fun _ _ _ _ _ => .ok rfl

/-- The same declarations are reported. -/
theorem Restated.reported_eq (h : xs.Restated ys) (hds : List.Forall₂ Definition.Restated ds es)
    (collection : String) : reported collection xs ds = reported collection ys es := by
  induction hds with
  | nil => rfl
  | cons hd _ ih =>
    have hserved := ((h.alike_absent hd collection).map fun _ _ hr => hr).eq
    rw [reported, reported, hserved, ih]

/-- The same index is found. -/
theorem Restated.place?_eq {keys keys' : Value} (h : xs.Restated ys)
    (hk : RestatedKeys keys keys') :
    place? (Info.hasKeys · (.ok keys)) xs = place? (Info.hasKeys · (.ok keys')) ys :=
  place?_congr (h.imp fun _ _ hx => hx.hasKeys_eq (.ok hk))

end Indexes

namespace Schema

open Attempt Procedure

variable {σ : Type} {answer : Handler σ} {a b : σ} {xs ys : Indexes} {ds es : List Definition}

/-- **Equal values can stand in for each other.** Where indexes and declarations are restated with
equal values, the same indexes have the options of the same declarations; the search for keys, which
may be restated as well, comes to the same position, or to none, or fails with the same error; and
so do the reports, which have the same declarations in them. -/
theorem searches_of_restated (answer : Handler σ) (database collection : String)
    (hl : (answer (.listIndexes database collection) a).1 = .ok xs)
    (hl' : (answer (.listIndexes database collection) b).1 = .ok ys) (hxs : xs.Restated ys)
    (hds : List.Forall₂ Definition.Restated ds es) :
    List.Forall₂ (fun x y => List.Forall₂ (fun d e => x.2.compatible d = y.2.compatible e) ds es)
      xs ys
    ∧ (∀ keys keys', RestatedKeys keys keys' → ∃ place,
      Indexes.place? (Info.hasKeys · (.ok keys)) xs = place
        ∧ Indexes.place? (Info.hasKeys · (.ok keys')) ys = place
        ∧ result answer (findIndex database collection keys) a = xs.at? <$> place
        ∧ result answer (findIndex database collection keys') b = ys.at? <$> place)
    ∧ ∃ places,
      Indexes.reported collection xs ds = places
        ∧ Indexes.reported collection ys es = places
        ∧ result answer (missingIndexes database collection ds) a
          = Indexes.titles collection ds <$> places
        ∧ result answer (missingIndexes database collection es) b
          = Indexes.titles collection es <$> places := by
  have hlisted : result answer (call (.listIndexes database collection)) a = .ok xs := hl
  have hlisted' : result answer (call (.listIndexes database collection)) b = .ok ys := hl'
  refine ⟨?_, fun keys keys' hk => ⟨_, hxs.place?_eq hk, rfl, ?_, ?_⟩,
    ⟨_, hxs.reported_eq hds collection, rfl, ?_, ?_⟩⟩
  · exact hxs.imp fun _ _ hx => hds.imp fun _ _ hd => hx.compatible_eq hd
  · rw [findIndex, result_bind_of_ok hlisted, result_require, Indexes.find?_eq_at?,
      hxs.place?_eq hk]
  · rw [findIndex, result_bind_of_ok hlisted', result_require, Indexes.find?_eq_at?]
  · rw [missingIndexes, result_bind_of_ok hlisted, result_require, Indexes.missing_eq_titles,
      hxs.reported_eq hds]
  · rw [missingIndexes, result_bind_of_ok hlisted', result_require, Indexes.missing_eq_titles]

/-- Two fields with their directions, of which the first one is given. -/
def recentFields (one : Value) : List (String × Value) :=
  [("user_id", one), ("expires_at", .int (-1))]

/-- Two indexes that hold their keys as pairs. -/
def pairedIndexes : Indexes :=
  [("email_1", [("key", Index.directed [("email", .int 1)])]),
    ("recent", [("key", Index.directed (recentFields (.int 1))), unique,
      among [("deleted_at", .null), ("live", .int 1)], expiring 1])]

/-- The same indexes with documents for keys, and with flags for numbers or otherwise. -/
def documentedIndexes : Indexes :=
  [("email_1", [("key", .doc [("email", .bool true)])]),
    ("recent", [("key", .doc (recentFields (.bool true))), (Index.uniqueness, .text "yes"),
      among [("live", .bool true), ("deleted_at", .null)], (Index.ttl, .bool true)])]

/-- Two declarations, with some value wherever there may be a one. -/
def recentDeclared (one : Value) : List Definition :=
  [[("keys", Index.directed (recentFields one)), (Index.uniqueness, one),
      among [("live", one), ("deleted_at", .null)], (Index.ttl, one)],
    [("keys", Index.directed [("username", one)])]]

/-- A server on which the users have some indexes. -/
def usersServer (xs : Indexes) : Server where
  store := [("appdb", [("users", xs)])]
  clients := 0

theorem one_interchangeable : (Value.int 1).Interchangeable (.bool true) := .inr rfl

theorem restatedKeys_recentFields :
    RestatedKeys (Index.directed (recentFields (.int 1)))
      (Index.directed (recentFields (.bool true))) where
  distinct := by simp [recentFields, -Prod.forall]
  distinct' := by simp [recentFields, -Prod.forall]
  redirected := .list (.cons (.tuple _ one_interchangeable) (.cons (.same _) .nil))

theorem distinct_recentDeclared {one : Value} (h : one.Distinct) :
    ∀ d ∈ recentDeclared one, (Value.doc d).Distinct := by
  simp [recentDeclared, recentFields, among, Assoc.NodupKeys, h, Index.uniqueness, Index.filter,
    Index.ttl, -Prod.forall]

theorem restated_recentDeclared :
    List.Forall₂ Definition.Restated (recentDeclared (.int 1)) (recentDeclared (.bool true)) := by
  have hnumber := distinct_recentDeclared (.int 1)
  have hflag := distinct_recentDeclared (.bool true)
  simp only [recentDeclared, List.forall_mem_cons] at hnumber hflag
  refine .cons ⟨hnumber.1, hflag.1, ?_, ?_⟩ (.cons ⟨hnumber.2.1, hflag.2.1, ?_, ?_⟩ .nil)
  · exact .some restatedKeys_recentFields.redirected
  · exact ⟨rfl, .inr rfl, one_interchangeable⟩
  · exact .some (.list (.cons (.tuple _ one_interchangeable) .nil))
  · exact ⟨rfl, .refl _, .refl _⟩

theorem distinct_pairedIndexes :
    ∀ x ∈ pairedIndexes ++ documentedIndexes, (Value.doc x.2).Distinct := by
  simp [pairedIndexes, documentedIndexes, recentFields, among, unique, expiring, Assoc.NodupKeys,
    Index.uniqueness, Index.filter, Index.ttl, -Prod.forall]

theorem restated_pairedIndexes : pairedIndexes.Restated documentedIndexes := by
  have h := distinct_pairedIndexes
  simp only [pairedIndexes, documentedIndexes, List.forall_mem_append, List.forall_mem_cons] at h
  obtain ⟨⟨hemail, hrecent, -⟩, hemail', hrecent', -⟩ := h
  refine .cons ⟨hemail, hemail', ?_, ?_⟩ (.cons ⟨hrecent, hrecent', ?_, ?_⟩ .nil)
  · exact .some (.document (Value.pairs_ofPairs _) (.cons ⟨rfl, one_interchangeable⟩ .nil))
  · exact ⟨rfl, .refl _, .refl _⟩
  · refine .some (.document (Value.pairs_ofPairs _) ?_)
    exact .cons ⟨rfl, one_interchangeable⟩ (.cons ⟨rfl, .refl _⟩ .nil)
  · exact ⟨rfl, .inr rfl, one_interchangeable⟩

/-- Both searches come to the second index, and both reports to the second declaration, although its
label is not the same. -/
theorem searches_documentedIndexes :
    (Server.answer (.listIndexes "appdb" "users") (usersServer pairedIndexes)).1 = .ok pairedIndexes
      ∧ (Server.answer (.listIndexes "appdb" "users") (usersServer documentedIndexes)).1
        = .ok documentedIndexes
      ∧ pairedIndexes.Restated documentedIndexes
      ∧ List.Forall₂ Definition.Restated (recentDeclared (.int 1)) (recentDeclared (.bool true))
      ∧ RestatedKeys (Index.directed (recentFields (.int 1)))
        (Index.directed (recentFields (.bool true)))
      ∧ result Server.answer
          (findIndex "appdb" "users" (Index.directed (recentFields (.bool true))))
          (usersServer documentedIndexes) = .ok documentedIndexes[1]?
      ∧ result Server.answer (missingIndexes "appdb" "users" (recentDeclared (.int 1)))
          (usersServer pairedIndexes) = .ok ["users.username_1"]
      ∧ result Server.answer (missingIndexes "appdb" "users" (recentDeclared (.bool true)))
          (usersServer documentedIndexes) = .ok ["users.username_True"] := by
  have hl : (Server.answer (.listIndexes "appdb" "users") (usersServer pairedIndexes)).1
      = .ok pairedIndexes := rfl
  have hl' : (Server.answer (.listIndexes "appdb" "users") (usersServer documentedIndexes)).1
      = .ok documentedIndexes := rfl
  obtain ⟨-, hfound, places, hplaces, -, hmissing, hmissing'⟩ :=
    searches_of_restated Server.answer "appdb" "users" hl hl' restated_pairedIndexes
      restated_recentDeclared
  obtain ⟨place, hplace, -, -, hfind⟩ := hfound _ _ restatedKeys_recentFields
  obtain rfl : .ok (some 1) = place := hplace
  obtain rfl : .ok [1] = places := hplaces
  exact ⟨hl, hl', restated_pairedIndexes, restated_recentDeclared, restatedKeys_recentFields, hfind,
    hmissing, hmissing'⟩

end Schema

end Provisioner
