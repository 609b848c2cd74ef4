import Provisioner.Proofs.Schema.IndexStep
import Provisioner.Proofs.Error.Failure

/-!
# A server that keeps its word

Of a careful server nothing is known but what it may not do. A faithful one does what it is asked
for: the indexes of a collection are always told, an index that is granted is there afterwards,
with the keys and options of the request, and so is a time to live. A request may still be refused.

Whether a server can keep its word depends on what it is asked for: an index whose options contain
other keys than those requested, or a value that is not equal to itself, cannot be there as
requested. The declarations for which a server is faithful are therefore part of the notion.

## Main definitions

* `Info.Granted` — an index is there as it has been asked for
* `Handler.Faithful` — a careful handler that keeps its word for some declarations
* `Definition.Plain` — a declaration for which the server can keep its word

## Main results

* `Server.faithful` — the server is faithful for plain declarations
* `Schema.plain_declared` — the declared indexes are plain
-/

namespace Provisioner

open Store

/-- The entries of an index that are not options of a request: the version, the keys, and the name,
which is kept outside. -/
def Info.reserved : List String := ["v", "key", "name"]

/-- An index with the keys and the options of a request. -/
structure Info.Granted (info : Info) (keys : Value) (options : Document) : Prop where
  hasKeys : info.hasKeys (.ok keys) = .ok true
  options : ∀ option, option ∉ Info.reserved →
    (Document.field info option).eqv (Document.field options option) = true

/-- An index that exists as it is asked for is there as it has been asked for. -/
theorem Indexes.Repeated.granted {xs : Indexes} {name : String} {ps : List (Value × Value)}
    {options : Document} (hx : xs.Distinct)
    (h : Repeated xs name ps (Assoc.erase options "name")) :
    ∃ info, Assoc.get? xs name = some info ∧ info.Granted (Value.ofPairs ps) options := by
  obtain ⟨info, hg, hp, ho⟩ := h
  refine ⟨info, hg, hasKeys_ofPairs_iff.2 hp, fun option hr => ?_⟩
  simp only [Info.reserved, List.mem_cons, List.not_mem_nil, or_false, not_or] at hr
  have he := field_eqv_of_repeated (hx.of_get? hg) ho hr.1 hr.2.1
  rwa [Document.field, Document.field, Assoc.get?_erase_of_ne hr.2.2] at he

/-- A careful handler under which every listing of indexes succeeds, and whatever is granted is
there afterwards, for the declarations `Asked`. No call fails with the error about missing
declarations, which is this library's own. -/
structure Handler.Faithful {σ : Type} (answer : Handler σ) (store : σ → Store)
    (Asked : Definition → Prop) : Prop extends Handler.Careful answer store where
  listed : ∀ database collection a,
    (answer (.listIndexes database collection) a).1 = .ok ((store a).indexes database collection)
  created : ∀ database collection a d keys, (store a).Distinct → Asked d →
    Definition.keys d = .ok keys →
    (answer (.createIndex database collection keys (Definition.options d)) a).1 = .ok () →
    ∃ e ∈ (store (answer
        (.createIndex database collection keys (Definition.options d)) a).2).indexes
          database collection, Info.Granted e.2 keys (Definition.options d)
  expired : ∀ database collection a index seconds,
    (answer (.expireIndex database collection index seconds) a).1 = .ok () →
    ∃ xs info, (store a).indexes? database collection = some xs ∧ Assoc.get? xs index = some info
      ∧ store (answer (.expireIndex database collection index seconds) a).2
        = (store a).putIndexes database collection
            (Assoc.set xs index (Assoc.set info Index.ttl seconds))
  foreign : ∀ (c : Call) a, Fails Error.Foreign (answer c a).1

theorem Handler.Faithful.listed_of_indexes? {σ : Type} {answer : Handler σ} {store : σ → Store}
    {Asked : Definition → Prop} (h : answer.Faithful store Asked) {database collection : String}
    {a : σ} {xs : Indexes} (hx : (store a).indexes? database collection = some xs) :
    (answer (.listIndexes database collection) a).1 = .ok xs :=
  (h.listed ..).trans (congrArg Except.ok (indexes_of_indexes? hx))

/-- Keys that are a list of pairs, values that are equal to themselves, and no option in the place
of the version or the keys. -/
structure Definition.Plain (d : Definition) : Prop where
  nodup : Assoc.NodupKeys d
  keys : ∃ ps, Definition.keys d = .ok (Value.ofPairs ps)
  comparable : ∀ e ∈ d, e.2.eqv e.2 = true
  unreserved : ∀ name ∈ ["v", "key"], name ∉ Assoc.keys d

/-- A declaration whose time to live can be compared: it is equal to itself. -/
def Definition.Comparable (d : Definition) : Prop :=
  (Document.field d Index.ttl).eqv (Document.field d Index.ttl) = true

/-- How a request for a declaration is read: its keys, these as pairs, and the name of the
index. -/
structure Definition.Request (d : Definition) (keys : Value) (ps : List (Value × Value))
    (name : String) : Prop where
  declared : Definition.keys d = .ok keys
  pattern : Index.pattern keys = .ok ps
  named : Indexes.requestedName keys (Definition.options d) = .ok name

/-! ### Plain declarations -/

namespace Definition

variable {d : Definition} {name option : String} {ps : List (Value × Value)}

theorem get?_keys_iff {keys : Value} :
    Definition.keys d = .ok keys ↔ Assoc.get? d "keys" = some keys := by
  rw [Definition.keys]
  cases Assoc.get? d "keys" <;> simp

/-- Every option has the value that the declaration has for it. -/
theorem field_options (d : Definition) (h : option ≠ "keys") :
    Document.field (options d) option = Document.field d option := by
  rw [Document.field, options, Assoc.get?_erase_of_ne h, Document.field]

theorem Plain.eqv_field (h : Plain d) (option : String) :
    (Document.field d option).eqv (Document.field d option) = true := by
  cases hg : Assoc.get? d option with
  | none => simp [Document.field, hg]
  | some v => simpa [Document.field, hg] using h.comparable _ (Assoc.mem_of_get? hg)

theorem Plain.eqv_options (h : Plain d) (option : String) :
    (Document.field (options d) option).eqv (Document.field (options d) option) = true := by
  cases hg : Assoc.get? (options d) option with
  | none => simp [Document.field, hg]
  | some v =>
    have hm := List.mem_of_mem_filter (Assoc.mem_of_get? hg)
    simpa [Document.field, hg] using h.comparable _ hm

/-- The keys are the same pairs as they are. -/
theorem Plain.samePattern (h : Plain d) (hk : Definition.keys d = .ok (Value.ofPairs ps)) :
    Info.samePattern ps (ps.map fun p => .pair p.1 p.2) = true :=
  h.comparable _ (Assoc.mem_of_get? (get?_keys_iff.1 hk))

/-- The options that are recorded for a declaration. -/
def recorded (d : Definition) : Document := Assoc.erase (options d) "name"

theorem Plain.notMem_recorded (h : Plain d) (hn : name ∈ ["v", "key"]) :
    name ∉ Assoc.keys (recorded d) := fun hm =>
  h.unreserved name hn
    (((List.filter_sublist.trans List.filter_sublist).map Prod.fst).subset hm)

/-- The options of a plain request are recorded as they stand. -/
theorem Plain.record (h : Plain d) (ps : List (Value × Value)) :
    Indexes.record ps (recorded d)
      = ("v", Indexes.version) :: ("key", Value.ofPairs ps) :: recorded d := by
  have hv : "v" ∉ Assoc.keys (recorded d) := h.notMem_recorded (by simp)
  have hk : "key" ∉ Assoc.keys (recorded d) := h.notMem_recorded (by simp)
  refine Indexes.record_of_nodup
    (List.nodup_cons.2 ⟨?_, List.nodup_cons.2 ⟨hk, h.nodup.erase.erase⟩⟩)
  exact List.not_mem_cons_of_ne_of_not_mem (show "v" ≠ "key" by decide) hv

theorem Plain.pattern_record (h : Plain d) (ps : List (Value × Value)) :
    Info.pattern (Indexes.record ps (recorded d)) = .ok ps := by
  rw [h.record ps]
  exact Info.pattern_of_pairs (by simp [Assoc.get?])

/-- Under every option that is not the name, the recorded index has what is asked for. -/
theorem Plain.field_record (h : Plain d) (ps : List (Value × Value))
    (ho : option ∉ Info.reserved) :
    Document.field (Indexes.record ps (recorded d)) option
      = Document.field (options d) option := by
  simp only [Info.reserved, List.mem_cons, List.not_mem_nil, or_false, not_or] at ho
  obtain ⟨hv, hkey, hn⟩ := ho
  rw [h.record ps, Document.field, Assoc.get?_cons, if_neg (Ne.symm hv), Assoc.get?_cons,
    if_neg (Ne.symm hkey), recorded, Assoc.get?_erase_of_ne hn, Document.field]

theorem Plain.recordedOptions_record (h : Plain d) (ps : List (Value × Value)) :
    Indexes.recordedOptions (Indexes.record ps (recorded d)) = recorded d := by
  have hv : "v" ∉ Assoc.keys (recorded d) := h.notMem_recorded (by simp)
  have hk : "key" ∉ Assoc.keys (recorded d) := h.notMem_recorded (by simp)
  rw [h.record ps, Indexes.recordedOptions]
  have hev : Assoc.erase (("v", Indexes.version) :: ("key", Value.ofPairs ps) :: recorded d) "v"
      = ("key", Value.ofPairs ps) :: recorded d := by
    rw [Assoc.erase_cons_self, Assoc.erase_of_notMem]
    exact List.not_mem_cons_of_ne_of_not_mem (show "v" ≠ "key" by decide) hv
  rw [hev, Assoc.erase_cons_self, Assoc.erase_of_notMem hk]

theorem Plain.eqv_recorded (h : Plain d) :
    (Value.doc (recorded d)).eqv (.doc (recorded d)) = true :=
  Value.doc_eqv_self h.nodup.erase.erase fun _ he =>
    h.comparable _ (List.mem_of_mem_filter (List.mem_of_mem_filter he))

/-- What is recorded for a plain request is what has been asked for. -/
theorem Plain.granted_record (h : Plain d) (hk : Definition.keys d = .ok (Value.ofPairs ps)) :
    Info.Granted (Indexes.record ps (recorded d)) (Value.ofPairs ps) (options d) where
  hasKeys := by
    rw [Indexes.hasKeys_ofPairs_iff, Indexes.hasPattern, h.pattern_record ps]
    exact h.samePattern hk
  options option ho := by
    rw [h.field_record ps ho]
    exact h.eqv_options option

end Definition

/-- An index that is there as it has been asked for serves the declaration. -/
theorem Info.Granted.fits {info : Info} {d : Definition} {keys : Value}
    (h : info.Granted keys (Definition.options d)) (hk : Definition.keys d = .ok keys) :
    Info.fits info d = .ok true := by
  have hf : ∀ option, option ∉ Info.reserved → option ≠ "keys" →
      (Document.field info option).eqv (Document.field d option) = true := by
    intro option ho hne
    rw [← Definition.field_options d hne]
    exact h.options option ho
  have hu := hf Index.uniqueness (by decide) (by decide)
  have hp := hf Index.filter (by decide) (by decide)
  have ht := hf Index.ttl (by decide) (by decide)
  refine Info.fits_eq_true_iff.2 ⟨hk ▸ h.hasKeys, ?_, ?_⟩
  · simp [Info.compatible, Value.truth_eq_of_eqv hu, hp]
  · simp [Info.expiresAs, ht]

/-- An index that repeats a declaration serves it. -/
theorem Indexes.Repeated.fits {xs : Indexes} {d : Definition} {name : String}
    {ps : List (Value × Value)} (hx : xs.Distinct) (hk : Definition.keys d = .ok (Value.ofPairs ps))
    (h : Repeated xs name ps d.recorded) :
    ∃ info, Assoc.get? xs name = some info ∧ info.fits d = .ok true := by
  obtain ⟨info, hg, hgranted⟩ := h.granted hx
  exact ⟨info, hg, hgranted.fits hk⟩

/-! ### The server -/

namespace Server

theorem createIndex_of_ok {s : Store} {database collection : String} {keys : Value}
    {options : Document} {ys : Indexes}
    (h : (s.indexesOrFresh database collection).create keys options = .ok ys) :
    createIndex s database collection keys options
      = (.ok (), s.putIndexes database collection ys) := by
  rw [createIndex, h]

theorem createIndex_of_error {s : Store} {database collection : String} {keys : Value}
    {options : Document} {e : Error}
    (h : (s.indexesOrFresh database collection).create keys options = .error e) :
    createIndex s database collection keys options
      = (.error e, s.putIndexes database collection (s.indexesOrFresh database collection)) := by
  rw [createIndex, h]

theorem fails_createCollection (s : Store) (database name : String) :
    Fails Error.Inherent (createCollection s database name) := by
  rw [createCollection]
  split
  · exact fails_error ⟨by simp [Error.Foreign], rfl⟩
  · exact fails_ok _

theorem fails_expireIndex (s : Store) (database collection index : String) (seconds : Value) :
    Fails Error.Inherent (expireIndex s database collection index seconds) := by
  rw [expireIndex]
  split
  · exact fails_error (Error.inherent_rejected _)
  · rw [Indexes.expire]
    split
    · exact fails_ok _
    · exact fails_error (Error.inherent_rejected _)

theorem fails_settle {server : Server} {outcome : Except Error Store}
    (h : Fails Error.Inherent outcome) : Fails Error.Inherent (settle server outcome).1 := by
  cases outcome with
  | ok store => exact fails_ok _
  | error e => exact fails_error (h e rfl)

theorem fails_checkName (name : String) : Fails Error.Inherent (checkName name) := by
  rw [checkName]
  split
  · exact fails_error ⟨by simp [Error.Foreign], rfl⟩
  · split
    · exact fails_error ⟨by simp [Error.Foreign], rfl⟩
    · exact fails_ok _

theorem fails_create (xs : Indexes) (keys : Value) (options : Document) :
    Fails Error.Inherent (xs.create keys options) := by
  intro e he
  cases hn : Indexes.requestedName keys options with
  | error e' =>
    have hc : xs.create keys options = .error e' := by rw [Indexes.create, hn]; rfl
    obtain rfl := Except.error.inj (hc.symm.trans he)
    exact (Indexes.fails_requestedName keys options _ hn).inherent
  | ok name =>
    cases hp : Index.pattern keys with
    | error e' =>
      have hc : xs.create keys options = .error e' := by rw [Indexes.create, hn, hp]; rfl
      obtain rfl := Except.error.inj (hc.symm.trans he)
      exact (Index.fails_pattern keys _ hp).inherent
    | ok ps =>
      by_cases hr : Indexes.Repeated xs name ps (Assoc.erase options "name")
      · rw [Indexes.create_of_repeated hn hp hr] at he
        contradiction
      · by_cases hu : Indexes.Unclaimed xs name ps
        · rw [Indexes.create_of_unclaimed hn hp hu] at he
          contradiction
        · obtain ⟨r, hc, -⟩ := Indexes.create_rejected hn hp hr hu
          obtain rfl := Except.error.inj (hc.symm.trans he)
          exact Error.inherent_rejected r

/-- The server answers with no other errors than those that arise in its work. -/
theorem fails_answer (c : Call) (server : Server) : Fails Error.Inherent (answer c server).1 := by
  cases c with
  | openClient | ping | close | listCollections | listIndexes => exact fails_ok _
  | openDatabase client name => exact fails_checkName name
  | createCollection database name => exact fails_settle (fails_createCollection _ _ _)
  | expireIndex database collection index seconds =>
    exact fails_settle (fails_expireIndex _ _ _ _ _)
  | createIndex database collection keys options =>
    intro e he
    have h := fails_create (server.store.indexesOrFresh database collection) keys options
    cases hc : (server.store.indexesOrFresh database collection).create keys options with
    | ok ys => simp [answer, createIndex_of_ok hc] at he
    | error e' =>
      obtain rfl : e' = e := by simpa [answer, createIndex_of_error hc] using he
      exact h e' hc

/-- What the server has granted is there, if it has been asked for plainly. -/
theorem faithful : Handler.Faithful answer Server.store Definition.Plain where
  toCareful := careful
  listed _ _ _ := rfl
  created database collection server d keys hs hd hk h := by
    obtain ⟨ps, hps⟩ := hd.keys
    obtain rfl : Value.ofPairs ps = keys := Except.ok.inj (hps.symm.trans hk)
    cases hc : (server.store.indexesOrFresh database collection).create (Value.ofPairs ps)
        (Definition.options d) with
    | error e => simp [answer, createIndex_of_error hc] at h
    | ok ys =>
      have hys : (answer (.createIndex database collection (Value.ofPairs ps)
          (Definition.options d)) server).2.store
            = server.store.putIndexes database collection ys := by
        simp [answer, createIndex_of_ok hc]
      rw [hys, indexes_putIndexes_self]
      obtain ⟨name, qs, hn, hq⟩ := Indexes.read_of_create hc
      obtain rfl : ps = qs := Except.ok.inj ((Value.pairs_ofPairs ps).symm.trans hq)
      rcases (Indexes.create_eq_ok_iff hn hq).1 hc with ⟨hrep, rfl⟩ | ⟨-, rfl⟩
      · obtain ⟨info, hg, hgranted⟩ := hrep.granted (hs.indexesOrFresh database collection)
        exact ⟨(name, info), Assoc.mem_of_get? hg, hgranted⟩
      · exact ⟨_, List.mem_append_right _ (List.mem_singleton_self _), hd.granted_record hps⟩
  expired database collection server index seconds h := by
    cases ht : expireIndex server.store database collection index seconds with
    | error e => simp [answer, ht, settle] at h
    | ok t =>
      obtain ⟨xs, info, hx, hi, rfl⟩ := expireIndex_eq_ok ht
      exact ⟨xs, info, hx, hi, by simp [answer, ht, settle]⟩
  foreign c server := (fails_answer c server).imp fun _ he => he.foreign

end Server

/-! ### The declared indexes -/

namespace Schema

/-- An ascending index on one field is plain if its options are. -/
theorem plain_ascending {field : String} {options : Document}
    (hn : Assoc.NodupKeys (ascending field options))
    (ho : ∀ e ∈ options, e.2.eqv e.2 = true)
    (hu : ∀ name ∈ ["v", "key"], name ∉ Assoc.keys options) :
    (ascending field options).Plain where
  nodup := hn
  keys := ⟨[(.text field, .int 1)], rfl⟩
  comparable := by
    refine List.forall_mem_cons.2 ⟨?_, ho⟩
    simp [Value.ofPairs, Value.pair, Value.eqv, Value.eqvList, Value.sameNumber, Value.number?]
  unreserved name hname := by
    refine List.not_mem_cons_of_ne_of_not_mem ?_ (hu name hname)
    rintro rfl
    simp at hname

theorem plain_declared : ∀ d ∈ credentialIndexes ++ sessionIndexes, d.Plain := by
  simp only [credentialIndexes, sessionIndexes, plainExpiry, expiry, List.cons_append,
    List.nil_append, List.forall_mem_cons]
  refine ⟨?_, ?_, ?_, ?_, ?_, ?_, ?_, by simp⟩
  all_goals exact plain_ascending (by decide) (by decide) (by decide)

end Schema

end Provisioner
