/-!
# Ordered associations

A finite map from names to values that remembers the order in which its names were first
entered. Documents, the indexes of a collection, the collections of a database and the variables
of an environment are all of this shape, and all of them are shown in their order.

## Total, permissive operations

An association is a plain list of pairs, so nothing stops a name from occurring twice in it. The
operations are total all the same: `get?` reads the first entry of a name and `set` overwrites
it. That no name is repeated is not part of the type but a hypothesis, `NodupKeys`, of the
statements that need it, and `set` and `erase` keep it.

## Main definitions

* `Assoc.get?`, `set`, `erase` — reading, writing in place or at the end, and removing
* `Assoc.ofList` — the entries of a list written one after the other
* `Assoc.keys`, `NodupKeys` — the names in order, and that none is repeated

## Main results

* `Assoc.get?_set_self`, `get?_set_of_ne` — read after write
* `Assoc.keys_set_of_mem`, `keys_set_of_notMem` — an existing name keeps its place, a new one
  goes to the end
* `Assoc.set_set_self`, `set_of_get?` — writing over what has been written, and writing what is
  there
-/

namespace Provisioner

/-- Names with values, in the order of first entry. -/
abbrev Assoc (α : Type) : Type := List (String × α)

namespace Assoc

variable {α : Type}

/-- The names, in order. -/
def keys (m : Assoc α) : List String := m.map Prod.fst

/-- No name is repeated. -/
def NodupKeys (m : Assoc α) : Prop := (keys m).Nodup

/-- The value of the first entry called `name`. -/
def get? : Assoc α → String → Option α
  | [], _ => none
  | (k, v) :: rest, name => if k = name then some v else get? rest name

/-- Write `value` under `name`: in place if the name is there, at the end otherwise. -/
def set : Assoc α → String → α → Assoc α
  | [], name, value => [(name, value)]
  | (k, v) :: rest, name, value =>
    if k = name then (name, value) :: rest else (k, v) :: set rest name value

/-- Remove every entry called `name`. -/
def erase (m : Assoc α) (name : String) : Assoc α := m.filter fun e => e.1 ≠ name

/-- Write the entries of a list one after the other, so that a repeated name keeps the place of
its first entry and the value of its last. -/
def ofList (entries : List (String × α)) : Assoc α :=
  entries.foldl (fun m e => set m e.1 e.2) []

@[simp] theorem keys_nil : keys ([] : Assoc α) = [] := rfl

@[simp] theorem keys_cons (e : String × α) (m : Assoc α) : keys (e :: m) = e.1 :: keys m := rfl

@[simp] theorem get?_nil (name : String) : get? ([] : Assoc α) name = none := rfl

theorem get?_cons (k : String) (v : α) (m : Assoc α) (name : String) :
    get? ((k, v) :: m) name = if k = name then some v else get? m name := rfl

theorem get?_eq_none_iff {m : Assoc α} {name : String} : get? m name = none ↔ name ∉ keys m := by
  induction m with
  | nil => simp
  | cons e m ih =>
    obtain ⟨k, v⟩ := e
    by_cases h : k = name
    · simp [get?, h]
    · simp [get?, h, ih, Ne.symm h]

/-! ### Read after write -/

@[simp] theorem get?_set_self (m : Assoc α) (name : String) (value : α) :
    get? (set m name value) name = some value := by
  induction m with
  | nil => simp [set, get?]
  | cons e m ih =>
    obtain ⟨k, v⟩ := e
    by_cases h : k = name <;> simp [set, get?, h, ih]

theorem get?_set_of_ne {m : Assoc α} {name other : String} (value : α) (h : other ≠ name) :
    get? (set m name value) other = get? m other := by
  induction m with
  | nil => simp [set, get?, h.symm]
  | cons e m ih =>
    obtain ⟨k, v⟩ := e
    by_cases hk : k = name
    · subst hk; simp [set, get?, h.symm]
    · rw [set, if_neg hk, get?_cons, get?_cons, ih]

/-- Of two writings under one name the second one counts. -/
@[simp] theorem set_set_self (m : Assoc α) (name : String) (first second : α) :
    set (set m name first) name second = set m name second := by
  induction m with
  | nil => simp [set]
  | cons e m ih =>
    obtain ⟨k, v⟩ := e
    by_cases h : k = name <;> simp [set, h, ih]

/-- Writing what is there changes nothing. -/
theorem set_of_get? {m : Assoc α} {name : String} {value : α} (h : get? m name = some value) :
    set m name value = m := by
  induction m with
  | nil => simp at h
  | cons e m ih =>
    obtain ⟨k, v⟩ := e
    by_cases hk : k = name
    · simp_all [set, get?]
    · rw [get?_cons, if_neg hk] at h
      rw [set, if_neg hk, ih h]

/-! ### Order -/

/-- Writing an existing name moves nothing. -/
theorem keys_set_of_mem {m : Assoc α} {name : String} (value : α) (h : name ∈ keys m) :
    keys (set m name value) = keys m := by
  induction m with
  | nil => simp at h
  | cons e m ih =>
    obtain ⟨k, v⟩ := e
    by_cases hk : k = name
    · simp [set, hk]
    · have : name ∈ keys m := by simpa [Ne.symm hk] using h
      simp [set, hk, ih this]

/-- Writing a new name appends its entry and touches no other. -/
theorem set_of_notMem {m : Assoc α} {name : String} (value : α) (h : name ∉ keys m) :
    set m name value = m ++ [(name, value)] := by
  induction m with
  | nil => rfl
  | cons e m ih =>
    obtain ⟨k, v⟩ := e
    have hk : k ≠ name := fun hk => h (by simp [hk])
    have : name ∉ keys m := fun hm => h (by simp [hm])
    simp [set, hk, ih this]

theorem keys_set_of_notMem {m : Assoc α} {name : String} (value : α) (h : name ∉ keys m) :
    keys (set m name value) = keys m ++ [name] := by
  simp [set_of_notMem value h, keys]

end Assoc

end Provisioner
