import Provisioner.Assoc

/-!
# Order and removal in associations

Writing under a name leaves every other entry alone and where it was; at most the name itself is
new, and then it stands at the end. This is said here in the forms in which the contents of a
store need it: what is left after the removal of the name, the names as a beginning of the new
names, and writing into the beginning or the rest of an association.

## Main definitions

* `Assoc.without` — what is left without some of the names
* `Assoc.NodupAll` — no name is repeated, and every value has a given property

## Main results

* `Assoc.without_set`, `keys_prefix_set` — writing touches one entry and moves none
* `Assoc.set_append_of_mem`, `set_append_of_notMem` — writing into the beginning or the rest
* `Assoc.NodupAll.set`, `NodupAll.of_get?` — what writing keeps of this, and what reading has of it
-/

namespace Provisioner

namespace Assoc

variable {α : Type} {m : Assoc α} {name : String} {value : α}

theorem keys_append (m rest : Assoc α) : keys (m ++ rest) = keys m ++ keys rest := by
  simp [keys]

theorem mem_keys_of_mem {e : String × α} (h : e ∈ m) : e.1 ∈ keys m :=
  List.mem_map_of_mem h

theorem mem_of_get? (h : get? m name = some value) : (name, value) ∈ m := by
  induction m with
  | nil => simp at h
  | cons e m ih =>
    obtain ⟨k, v⟩ := e
    by_cases hk : k = name
    · simp_all [get?]
    · rw [get?_cons, if_neg hk] at h
      exact List.mem_cons_of_mem _ (ih h)

theorem mem_keys_of_get? (h : get? m name = some value) : name ∈ keys m :=
  mem_keys_of_mem (mem_of_get? h)

/-- Where no name is repeated, every entry is read back. -/
theorem get?_of_mem {e : String × α} (hm : NodupKeys m) (h : e ∈ m) : get? m e.1 = some e.2 := by
  induction m with
  | nil => simp at h
  | cons e' m ih =>
    obtain ⟨k, v⟩ := e'
    obtain ⟨hk, hm⟩ := List.nodup_cons.1 hm
    rcases List.mem_cons.1 h with rfl | he
    · simp [get?]
    · have hmem : e.1 ∈ keys m := mem_keys_of_mem he
      have hne : k ≠ e.1 := fun h => hk (h ▸ hmem)
      rw [get?_cons, if_neg hne, ih hm he]

/-! ### Removal -/

/-- Everything but the entries of the given names. -/
def without (m : Assoc α) (names : List String) : Assoc α := m.filter fun e => e.1 ∉ names

/-- Writing touches no entry but that of the name. -/
theorem without_set {names : List String} (m : Assoc α) (value : α) (h : name ∈ names) :
    without (set m name value) names = without m names := by
  induction m with
  | nil => simp [set, without, h]
  | cons e m ih =>
    obtain ⟨k, v⟩ := e
    by_cases hk : k = name
    · simp [set, hk, without, h]
    · rw [set, if_neg hk]
      by_cases hm : k ∈ names
      · simpa [without, hm] using ih
      · simpa [without, hm] using ih

/-- What is left is read as before. -/
theorem get?_without {names : List String} (m : Assoc α) (h : name ∉ names) :
    get? (without m names) name = get? m name := by
  induction m with
  | nil => rfl
  | cons e m ih =>
    obtain ⟨k, v⟩ := e
    by_cases hm : k ∈ names
    · have hk : k ≠ name := fun hk => h (hk ▸ hm)
      rw [get?_cons, if_neg hk, ← ih]
      simp [without, hm]
    · rw [get?_cons, ← ih]
      simp [without, hm, get?_cons]

theorem get?_erase_of_ne {other : String} (h : other ≠ name) :
    get? (erase m name) other = get? m other := by
  induction m with
  | nil => rfl
  | cons e m ih =>
    obtain ⟨k, v⟩ := e
    by_cases hk : k = name
    · have hko : k ≠ other := fun he => h (he ▸ hk)
      rw [get?_cons, if_neg hko, ← ih]
      simp [erase, hk]
    · rw [get?_cons, ← ih]
      simp [erase, hk, get?_cons]

theorem erase_cons_self (m : Assoc α) (name : String) (value : α) :
    erase ((name, value) :: m) name = erase m name := by
  simp [erase]

theorem erase_of_notMem (h : name ∉ keys m) : erase m name = m := by
  refine List.filter_eq_self.2 fun e he => ?_
  have hmem : e.1 ∈ keys m := mem_keys_of_mem he
  have hne : e.1 ≠ name := fun hn => h (hn ▸ hmem)
  simpa using hne

/-! ### Order -/

/-- Writing moves no entry. -/
theorem keys_prefix_set (m : Assoc α) (name : String) (value : α) :
    keys m <+: keys (set m name value) := by
  by_cases h : name ∈ keys m
  · exact (keys_set_of_mem value h).symm ▸ List.prefix_rfl
  · rw [keys_set_of_notMem value h]
    exact List.prefix_append ..

theorem mem_keys_set (m : Assoc α) (name : String) (value : α) : name ∈ keys (set m name value) :=
  mem_keys_of_get? (get?_set_self m name value)

/-! ### One association behind another -/

theorem get?_append_of_mem (rest : Assoc α) (h : name ∈ keys m) :
    get? (m ++ rest) name = get? m name := by
  induction m with
  | nil => simp at h
  | cons e m ih =>
    obtain ⟨k, v⟩ := e
    by_cases hk : k = name
    · simp [get?, hk]
    · have : name ∈ keys m := by simpa [Ne.symm hk] using h
      rw [List.cons_append, get?_cons, get?_cons, ih this]

theorem get?_append_of_notMem (rest : Assoc α) (h : name ∉ keys m) :
    get? (m ++ rest) name = get? rest name := by
  induction m with
  | nil => rfl
  | cons e m ih =>
    obtain ⟨k, v⟩ := e
    have hk : k ≠ name := fun hk => h (by simp [hk])
    have : name ∉ keys m := fun hm => h (by simp [hm])
    rw [List.cons_append, get?_cons, if_neg hk, ih this]

theorem set_append_of_mem (rest : Assoc α) (value : α) (h : name ∈ keys m) :
    set (m ++ rest) name value = set m name value ++ rest := by
  induction m with
  | nil => simp at h
  | cons e m ih =>
    obtain ⟨k, v⟩ := e
    by_cases hk : k = name
    · simp [set, hk]
    · have : name ∈ keys m := by simpa [Ne.symm hk] using h
      simp [set, hk, ih this]

theorem set_append_of_notMem (rest : Assoc α) (value : α) (h : name ∉ keys m) :
    set (m ++ rest) name value = m ++ set rest name value := by
  induction m with
  | nil => rfl
  | cons e m ih =>
    obtain ⟨k, v⟩ := e
    have hk : k ≠ name := fun hk => h (by simp [hk])
    have : name ∉ keys m := fun hm => h (by simp [hm])
    simp [set, hk, ih this]

/-- An entry after a writing is the written one or one that has been there under another name. -/
theorem eq_or_mem_of_mem_set {e : String × α} (hm : NodupKeys m) (h : e ∈ set m name value) :
    e = (name, value) ∨ e ∈ m ∧ e.1 ≠ name := by
  induction m with
  | nil => exact .inl (by simpa [set] using h)
  | cons e' m ih =>
    obtain ⟨k, v⟩ := e'
    obtain ⟨hk, hm⟩ := List.nodup_cons.1 hm
    by_cases hn : k = name
    · rw [set, if_pos hn] at h
      rcases List.mem_cons.1 h with he | he
      · exact .inl he
      · have hmem : e.1 ∈ keys m := mem_keys_of_mem he
        exact .inr ⟨List.mem_cons_of_mem _ he, fun hne => hk (hn.trans hne.symm ▸ hmem)⟩
    · rw [set, if_neg hn] at h
      rcases List.mem_cons.1 h with rfl | h
      · exact .inr ⟨List.mem_cons_self, hn⟩
      · exact (ih hm h).imp_right fun he => ⟨List.mem_cons_of_mem _ he.1, he.2⟩

theorem mem_set_of_ne {e : String × α} (h : e ∈ m) (hn : e.1 ≠ name) : e ∈ set m name value := by
  induction m with
  | nil => simp at h
  | cons e' m ih =>
    obtain ⟨k, v⟩ := e'
    by_cases hk : k = name
    · rw [set, if_pos hk]
      rcases List.mem_cons.1 h with rfl | h
      · exact absurd hk hn
      · exact List.mem_cons_of_mem _ h
    · rw [set, if_neg hk]
      rcases List.mem_cons.1 h with rfl | h
      · exact List.mem_cons_self
      · exact List.mem_cons_of_mem _ (ih h)

/-- Where no name is repeated, writing over an entry is replacing it where it stands. -/
theorem set_eq_map (hm : NodupKeys m) (h : name ∈ keys m) :
    set m name value = m.map fun e => if e.1 = name then (name, value) else e := by
  induction m with
  | nil => simp at h
  | cons e m ih =>
    obtain ⟨k, v⟩ := e
    obtain ⟨hk, hm⟩ := List.nodup_cons.1 hm
    by_cases hn : k = name
    · subst hn
      have hrest : m.map (fun e => if e.1 = k then (k, value) else e) = m := by
        refine (List.map_congr_left fun e he => ?_).trans (List.map_id m)
        have hmem : e.1 ∈ keys m := mem_keys_of_mem he
        have hne : e.1 ≠ k := fun hek => hk (hek ▸ hmem)
        simp [hne]
      simp [set, hrest]
    · have hmem : name ∈ keys m := by simpa [Ne.symm hn] using h
      simp [set, hn, ih hm hmem]

/-! ### No repeated names -/

theorem NodupKeys.set (h : NodupKeys m) : NodupKeys (Assoc.set m name value) := by
  by_cases hn : name ∈ keys m
  · rw [NodupKeys, keys_set_of_mem value hn]
    exact h
  · rw [NodupKeys, keys_set_of_notMem value hn]
    refine List.nodup_append.2 ⟨h, by simp, fun a ha b hb => ?_⟩
    obtain rfl := List.mem_singleton.1 hb
    exact fun he => hn (he ▸ ha)

theorem NodupKeys.erase (h : NodupKeys m) : NodupKeys (Assoc.erase m name) :=
  h.sublist (List.filter_sublist.map Prod.fst)

/-- What has been written entry by entry repeats no name. -/
theorem NodupKeys.ofList (entries : List (String × α)) : NodupKeys (Assoc.ofList entries) := by
  suffices h : ∀ m : Assoc α, NodupKeys m →
      NodupKeys (entries.foldl (fun m e => Assoc.set m e.1 e.2) m) from h [] List.nodup_nil
  induction entries with
  | nil => exact fun _ h => h
  | cons e entries ih => exact fun m h => ih _ h.set

/-- Entries of which no name is repeated stand as they have been written. -/
theorem ofList_of_nodup {entries : List (String × α)} (h : NodupKeys entries) :
    ofList entries = entries := by
  suffices hs : ∀ m : Assoc α, NodupKeys (m ++ entries) →
      entries.foldl (fun m e => set m e.1 e.2) m = m ++ entries from hs [] h
  clear h
  induction entries with
  | nil => exact fun m _ => (List.append_nil m).symm
  | cons e entries ih =>
    intro m h
    have hn : e.1 ∉ keys m := by
      intro hm
      rw [NodupKeys, keys_append] at h
      exact (List.nodup_append.1 h).2.2 e.1 hm e.1 (by simp) rfl
    rw [List.foldl_cons, set_of_notMem _ hn, ih (m ++ [e]) (by simpa using h)]
    simp

instance (m : Assoc α) : Decidable (NodupKeys m) := inferInstanceAs (Decidable (keys m).Nodup)

/-- No name is repeated, and every value has the given property. -/
structure NodupAll (P : α → Prop) (m : Assoc α) : Prop where
  nodup : NodupKeys m
  all : ∀ e ∈ m, P e.2

namespace NodupAll

variable {P : α → Prop}

instance [DecidablePred P] : DecidablePred (NodupAll P) := fun m =>
  decidable_of_iff (NodupKeys m ∧ ∀ e ∈ m, P e.2)
    ⟨fun h => ⟨h.1, h.2⟩, fun h => ⟨h.nodup, h.all⟩⟩

theorem nil : NodupAll P ([] : Assoc α) := ⟨List.nodup_nil, by simp⟩

theorem set (h : NodupAll P m) (hv : P value) : NodupAll P (Assoc.set m name value) := by
  refine ⟨h.nodup.set, fun e he => ?_⟩
  rcases eq_or_mem_of_mem_set h.nodup he with rfl | he
  · exact hv
  · exact h.all e he.1

theorem of_get? (h : NodupAll P m) (hg : get? m name = some value) : P value :=
  h.all _ (mem_of_get? hg)

end NodupAll

end Assoc

end Provisioner
