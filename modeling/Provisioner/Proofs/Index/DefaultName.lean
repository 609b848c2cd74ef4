import Mathlib.Data.List.SplitOn
import Provisioner.Proofs.Index.DirectedFields

/-!
# Default names that can be read back

The default name of an index has its fields and directions in a row, with underscores between them.
Nothing in it says where a field ends. Fields may contain underscores and may be empty, and so keys
that differ may come to the same name: what stands between two underscores may be a direction, or a
part of a field that looks like one.

This is all that there is to it. Where the directions are integers and no part of a field is a
numeral, the parts of a name up to the next numeral make up a field, and the numeral is its
direction. So the keys can be read off their name, and keys that differ have names that differ. A
numeral is here whatever can be read as an integer, in the way in which directions are written or
not: a part `007` would be as misleading as a part `7`.

Other directions are left out. A flag, for one, appears in a name as a word, and fields are words.

## Main definitions

* `Index.integral` — keys with integers for directions
* `Index.parts`, `IsNumeral`, `Legible` — the parts of a text between its underscores, those that
  are numerals, and fields that have none
* `Index.readName` — what a name is read as

## Main results

* `Index.parts_integralName` — the parts of a name are those of its fields, each with its direction
* `Index.readName_integralName` — a name is read as the keys that it has been made from
* `Index.keys_of_defaultName` — keys can be told by their default names
-/

namespace Provisioner

namespace Index

/-! ### Numerals -/

/-- What follows the minus sign, if there is one. -/
def unsigned : List Char → List Char
  | '-' :: rest => rest
  | part => part

/-- Digits of ASCII, at least one, and perhaps a minus sign before them. -/
def IsNumeral (part : List Char) : Prop :=
  unsigned part ≠ [] ∧ (unsigned part).all Char.isDigit = true

instance (part : List Char) : Decidable (IsNumeral part) := inferInstanceAs (Decidable (_ ∧ _))

/-- The integer that a numeral stands for. -/
def integer (part : List Char) : Int :=
  let magnitude : Int := Nat.ofDigitChars 10 (unsigned part) 0
  if part.head? = some '-' then -magnitude else magnitude

theorem isDigit_of_mem_toDigits {n : Nat} {c : Char} (h : c ∈ Nat.toDigits 10 n) :
    c.isDigit = true :=
  Nat.isDigit_of_mem_toDigits (by decide) (by decide) h

theorem minus_notMem_toDigits (n : Nat) : '-' ∉ Nat.toDigits 10 n := fun h =>
  absurd (isDigit_of_mem_toDigits h) (by decide)

theorem unsigned_of_notMem {part : List Char} (h : '-' ∉ part) : unsigned part = part := by
  cases part with
  | nil => rfl
  | cons c rest =>
    have hc : c ≠ '-' := fun hc => h (hc ▸ List.mem_cons_self)
    simp [unsigned, hc]

theorem toList_toString_ofNat (n : Nat) :
    (toString (Int.ofNat n)).toList = Nat.toDigits 10 n := Nat.toList_repr

theorem toList_toString_negSucc (n : Nat) :
    (toString (Int.negSucc n)).toList = '-' :: Nat.toDigits 10 (n + 1) := by
  have hwritten : toString (Int.negSucc n) = "-" ++ (n + 1).repr := rfl
  rw [hwritten, String.toList_append, Nat.toList_repr]
  rfl

theorem unsigned_toString (n : Int) : unsigned (toString n).toList = Nat.toDigits 10 n.natAbs := by
  cases n with
  | ofNat n =>
    rw [toList_toString_ofNat, unsigned_of_notMem (minus_notMem_toDigits n)]
    rfl
  | negSucc n =>
    rw [toList_toString_negSucc]
    rfl

/-- What is written for an integer is a numeral. -/
theorem isNumeral_toString (n : Int) : IsNumeral (toString n).toList := by
  rw [IsNumeral, unsigned_toString]
  exact ⟨Nat.toDigits_ne_nil, List.all_eq_true.2 fun _ => isDigit_of_mem_toDigits⟩

/-- What is written for an integer stands for it. -/
theorem integer_toString (n : Int) : integer (toString n).toList = n := by
  rw [integer, unsigned_toString, Nat.ofDigitChars_ten_toDigits]
  cases n with
  | ofNat n =>
    have hfirst : (Nat.toDigits 10 n).head? ≠ some '-' := fun h =>
      minus_notMem_toDigits n (List.mem_of_mem_head? h)
    rw [toList_toString_ofNat]
    simp [hfirst]
  | negSucc n =>
    rw [toList_toString_negSucc, List.head?_cons, if_pos rfl]
    omega

theorem mem_unsigned {part : List Char} {c : Char} (h : c ∈ part) (hc : c ≠ '-') :
    c ∈ unsigned part := by
  cases part with
  | nil => contradiction
  | cons first rest =>
    by_cases hfirst : first = '-'
    · subst hfirst
      exact List.mem_of_ne_of_mem hc h
    · simpa [unsigned, hfirst] using h

/-- A numeral is a single part. -/
theorem IsNumeral.underscore_notMem {part : List Char} (h : IsNumeral part) : '_' ∉ part :=
  fun hmem => absurd (List.all_eq_true.1 h.2 '_' (mem_unsigned hmem (by decide))) (by decide)

/-! ### Parts -/

/-- The parts of a text between its underscores. -/
def parts (text : String) : List (List Char) := text.toList.splitOn '_'

/-- The text that has these parts. -/
def ofParts (ps : List (List Char)) : String := String.ofList (['_'].intercalate ps)

@[simp] theorem ofParts_parts (text : String) : ofParts (parts text) = text := by
  rw [ofParts, parts, List.intercalate_splitOn, String.ofList_toList]

/-- No part of a field is a numeral. -/
def Legible (field : String) : Prop := ∀ part ∈ parts field, ¬ IsNumeral part

instance (field : String) : Decidable (Legible field) :=
  inferInstanceAs (Decidable (∀ _ ∈ _, _))

/-- Keys with integers for directions. -/
def integral (ks : List (String × Int)) : Value := directed (ks.map fun k => (k.1, .int k.2))

/-- The name of such keys. -/
def integralName (ks : List (String × Int)) : String :=
  "_".intercalate (ks.map fun k => k.1 ++ "_" ++ toString k.2)

theorem defaultName_integral (ks : List (String × Int)) :
    defaultName (integral ks) = .ok (integralName ks) := by
  have hjoin : joinName ((ks.map fun k => (k.1, Value.int k.2)).map fun f => (.text f.1, f.2))
      = integralName ks := by
    rw [joinName, integralName, List.map_map, List.map_map]
    rfl
  rw [defaultName, integral, directed, Value.pairs_ofPairs, ← hjoin]
  rfl

/-- The parts of a field with its direction. -/
def keyParts (k : String × Int) : List (List Char) := parts k.1 ++ [(toString k.2).toList]

theorem parts_append_underscore (first second : String) :
    parts (first ++ "_" ++ second) = parts first ++ parts second := by
  have hchars : (first ++ "_" ++ second).toList = first.toList ++ '_' :: second.toList := by
    simp
  rw [parts, hchars, List.splitOn_append_cons_self, parts, parts]

theorem parts_key (k : String × Int) : parts (k.1 ++ "_" ++ toString k.2) = keyParts k := by
  have hsingle : parts (toString k.2) = [(toString k.2).toList] :=
    List.splitOn_eq_singleton (isNumeral_toString k.2).underscore_notMem
  rw [parts_append_underscore, hsingle, keyParts]

/-- The parts of a name are those of its fields, each with its direction. -/
theorem parts_integralName {ks : List (String × Int)} (h : ks ≠ []) :
    parts (integralName ks) = ks.flatMap keyParts := by
  induction ks with
  | nil => contradiction
  | cons k rest ih =>
    cases rest with
    | nil =>
      have hsingle : integralName [k] = k.1 ++ "_" ++ toString k.2 := String.intercalate_singleton
      rw [hsingle, parts_key, List.flatMap_singleton]
    | cons k' rest =>
      have hsplit : integralName (k :: k' :: rest)
          = k.1 ++ "_" ++ toString k.2 ++ "_" ++ integralName (k' :: rest) :=
        String.intercalate_cons_cons
      rw [hsplit, parts_append_underscore, parts_key, ih (List.cons_ne_nil k' rest)]
      rfl

/-! ### Reading -/

/-- What some parts are read as, behind the parts of a field that has not come to its direction. -/
def readParts (field : List (List Char)) : List (List Char) → Option (List (String × Int))
  | [] => if field = [] then some [] else none
  | part :: rest =>
    if IsNumeral part then
      (readParts [] rest).map fun ks => (ofParts field, integer part) :: ks
    else readParts (field ++ [part]) rest

/-- What a name is read as. The empty name is that of no keys, and not one with an empty part. -/
def readName (name : String) : Option (List (String × Int)) :=
  if name = "" then some [] else readParts [] (parts name)

/-- What is no numeral belongs to the field. -/
theorem readParts_append {ps : List (List Char)} (h : ∀ part ∈ ps, ¬ IsNumeral part)
    (field rest : List (List Char)) :
    readParts field (ps ++ rest) = readParts (field ++ ps) rest := by
  induction ps generalizing field with
  | nil => simp
  | cons part ps ih =>
    obtain ⟨hpart, hps⟩ := List.forall_mem_cons.1 h
    rw [List.cons_append, readParts, if_neg hpart, ih hps, List.append_assoc]
    rfl

theorem readParts_keyParts {k : String × Int} (h : Legible k.1) (rest : List (List Char)) :
    readParts [] (keyParts k ++ rest) = (readParts [] rest).map (k :: ·) := by
  rw [keyParts, List.append_assoc, readParts_append h, List.nil_append, List.singleton_append,
    readParts, if_pos (isNumeral_toString k.2), integer_toString, ofParts_parts]

theorem readParts_flatMap {ks : List (String × Int)} (h : ∀ k ∈ ks, Legible k.1) :
    readParts [] (ks.flatMap keyParts) = some ks := by
  induction ks with
  | nil => rfl
  | cons k ks ih =>
    obtain ⟨hk, hks⟩ := List.forall_mem_cons.1 h
    rw [List.flatMap_cons, readParts_keyParts hk, ih hks]
    rfl

/-- A name is read as the keys that it has been made from. -/
theorem readName_integralName {ks : List (String × Int)} (h : ∀ k ∈ ks, Legible k.1) :
    readName (integralName ks) = some ks := by
  cases ks with
  | nil => rfl
  | cons k ks =>
    have hparts := parts_integralName (List.cons_ne_nil k ks)
    have hname : integralName (k :: ks) ≠ "" := by
      -- The empty text has one part, and a key has two of them at least.
      intro hempty
      have hlength := congrArg List.length hparts
      have hfield : 0 < (parts k.1).length := List.length_pos_iff.2 (List.splitOn_ne_nil '_' _)
      rw [hempty, List.flatMap_cons, List.length_append, keyParts, List.length_append] at hlength
      have hone : (parts "").length = 1 := rfl
      simp only [hone, List.length_singleton] at hlength
      omega
    rw [readName, if_neg hname, hparts, readParts_flatMap h]

/-- **Keys can be told by their default names.** Keys with integers for directions have a default
name, and if no part of a field is a numeral then it is read as these keys, so that no other such
keys have the same name. -/
theorem keys_of_defaultName {ks ks' : List (String × Int)} (h : ∀ k ∈ ks, Legible k.1)
    (h' : ∀ k ∈ ks', Legible k.1) :
    (∃ name, defaultName (integral ks) = .ok name ∧ readName name = some ks)
      ∧ (defaultName (integral ks) = defaultName (integral ks') → ks = ks') := by
  refine ⟨⟨_, defaultName_integral ks, readName_integralName h⟩, fun hsame => ?_⟩
  rw [defaultName_integral, defaultName_integral] at hsame
  have hread : some ks = some ks' := by
    rw [← readName_integralName h, ← readName_integralName h', Except.ok.inj hsame]
  exact Option.some.inj hread

/-- Empty fields and negative directions are found again as well. -/
theorem keys_of_emptyField :
    (∀ k ∈ [("user_id", (1 : Int)), ("", -1)], Legible k.1)
      ∧ (∀ k ∈ [("user_id_", (1 : Int)), ("-", 1)], Legible k.1)
      ∧ defaultName (integral [("user_id", 1), ("", -1)]) = .ok "user_id_1__-1"
      ∧ readName "user_id_1__-1" = some [("user_id", 1), ("", -1)]
      ∧ defaultName (integral [("user_id", 1), ("", -1)])
        ≠ defaultName (integral [("user_id_", 1), ("-", 1)]) := by
  have h : ∀ k ∈ [("user_id", (1 : Int)), ("", -1)], Legible k.1 := by decide
  have h' : ∀ k ∈ [("user_id_", (1 : Int)), ("-", 1)], Legible k.1 := by decide
  have hname : defaultName (integral [("user_id", 1), ("", -1)]) = .ok "user_id_1__-1" := rfl
  obtain ⟨⟨name, hname', hread⟩, hinjective⟩ := keys_of_defaultName h h'
  obtain rfl : "user_id_1__-1" = name := Except.ok.inj (hname.symm.trans hname')
  exact ⟨h, h', hname, hread, fun hsame => absurd (hinjective hsame) (by decide)⟩

/-- Where a part of a field is a numeral, it may be taken for a direction. -/
example : defaultName (integral [("a", 1), ("b", 1)]) = defaultName (integral [("a_1_b", 1)]) := rfl

end Index

end Provisioner
