import Provisioner.Proofs.Index.MissingReport
import Provisioner.Proofs.Index.UnreadableInfo

/-!
# Positions

What a search finds is an index, with its name, and what a report has are the names of declarations.
Both are answers in terms of what has been gone through: an index at some position of a listing, and
the declarations at some positions of a list. Two searches over different things can be compared by
these positions, where their answers cannot. A report does not even tell them, since different
declarations may be reported under one name.

## Main definitions

* `Indexes.place?` — the position of the first index that passes a test
* `Indexes.reported` — the positions of the declarations that are reported

## Main results

* `Indexes.first?_eq_at?`, `find?_eq_at?` — what is found is what stands at the position
* `Indexes.missing_eq_titles` — what is missing are the declarations at the positions
-/

namespace Provisioner

namespace Indexes

variable {xs ys : Indexes} {d : Definition} {ds es : List Definition} {collection : String}
  {test test' : Info → Except Error Bool}

/-! ### What is found -/

/-- The position of the first index that passes a test, unless the test of an earlier one fails. -/
def place? (test : Info → Except Error Bool) : Indexes → Except Error (Option Nat)
  | [] => .ok none
  | e :: rest => do
    let pass ← test e.2
    if pass then return some 0 else
      let place ← place? test rest
      return place.map (· + 1)

/-- The index at a position, if there is one. -/
def at? (xs : Indexes) (place : Option Nat) : Option (String × Info) := place.bind fun i => xs[i]?

/-- What a search finds is what stands at the position to which it comes. -/
theorem first?_eq_at? (test : Info → Except Error Bool) (xs : Indexes) :
    first? test xs = xs.at? <$> place? test xs := by
  induction xs with
  | nil => rfl
  | cons x xs ih =>
    rw [first?, place?]
    cases test x.2 with
    | error e => rfl
    | ok pass =>
      cases pass with
      | true => rfl
      | false =>
        simp only [bind, Except.bind, ih]
        cases place? test xs with
        | error e => rfl
        | ok place => cases place <;> rfl

/-- What the search for keys finds is what stands at the position of the first index with them. -/
theorem find?_eq_at? (keys : Value) (xs : Indexes) :
    find? keys xs = xs.at? <$> place? (Info.hasKeys · (.ok keys)) xs := by
  rw [find?_eq_first?, first?_eq_at?]

/-- Tests that come to the same for all indexes in turn are passed at the same position. -/
theorem place?_congr (h : List.Forall₂ (fun x y => test x.2 = test' y.2) xs ys) :
    place? test xs = place? test' ys := by
  induction h with
  | nil => rfl
  | cons he _ ih => rw [place?, place?, he, ih]

/-! ### What is reported -/

/-- The positions of the declarations that are reported. -/
def reported (collection : String) (xs : Indexes) : List Definition → Except Error (List Nat)
  | [] => .ok []
  | d :: rest => do
    let served ← List.isEmpty <$> absent collection xs d
    let others ← reported collection xs rest
    return (if served then [] else [0]) ++ others.map (· + 1)

/-- The declarations at some positions, as they stand in a report. -/
def titles (collection : String) (ds : List Definition) (places : List Nat) : List String :=
  places.filterMap fun i => ds[i]?.map (title collection)

/-- A report on one declaration is empty, or it is its title. -/
theorem absent_eq_ok {report : List String} (h : absent collection xs d = .ok report) :
    report = if report.isEmpty then [] else [title collection d] := by
  obtain ⟨fit, -, h⟩ := bind_eq_ok_iff.1 h
  cases fit with
  | true =>
    obtain rfl : [] = report := Except.ok.inj h
    rfl
  | false =>
    obtain ⟨l, hl, h⟩ := bind_eq_ok_iff.1 h
    obtain rfl : [l] = report := Except.ok.inj h
    simp [title, hl]

theorem titles_cons (collection : String) (d : Definition) (ds : List Definition) (served : Bool)
    (places : List Nat) :
    titles collection (d :: ds) ((if served then [] else [0]) ++ places.map (· + 1))
      = (if served then [] else [title collection d]) ++ titles collection ds places := by
  cases served <;> simp [titles, List.filterMap_map]

/-- What is missing are the declarations at the reported positions. -/
theorem missing_eq_titles (collection : String) (xs : Indexes) (ds : List Definition) :
    missing collection xs ds = titles collection ds <$> reported collection xs ds := by
  induction ds with
  | nil => rfl
  | cons d ds ih =>
    rw [missing, reported, ih]
    cases ha : absent collection xs d with
    | error e => rfl
    | ok report =>
      cases reported collection xs ds with
      | error e => rfl
      | ok places =>
        have hall : report ++ titles collection ds places = titles collection (d :: ds)
            ((if report.isEmpty then [] else [0]) ++ places.map (· + 1)) := by
          rw [titles_cons, ← absent_eq_ok ha]
        exact congrArg Except.ok hall

end Indexes

end Provisioner
