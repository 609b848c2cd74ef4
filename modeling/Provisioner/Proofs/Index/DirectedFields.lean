import Provisioner.Index.Basic

/-!
# Keys that are fields with their directions

The keys of a declaration are most often a list of pairs, of a field and its direction. The fields
are texts then, and the direction may be any value. Of such a declaration it is known that it can be
described: what stands between the brackets are the fields, and these are texts.

## Main definitions

* `Index.directed` — fields with directions, as keys

## Main results

* `Definition.describe_of_directed` — a declaration whose keys are fields can be described
-/

namespace Provisioner

namespace Index

/-- Keys that are fields with their directions. -/
def directed (fields : List (String × Value)) : Value :=
  Value.ofPairs (fields.map fun f => (.text f.1, f.2))

end Index

/-- Texts are read as texts. -/
theorem Value.textsFrom_map_text (names : List String) (position : Nat) :
    textsFrom position (names.map .text) = .ok names := by
  induction names generalizing position with
  | nil => rfl
  | cons name names ih =>
    rw [List.map_cons, textsFrom, ih]
    rfl

/-- A declaration whose keys are fields can be described. -/
theorem Definition.describe_of_directed {d : Definition} {fields : List (String × Value)}
    (hk : Definition.keys d = .ok (Index.directed fields)) (collection : String) :
    ∃ text, d.describe collection = .ok text := by
  have htexts : Value.texts ((fields.map fun f => (Value.text f.1, f.2)).map Prod.fst)
      = .ok (fields.map Prod.fst) := by
    have hnames : (fields.map fun f => (Value.text f.1, f.2)).map Prod.fst
        = (fields.map Prod.fst).map .text := by simp
    rw [Value.texts, hnames, Value.textsFrom_map_text]
  simp only [Definition.describe, hk, Index.directed, Value.pairs_ofPairs, htexts, bind,
    Except.bind]
  exact ⟨_, rfl⟩

end Provisioner
