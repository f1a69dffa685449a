import Gherkin.Text.Basic

/-!
# JSON values

Keyword documents come in as JSON and feature trees go out as JSON; both pass
through `Json`.  A number stands as it was written, since nothing here counts
with it.  A string whose escapes name half of a surrogate pair is well formed
but denotes no text: such a string, or member name, is `none`.
-/

namespace Gherkin

/-- A JSON value, its members in the order in which they stand. -/
inductive Json where
  | null
  | bool (b : Bool)
  | number (literal : Text)
  | string (content : Option Text)
  | array (items : List Json)
  | object (members : List (Option Text × Json))

namespace Json

/-- The string that denotes `s`. -/
def text (s : Text) : Json := string (some s)

/-- The object with the given members. -/
def record (members : List (String × Json)) : Json :=
  object (members.map fun m => (some m.1.toList, m.2))

/-! ## Comparing values -/

mutual

/-- Whether two values are the same. -/
def same : Json → Json → Bool
  | null, null => true
  | bool a, bool b => a == b
  | number a, number b => a == b
  | string a, string b => a == b
  | array xs, array ys => sameItems xs ys
  | object xs, object ys => sameMembers xs ys
  | _, _ => false

/-- Whether two arrays have the same items. -/
def sameItems : List Json → List Json → Bool
  | [], [] => true
  | x :: xs, y :: ys => same x y && sameItems xs ys
  | _, _ => false

/-- Whether two objects have the same members in the same order. -/
def sameMembers : List (Option Text × Json) → List (Option Text × Json) → Bool
  | [], [] => true
  | (m, x) :: xs, (n, y) :: ys => m == n && same x y && sameMembers xs ys
  | _, _ => false

end

mutual

theorem same_iff : ∀ v w : Json, same v w = true ↔ v = w
  | null, w => by cases w <;> simp [same]
  | bool _, w => by cases w <;> simp [same]
  | number _, w => by cases w <;> simp [same]
  | string _, w => by cases w <;> simp [same]
  | array xs, w => by cases w <;> simp [same, sameItems_iff xs]
  | object xs, w => by cases w <;> simp [same, sameMembers_iff xs]

theorem sameItems_iff : ∀ xs ys : List Json, sameItems xs ys = true ↔ xs = ys
  | [], ys => by cases ys <;> simp [sameItems]
  | x :: xs, ys => by cases ys <;> simp [sameItems, same_iff x, sameItems_iff xs]

theorem sameMembers_iff :
    ∀ xs ys : List (Option Text × Json), sameMembers xs ys = true ↔ xs = ys
  | [], ys => by cases ys <;> simp [sameMembers]
  | (m, x) :: xs, ys => by
    cases ys <;> simp [sameMembers, same_iff x, sameMembers_iff xs, Prod.ext_iff]

end

instance : DecidableEq Json := fun v w => decidable_of_iff _ (same_iff v w)

end Json

end Gherkin
