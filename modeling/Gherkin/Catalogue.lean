import Gherkin.Text.Basic

/-!
# Catalogues

A catalogue files values under codes.  Its entries stand in ascending order of
their codes, compared code point by code point, and no code stands twice; the
order is part of the type.  So two catalogues with the same answers are equal,
and "the least code such that …" is the first entry such that ….
-/

namespace Gherkin

/-- Values filed under codes, in ascending order of the codes. -/
structure Catalogue (α : Type) where
  entries : List (Text × α)
  ascending : entries.Pairwise (fun a b => a.1 < b.1)
deriving DecidableEq

namespace Catalogue

variable {α : Type}

/-- Put `value` in its place, in place of what stood under the same code. -/
def place (code : Text) (value : α) : List (Text × α) → List (Text × α)
  | [] => [(code, value)]
  | e :: es =>
    if code < e.1 then (code, value) :: e :: es
    else if code = e.1 then (code, value) :: es
    else e :: place code value es

theorem mem_place {code : Text} {value : α} {x : Text × α} :
    ∀ {es : List (Text × α)}, x ∈ place code value es → x = (code, value) ∨ x ∈ es
  | [], h => by simpa [place] using h
  | e :: es, h => by
    rw [place] at h
    split at h
    · simpa using h
    · split at h
      · rcases List.mem_cons.1 h with h | h
        · exact Or.inl h
        · exact Or.inr (List.mem_cons_of_mem _ h)
      · rcases List.mem_cons.1 h with h | h
        · exact Or.inr (h ▸ List.mem_cons_self)
        · exact (mem_place h).imp_right (List.mem_cons_of_mem _)

/-- Of two different codes one comes first. -/
theorem lt_of_not_lt_of_ne {a b : Text} (h : ¬ a < b) (hne : a ≠ b) : b < a := by
  rcases List.le_iff_lt_or_eq.1 (List.not_lt.1 h) with hlt | heq
  · exact hlt
  · exact absurd heq.symm hne

theorem place_ascending (code : Text) (value : α) :
    ∀ {es : List (Text × α)}, es.Pairwise (fun a b => a.1 < b.1) →
      (place code value es).Pairwise (fun a b => a.1 < b.1)
  | [], _ => by simp [place]
  | e :: es, h => by
    have hp := List.pairwise_cons.1 h
    rw [place]
    split
    · rename_i hlt
      refine List.pairwise_cons.2 ⟨fun x hx => ?_, h⟩
      rcases List.mem_cons.1 hx with rfl | hx
      · exact hlt
      · exact List.lt_trans hlt (hp.1 x hx)
    · split
      · rename_i heq
        exact List.pairwise_cons.2 ⟨fun x hx => heq ▸ hp.1 x hx, hp.2⟩
      · rename_i hlt hne
        refine List.pairwise_cons.2 ⟨fun x hx => ?_, place_ascending code value hp.2⟩
        rcases mem_place hx with rfl | hx
        · exact lt_of_not_lt_of_ne hlt hne
        · exact hp.1 x hx

/-- Nothing filed. -/
def empty : Catalogue α := ⟨[], List.Pairwise.nil⟩

/-- File `value` under `code`, in place of what was filed there. -/
def insert (c : Catalogue α) (code : Text) (value : α) : Catalogue α :=
  ⟨place code value c.entries, place_ascending code value c.ascending⟩

/-- File the members of a list one after another, so that of two values for one
code the later stays. -/
def ofList (l : List (Text × α)) : Catalogue α := l.foldl (fun c e => c.insert e.1 e.2) empty

/-- The codes, ascending. -/
def codes (c : Catalogue α) : List Text := c.entries.map (·.1)

/-- A code is in a catalogue if a value is filed under it. -/
instance : Membership Text (Catalogue α) := ⟨fun c code => code ∈ c.codes⟩

instance (code : Text) (c : Catalogue α) : Decidable (code ∈ c) :=
  inferInstanceAs (Decidable (code ∈ c.codes))

/-- The value under the first code that satisfies `p`. -/
def first? (c : Catalogue α) (p : Text → Bool) : Option α :=
  (c.entries.find? (fun e => p e.1)).map (·.2)

/-- The value filed under exactly this code. -/
def get? (c : Catalogue α) (code : Text) : Option α := c.first? (· == code)

end Catalogue

end Gherkin
