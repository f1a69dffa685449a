import Gherkin.Proofs.Assembling

/-!
# Line numbers do not reach the trees

Tokens know their lines, features do not.  `Token.renumber g` gives every token
the line that `g` makes of its own, and nothing that is read off the tokens
changes.

> `build_renumber`: a document gives the same features wherever its lines stand.
-/

namespace Gherkin

variable (g : Nat → Nat)

namespace Token

/-- The token with another line. -/
def renumber (t : Token) : Token := { t with line := g t.line }

@[simp] theorem renumber_kind (t : Token) : (t.renumber g).kind = t.kind := rfl

@[simp] theorem renumber_keyword (t : Token) : (t.renumber g).keyword = t.keyword := rfl

@[simp] theorem renumber_text (t : Token) : (t.renumber g).text = t.text := rfl

@[simp] theorem renumber_isTag (t : Token) : (t.renumber g).isTag = t.isTag := rfl

@[simp] theorem renumber_isFeature (t : Token) : (t.renumber g).isFeature = t.isFeature := rfl

end Token

/-- The part whose members are the images under `f`. -/
def Part.map {α β : Type} (f : α → β) (q : Part α) : Part β :=
  ⟨q.before.map f, f q.head, q.slice.map f⟩

theorem parts_map {α β : Type} {f : α → β} {p : β → Bool} (l : List α) :
    parts p (l.map f) = (parts (fun a => p (f a)) l).map (Part.map f) := by
  have hafter : ∀ before : List α, partsAfter p (before.map f) (l.map f) =
      (partsAfter (fun a => p (f a)) before l).map (Part.map f) := by
    induction l with
    | nil => intro _; rfl
    | cons a l ih =>
      intro before
      have ih := ih (before ++ [a])
      rw [List.map_append, List.map_singleton] at ih
      rw [List.map_cons, partsAfter, partsAfter, ih]
      split
      · rw [List.map_cons, Part.map, List.takeWhile_map]
        rfl
      · rfl
  exact hafter []

theorem takeTrailing_map {α β : Type} {f : α → β} {p : β → Bool} (l : List α) :
    takeTrailing p (l.map f) = (takeTrailing (fun a => p (f a)) l).map f := by
  induction l using List.reverseRecOn with
  | nil => rfl
  | append_singleton l a ih =>
    rw [List.map_append, List.map_singleton, takeTrailing_concat, takeTrailing_concat, ih]
    split
    · rw [List.map_append, List.map_singleton]
    · rfl

namespace Reading

theorem waitingTags_renumber (ts : List Token) :
    waitingTags (ts.map (Token.renumber g)) = waitingTags ts := by
  rw [waitingTags, takeTrailing_map, List.filter_map, List.map_map]
  rfl

theorem heading_renumber (q : Part Token) : heading (q.map (Token.renumber g)) = heading q := by
  simp only [heading, Part.map, waitingTags_renumber, Token.renumber_keyword, Token.renumber_text]

theorem arguments_renumber (slice : List Token) :
    arguments (slice.map (Token.renumber g)) = arguments slice := by
  rw [arguments, List.takeWhile_map, List.dropWhile_map, List.filterMap_map, List.filterMap_map]
  rfl

theorem lastPrimary_renumber (ts : List Token) :
    lastPrimary (ts.map (Token.renumber g)) = lastPrimary ts := by
  rw [lastPrimary, List.filterMap_map]
  rfl

theorem step_renumber (q : Part Token) : step (q.map (Token.renumber g)) = step q := by
  simp only [step, Part.map, arguments_renumber, lastPrimary_renumber, Token.renumber_keyword,
    Token.renumber_text]
  rfl

theorem steps_renumber (slice : List Token) :
    steps (slice.map (Token.renumber g)) = steps slice := by
  rw [steps, parts_map, List.map_map]
  exact List.map_congr_left fun q _ => step_renumber g q

theorem rows_renumber (slice : List Token) :
    rows (slice.map (Token.renumber g)) = rows slice := by
  rw [rows, List.takeWhile_map, List.filterMap_map]
  rfl

theorem table_renumber (q : Part Token) : table (q.map (Token.renumber g)) = table q := by
  rw [table, heading_renumber, Part.map, rows_renumber, table]

theorem tables_renumber (slice : List Token) :
    tables (slice.map (Token.renumber g)) = tables slice := by
  rw [tables, parts_map, List.map_map]
  exact List.map_congr_left fun q _ => table_renumber g q

theorem node_renumber (q : Part Token) : node (q.map (Token.renumber g)) = node q := by
  rw [node, heading_renumber, Part.map, steps_renumber, node]

theorem container_renumber (q : Part Token) :
    container (q.map (Token.renumber g)) = container q := by
  have hkind : (q.map (Token.renumber g)).head.kind = q.head.kind := rfl
  have htables : tables (q.map (Token.renumber g)).slice = tables q.slice :=
    tables_renumber g q.slice
  rw [container, container, node_renumber, hkind, htables]

theorem containers_renumber (body : List Token) :
    containers (body.map (Token.renumber g)) = containers body := by
  rw [containers, parts_map, List.map_map]
  exact List.map_congr_left fun q _ => container_renumber g q

theorem description_renumber (body : List Token) :
    description (body.map (Token.renumber g)) = description body := by
  rw [description, List.filterMap_map]
  rfl

theorem featureHeading_renumber (q : Part Token) :
    featureHeading (q.map (Token.renumber g)) = featureHeading q := by
  rw [featureHeading, Part.map, takeTrailing_map, List.map_map]
  rfl

theorem feature_renumber (q : Part Token) : feature (q.map (Token.renumber g)) = feature q := by
  rw [feature, featureHeading_renumber, Part.map, description_renumber, containers_renumber]
  rfl

end Reading

/-- Features do not know their lines. -/
theorem build_renumber (ts : List Token) : build (ts.map (Token.renumber g)) = build ts := by
  rw [build_eq_features, build_eq_features, Reading.features, parts_map, List.map_map]
  exact List.map_congr_left fun q _ => Reading.feature_renumber g q

end Gherkin
