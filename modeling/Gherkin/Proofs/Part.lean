import Gherkin.Feature.Assembly
import Mathlib.Data.List.Basic
import Mathlib.Data.List.Induction
import Mathlib.Data.List.TakeWhile

/-!
# Parts of a list

Features, containers, steps and examples all own what follows them up to the
next of their kind.  `parts p l` lists these stretches of `l`: one for every
member that satisfies `p`, with what stands before it and its slice behind it.

> `mem_parts`: a part is a place in the list where `p` holds.

Assembling takes tokens one at a time, so the lemmas that matter say what
happens at the end of the list: another opening member is a part of its own
(`parts_concat_of_pos`), and anything else joins the slice of the last part
(`parts_concat_of_neg`).
-/

namespace Gherkin

variable {α β : Type}

/-! ## Changing the last member -/

theorem modifyLast_concat (f : α → α) (a : α) :
    ∀ l : List α, modifyLast f (l ++ [a]) = l ++ [f a]
  | [] => rfl
  | [_] => rfl
  | b :: c :: l => by
    show b :: modifyLast f ((c :: l) ++ [a]) = b :: ((c :: l) ++ [f a])
    rw [modifyLast_concat f a (c :: l)]

@[simp] theorem modifyLast_id : ∀ l : List α, modifyLast (fun a => a) l = l
  | [] => rfl
  | [_] => rfl
  | b :: c :: l => by
    show b :: modifyLast (fun a => a) (c :: l) = b :: c :: l
    rw [modifyLast_id (c :: l)]

@[simp] theorem dropLast_modifyLast (f : α → α) (l : List α) :
    (modifyLast f l).dropLast = l.dropLast := by
  rcases List.eq_nil_or_concat' l with rfl | ⟨l, b, rfl⟩
  · rfl
  · rw [modifyLast_concat, List.dropLast_concat, List.dropLast_concat]

@[simp] theorem getLast?_modifyLast (f : α → α) (l : List α) :
    (modifyLast f l).getLast? = l.getLast?.map f := by
  rcases List.eq_nil_or_concat' l with rfl | ⟨l, b, rfl⟩
  · rfl
  · rw [modifyLast_concat, List.getLast?_concat, List.getLast?_concat, Option.map_some]

/-- To map over a list whose last member was changed is to change the last image. -/
theorem map_modifyLast {f : α → α} {g : α → β} {f' : β → β} (h : ∀ a, g (f a) = f' (g a))
    (l : List α) : (modifyLast f l).map g = modifyLast f' (l.map g) := by
  rcases List.eq_nil_or_concat' l with rfl | ⟨l, b, rfl⟩
  · rfl
  · simp only [modifyLast_concat, List.map_append, List.map_cons, List.map_nil, h]

/-- A change of the last member that the map does not see. -/
theorem map_modifyLast_of_eq {f : α → α} {g : α → β} (h : ∀ a, g (f a) = g a) (l : List α) :
    (modifyLast f l).map g = l.map g := by
  rw [@map_modifyLast α β f g (fun b => b) h l, modifyLast_id]

/-- What the last member of a list gains, the list gains. -/
theorem flatMap_modifyLast {f : α → α} {g : α → List β} {m : List β}
    (h : ∀ a, g (f a) = g a ++ m) (l : List α) :
    (modifyLast f l).flatMap g = l.flatMap g ++ if l = [] then [] else m := by
  rcases List.eq_nil_or_concat' l with rfl | ⟨l, a, rfl⟩
  · rfl
  · simp [modifyLast_concat, h]

/-! ## Parts -/

/-- A stretch of a list: the member that opens it, what stands before that
member, and what follows it up to the next one of its kind. -/
structure Part (α : Type) where
  before : List α
  head : α
  slice : List α
deriving DecidableEq, Repr

namespace Part

/-- The part with one more member at its end. -/
def snoc (q : Part α) (a : α) : Part α := { q with slice := q.slice ++ [a] }

/-- Where in the list the part opens. -/
def position (q : Part α) : Nat := q.before.length

@[simp] theorem snoc_before (q : Part α) (a : α) : (q.snoc a).before = q.before := rfl

@[simp] theorem snoc_head (q : Part α) (a : α) : (q.snoc a).head = q.head := rfl

@[simp] theorem snoc_slice (q : Part α) (a : α) : (q.snoc a).slice = q.slice ++ [a] := rfl

end Part

/-- The parts of a list that stands behind `before`. -/
def partsAfter (p : α → Bool) (before : List α) : List α → List (Part α)
  | [] => []
  | a :: l =>
    if p a then ⟨before, a, l.takeWhile (fun b => !p b)⟩ :: partsAfter p (before ++ [a]) l
    else partsAfter p (before ++ [a]) l

/-- The parts that the members satisfying `p` open, in order. -/
def parts (p : α → Bool) (l : List α) : List (Part α) := partsAfter p [] l

@[simp] theorem parts_nil (p : α → Bool) : parts p [] = [] := rfl

theorem mem_partsAfter {p : α → Bool} {q : Part α} :
    ∀ {before l : List α}, q ∈ partsAfter p before l ↔
      ∃ front rest, l = front ++ q.head :: rest ∧ q.before = before ++ front ∧
        p q.head = true ∧ q.slice = rest.takeWhile (fun b => !p b)
  | before, [] => by simp [partsAfter]
  | before, a :: l => by
    have hmem : q ∈ partsAfter p before (a :: l) ↔
        (p a = true ∧ q = ⟨before, a, l.takeWhile (fun b => !p b)⟩) ∨
          q ∈ partsAfter p (before ++ [a]) l := by
      rw [partsAfter]
      split <;> simp [*]
    rw [hmem, mem_partsAfter (l := l)]
    constructor
    · rintro (⟨ha, rfl⟩ | ⟨front, rest, rfl, hb, hp, hs⟩)
      · exact ⟨[], l, rfl, by simp, ha, rfl⟩
      · exact ⟨a :: front, rest, rfl, by rw [hb]; simp, hp, hs⟩
    · rintro ⟨front, rest, hl, hb, hp, hs⟩
      cases front with
      | nil =>
        obtain ⟨rfl, rfl⟩ := List.cons.inj hl
        obtain ⟨qb, qh, qs⟩ := q
        simp only [List.append_nil] at hb hs
        exact Or.inl ⟨hp, by rw [hb, hs]⟩
      | cons b front =>
        obtain ⟨rfl, rfl⟩ := List.cons.inj hl
        exact Or.inr ⟨front, rest, rfl, by rw [hb]; simp, hp, hs⟩

/-- A part is a place in the list where `p` holds: what is before it, the member
there, and what follows up to the next such member. -/
theorem mem_parts {p : α → Bool} {q : Part α} {l : List α} :
    q ∈ parts p l ↔ ∃ rest, l = q.before ++ q.head :: rest ∧ p q.head = true ∧
      q.slice = rest.takeWhile (fun b => !p b) := by
  rw [parts, mem_partsAfter]
  constructor
  · rintro ⟨front, rest, hl, hb, hp, hs⟩
    rw [List.nil_append] at hb
    exact ⟨rest, by rw [hb]; exact hl, hp, hs⟩
  · rintro ⟨rest, hl, hp, hs⟩
    exact ⟨q.before, rest, hl, rfl, hp, hs⟩

/-- Behind the slice of a part the list ends or another part opens. -/
theorem exists_rest_of_mem_parts {p : α → Bool} {q : Part α} {l : List α} (h : q ∈ parts p l) :
    ∃ rest, l = q.before ++ q.head :: (q.slice ++ rest) ∧
      ∀ a, rest.head? = some a → p a = true := by
  obtain ⟨rest, hl, -, hs⟩ := mem_parts.1 h
  refine ⟨rest.dropWhile (fun b => !p b), ?_, ?_⟩
  · rw [hs, List.takeWhile_append_dropWhile]
    exact hl
  · intro a ha
    have hnot := List.head?_dropWhile_not (fun b => !p b) rest
    rw [ha] at hnot
    simpa using hnot

/-- A part stands in the list as a whole. -/
theorem exists_append_of_mem_parts {p : α → Bool} {q : Part α} {l : List α} (h : q ∈ parts p l) :
    ∃ rest, l = q.before ++ q.head :: (q.slice ++ rest) := by
  obtain ⟨rest, hl, -⟩ := exists_rest_of_mem_parts h
  exact ⟨rest, hl⟩

theorem head_of_mem_parts {p : α → Bool} {q : Part α} {l : List α} (h : q ∈ parts p l) :
    p q.head = true := by
  obtain ⟨-, -, hp, -⟩ := mem_parts.1 h
  exact hp

/-- A member of the slice of a part opens no part itself. -/
theorem of_mem_slice {p : α → Bool} {q : Part α} {l : List α} (hq : q ∈ parts p l) :
    ∀ a ∈ q.slice, p a = false := by
  intro a ha
  obtain ⟨rest, -, -, hslice⟩ := mem_parts.1 hq
  rw [hslice] at ha
  simpa using List.mem_takeWhile_imp ha

/-- Parts open exactly where `p` holds. -/
theorem partsAfter_map_head (p : α → Bool) :
    ∀ before l : List α, (partsAfter p before l).map Part.head = l.filter p
  | before, [] => rfl
  | before, a :: l => by
    rw [partsAfter]
    by_cases ha : p a
    · rw [if_pos ha, List.map_cons, List.filter_cons_of_pos ha, partsAfter_map_head p _ l]
    · rw [if_neg ha, List.filter_cons_of_neg ha, partsAfter_map_head p _ l]

theorem parts_map_head (p : α → Bool) (l : List α) : (parts p l).map Part.head = l.filter p :=
  partsAfter_map_head p [] l

/-- The parts of a list behind more of it. -/
theorem partsAfter_append (p : α → Bool) (before m : List α) :
    ∀ l : List α, partsAfter p (before ++ l) m =
      (partsAfter p l m).map (fun q => { q with before := before ++ q.before }) := by
  induction m with
  | nil => intro l; rfl
  | cons a m ih =>
    intro l
    rw [partsAfter, partsAfter, List.append_assoc, ih]
    split <;> rfl

theorem partsAfter_eq_nil {p : α → Bool} :
    ∀ {before l : List α}, partsAfter p before l = [] ↔ ∀ a ∈ l, p a = false
  | before, [] => by simp [partsAfter]
  | before, a :: l => by
    rw [partsAfter]
    by_cases ha : p a
    · simp [ha]
    · rw [if_neg ha, partsAfter_eq_nil (l := l)]
      simp [ha]

theorem parts_eq_nil {p : α → Bool} {l : List α} : parts p l = [] ↔ ∀ a ∈ l, p a = false :=
  partsAfter_eq_nil

/-- Two lists, one behind the other: the last part of the first reaches into the
second, up to the first part there. -/
theorem partsAfter_append_right (p : α → Bool) (m : List α) :
    ∀ before l : List α, partsAfter p before (l ++ m) =
      modifyLast (fun q => { q with slice := q.slice ++ m.takeWhile (fun b => !p b) })
        (partsAfter p before l) ++ partsAfter p (before ++ l) m
  | before, [] => by simp [partsAfter, modifyLast]
  | before, a :: l => by
    rw [List.cons_append, partsAfter, partsAfter, partsAfter_append_right p m (before ++ [a]) l,
      List.append_assoc, List.singleton_append]
    by_cases ha : p a
    · rw [if_pos ha, if_pos ha]
      cases hl : partsAfter p (before ++ [a]) l with
      | nil =>
        have hnone : ∀ b ∈ l, (!p b) = true := by
          intro b hb
          simp [partsAfter_eq_nil.1 hl b hb]
        rw [List.takeWhile_append_of_pos hnone, List.takeWhile_eq_self_iff.2 hnone]
        rfl
      | cons q qs =>
        -- a part opens within `l`, so the slice of `a` ends before `m`
        have hsome : ¬ ∀ b ∈ l, p b = false := by
          intro hall
          have hnil : partsAfter p (before ++ [a]) l = [] := partsAfter_eq_nil.2 hall
          exact List.cons_ne_nil q qs (hl ▸ hnil)
        have hlt : (l.takeWhile (fun b => !p b)).length ≠ l.length := by
          intro hlen
          apply hsome
          intro b hb
          have hself := (List.takeWhile_prefix (fun b => !p b) (l := l)).eq_of_length hlen
          simpa using List.takeWhile_eq_self_iff.1 hself b hb
        rw [List.takeWhile_append, if_neg hlt]
        rfl
    · rw [if_neg ha, if_neg ha]

theorem parts_append (p : α → Bool) (l m : List α) :
    parts p (l ++ m) =
      modifyLast (fun q => { q with slice := q.slice ++ m.takeWhile (fun b => !p b) }) (parts p l)
        ++ (parts p m).map (fun q => { q with before := l ++ q.before }) := by
  have h := partsAfter_append p l m []
  rw [List.append_nil] at h
  rw [parts, parts, parts, partsAfter_append_right, List.nil_append, h]

/-- In the middle of a list, too, an opening member is a part of its own. -/
theorem parts_append_cons_of_pos {p : α → Bool} {a : α} (ha : p a = true) (l m : List α) :
    parts p (l ++ a :: m) =
      parts p l ++ ⟨l, a, m.takeWhile (fun b => !p b)⟩
        :: (parts p m).map (fun q => { q with before := l ++ a :: q.before }) := by
  have htake : (a :: m).takeWhile (fun b => !p b) = [] := by simp [ha]
  have hm := parts_append p [a] m
  rw [List.singleton_append] at hm
  rw [parts_append, htake, hm]
  simp [parts, partsAfter, ha, modifyLast]

/-- And any other member belongs to the part that is open before it. -/
theorem parts_append_cons_of_neg {p : α → Bool} {a : α} (ha : p a = false) (l m : List α) :
    parts p (l ++ a :: m) =
      modifyLast (fun q => { q with slice := q.slice ++ a :: m.takeWhile (fun b => !p b) })
          (parts p l)
        ++ (parts p m).map (fun q => { q with before := l ++ a :: q.before }) := by
  have htake : (a :: m).takeWhile (fun b => !p b) = a :: m.takeWhile (fun b => !p b) := by
    simp [ha]
  have hm := parts_append p [a] m
  rw [List.singleton_append] at hm
  rw [parts_append, htake, hm]
  simp [parts, partsAfter, ha, modifyLast]

/-- There are as many parts as members that open one. -/
theorem length_parts (p : α → Bool) (l : List α) : (parts p l).length = l.countP p := by
  rw [← List.length_map Part.head, parts_map_head, List.countP_eq_length_filter]

/-- Another opening member at the end is a part of its own. -/
theorem parts_concat_of_pos {p : α → Bool} {a : α} (ha : p a = true) (l : List α) :
    parts p (l ++ [a]) = parts p l ++ [⟨l, a, []⟩] := by
  rw [parts_append]
  simp [parts, partsAfter, ha]

/-- Any other member joins the slice of the last part. -/
theorem parts_concat_of_neg {p : α → Bool} {a : α} (ha : p a = false) (l : List α) :
    parts p (l ++ [a]) = modifyLast (fun q => q.snoc a) (parts p l) := by
  rw [parts_append]
  simp [parts, partsAfter, ha, Part.snoc]

/-- The last part reaches to the end of the list. -/
theorem eq_of_getLast?_parts {p : α → Bool} {q : Part α} {l : List α}
    (h : (parts p l).getLast? = some q) :
    l = q.before ++ q.head :: q.slice ∧ p q.head = true := by
  induction l using List.reverseRecOn generalizing q with
  | nil => simp at h
  | append_singleton l a ih =>
    cases ha : p a with
    | true =>
      rw [parts_concat_of_pos ha, List.getLast?_concat, Option.some.injEq] at h
      subst h
      exact ⟨rfl, ha⟩
    | false =>
      rw [parts_concat_of_neg ha, getLast?_modifyLast, Option.map_eq_some_iff] at h
      obtain ⟨r, hr, rfl⟩ := h
      obtain ⟨hl, hp⟩ := ih hr
      exact ⟨by rw [hl]; simp, hp⟩

end Gherkin
