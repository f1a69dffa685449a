import Gherkin.Line.Pattern
import Gherkin.Proofs.TextBlock
import Gherkin.Proofs.Wording

/-!
# What the pattern of a keyword captures

What goes before the text of a line can be matched in several ways, so it has to be
shown that going back from one way to the next never helps.  The way tried first
leaves the shortest rest (`Pattern.Leaves`), so a rest on a single line is left by
the first way or by none.

> `Line.capture?_eq_payloadAfter?`: on a trimmed line the pattern of a keyword
> captures what is written behind the keyword, and it matches no line to which the
> keyword does not apply.
-/

namespace Gherkin

/-! ## Ways to match -/

namespace Pattern

theorem ways_literal : ∀ k s : Text,
    (literal k).ways s = ((Text.after? k s).map fun rest => ⟨k, none, rest⟩).toList
  | [], s => rfl
  | c :: k, [] => rfl
  | c :: k, d :: s => by
    rw [literal, List.foldr_cons, ways, ways, Text.after?]
    by_cases h : d = c
    · subst h
      have ih := ways_literal k s
      rw [literal] at ih
      cases hrest : Text.after? k s <;> simp [ih, hrest]
    · simp [h, Ne.symm h]

/-- Only the longest run of a class can reach the end of the text. -/
theorem filter_runs (p : Char → Bool) : ∀ s : Text,
    (runs p s).filter (·.2.isEmpty) = if s.all p then [(s, [])] else []
  | [] => rfl
  | c :: s => by
    rw [runs]
    by_cases hc : p c = true
    · have ih := filter_runs p s
      rw [if_pos hc, List.filter_append, List.filter_map]
      have hsame : ((fun v : Text × Text => v.2.isEmpty) ∘ fun v : Text × Text => (c :: v.1, v.2)) =
          fun v => v.2.isEmpty := rfl
      rw [hsame, ih]
      by_cases hs : s.all p = true <;> simp [hc, hs]
    · simp [hc]

/-- The rest of a text is taken, and noted, if it is on a single line. -/
theorem ways_lastLine (s : Text) :
    lastLine.ways s = if '\n' ∈ s then [] else [⟨s, some s, []⟩] := by
  have hends : lastLine.ways s =
      ((runs (· != '\n') s).filter (·.2.isEmpty)).map fun v => ⟨v.1, some v.1, []⟩ := by
    rw [lastLine, ways, ways, ways]
    induction runs (· != '\n') s with
    | nil => rfl
    | cons v vs ih =>
      rw [List.map_cons, List.map_cons, List.flatMap_cons, ih, List.filter_cons]
      by_cases hv : v.2.isEmpty = true <;> simp [ways, hv]
  have hall : s.all (· != '\n') = true ↔ '\n' ∉ s := by
    rw [List.all_eq_true]
    constructor
    · intro h hs
      simpa using h _ hs
    · intro h c hc
      exact bne_iff_ne.2 fun hline => h (hline ▸ hc)
  rw [hends, filter_runs]
  by_cases hs : '\n' ∈ s
  · rw [if_neg (fun h => hall.1 h hs), if_pos hs]
    rfl
  · rw [if_pos (hall.2 hs), if_neg hs]
    rfl

/-- Where the first way to match the start of a text stops. -/
def first? (a : Pattern) (s : Text) : Option Text := (a.ways s).head?.map Way.rest

variable {a b : Pattern} {s t u : Text}

theorem first?_eq_some : a.first? s = some u ↔ ∃ v vs, a.ways s = v :: vs ∧ v.rest = u := by
  rw [first?]
  cases h : a.ways s <;> simp

theorem first?_seq (ha : a.first? s = some t) (hb : b.first? t = some u) :
    (seq a b).first? s = some u := by
  obtain ⟨v, vs, hv, rfl⟩ := first?_eq_some.1 ha
  obtain ⟨w, ws, hw, rfl⟩ := first?_eq_some.1 hb
  rw [first?, ways_seq, hv, List.flatMap_cons, hw]
  rfl

theorem first?_either (ha : a.first? s = some u) : (either a b).first? s = some u := by
  obtain ⟨v, vs, hv, rfl⟩ := first?_eq_some.1 ha
  rw [first?, ways_either, hv]
  rfl

theorem first?_either_of_nil (ha : a.ways s = []) (hb : b.first? s = some u) :
    (either a b).first? s = some u := by
  rw [first?, ways_either, ha]
  exact hb

theorem rest_of_mem_seq {w : Way} (hw : w ∈ (seq a b).ways s) :
    ∃ v ∈ a.ways s, ∃ x ∈ b.ways v.rest, x.rest = w.rest := by
  rw [ways_seq] at hw
  obtain ⟨v, hv, hw⟩ := List.mem_flatMap.1 hw
  obtain ⟨x, hx, rfl⟩ := List.mem_map.1 hw
  exact ⟨v, hv, x, hx, rfl⟩

theorem mem_either {w : Way} :
    w ∈ (either a b).ways s ↔ w ∈ a.ways s ∨ w ∈ b.ways s := by
  rw [ways_either, List.mem_append]

theorem ways_seq_of_nil (ha : a.ways s = []) : (seq a b).ways s = [] := by
  rw [ways_seq, ha]
  rfl

/-- That the first way to match the start of `s` leaves `u`, and no way less. -/
structure Leaves (a : Pattern) (s u : Text) : Prop where
  first : a.first? s = some u
  least : ∀ w ∈ a.ways s, u <:+ w.rest

/-- In front of the last line, no way helps where the first one fails. -/
theorem Leaves.capture?_lastLine (h : a.Leaves s u) :
    (seq a lastLine).capture? s = if '\n' ∈ u then none else some u := by
  rw [capture?, ways_seq]
  by_cases hu : '\n' ∈ u
  · have hnone : ((a.ways s).flatMap fun v => (lastLine.ways v.rest).map fun w =>
        Way.mk (v.taken ++ w.taken) (w.noted.or v.noted) w.rest) = [] := by
      apply List.flatMap_eq_nil_iff.2
      intro v hv
      rw [ways_lastLine, if_pos ((h.least v hv).subset hu), List.map_nil]
    rw [hnone, if_pos hu]
    rfl
  · obtain ⟨v, vs, hv, rfl⟩ := first?_eq_some.1 h.first
    rw [hv, List.flatMap_cons, ways_lastLine, if_neg hu, if_neg hu]
    rfl

theorem capture?_seq_of_nil (ha : a.ways s = []) : (seq a b).capture? s = none := by
  rw [capture?, ways_seq_of_nil ha]
  rfl

theorem capture?_literal (k s : Text) :
    (seq (literal k) b).capture? s = (Text.after? k s).bind b.capture? := by
  rw [capture?, ways_seq, ways_literal]
  cases Text.after? k s with
  | none => rfl
  | some rest =>
    simp only [Option.map_some, Option.toList_some, List.flatMap_cons, List.flatMap_nil,
      List.append_nil, List.head?_map, Option.bind_some, capture?]
    cases (b.ways rest).head? <;> simp

/-! ## White space and a colon -/

theorem first?_blanks : ∀ s : Text, blanks.first? s = some (Text.trimStart s)
  | [] => rfl
  | c :: s => by
    have ih := first?_blanks s
    rw [first?, blanks, ways] at ih ⊢
    rw [runs]
    by_cases hc : Text.isBlank c = true
    · rw [if_pos hc, Text.trimStart, List.dropWhile_cons_of_pos hc]
      rw [Text.trimStart] at ih
      cases hruns : runs Text.isBlank s <;> simp_all
    · rw [if_neg hc, Text.trimStart, List.dropWhile_cons_of_neg hc]
      rfl

/-- However much white space is taken off, the same is left when all of it is. -/
theorem trimStart_of_mem_blanks : ∀ {s : Text} {w : Way}, w ∈ blanks.ways s →
    Text.trimStart w.rest = Text.trimStart s
  | [], w, hw => by
    obtain rfl := List.mem_singleton.1 hw
    rfl
  | c :: s, w, hw => by
    rw [blanks, ways, runs] at hw
    by_cases hc : Text.isBlank c = true
    · rw [if_pos hc, List.map_append, List.mem_append, List.map_map] at hw
      rcases hw with hw | hw
      · obtain ⟨v, hv, rfl⟩ := List.mem_map.1 hw
        have ih : Text.trimStart v.2 = Text.trimStart s :=
          trimStart_of_mem_blanks (w := ⟨v.1, none, v.2⟩) (List.mem_map.2 ⟨v, hv, rfl⟩)
        rw [Text.trimStart, Text.trimStart, List.dropWhile_cons_of_pos hc]
        exact ih
      · obtain rfl := List.mem_singleton.1 hw
        rfl
    · rw [if_neg hc] at hw
      obtain rfl := List.mem_singleton.1 hw
      rfl

theorem rest_of_mem_one {p : Char → Bool} {w : Way} (hw : w ∈ (one p).ways s) :
    ∃ c, p c = true ∧ s = c :: w.rest := by
  cases s with
  | nil => cases hw
  | cons c s =>
    rw [ways] at hw
    split at hw
    next hc =>
      obtain rfl := List.mem_singleton.1 hw
      exact ⟨c, hc, rfl⟩
    next => cases hw

theorem rest_of_mem_colon {w : Way} (hw : w ∈ colon.ways s) : s = ':' :: w.rest := by
  obtain ⟨c, hc, rfl⟩ := rest_of_mem_one hw
  rw [beq_iff_eq.1 hc]

theorem rest_of_mem_theEnd {w : Way} (hw : w ∈ theEnd.ways s) : w.rest = s := by
  rw [ways] at hw
  split at hw
  next hs =>
    obtain rfl := List.mem_singleton.1 hw
    exact (List.isEmpty_iff.1 hs).symm
  next => cases hw

theorem trimStart_of_mem_someBlanks {w : Way} (hw : w ∈ someBlanks.ways s) :
    Text.trimStart w.rest = Text.trimStart s := by
  obtain ⟨v, hv, x, hx, hrest⟩ := rest_of_mem_seq hw
  obtain ⟨c, hc, rfl⟩ := rest_of_mem_one hv
  rw [← hrest, trimStart_of_mem_blanks hx, Text.trimStart, Text.trimStart,
    List.dropWhile_cons_of_pos hc]

theorem trimStart_of_mem_someBlanks_theEnd {w : Way}
    (hw : w ∈ (either someBlanks theEnd).ways s) : Text.trimStart w.rest = Text.trimStart s := by
  rcases mem_either.1 hw with hw | hw
  · exact trimStart_of_mem_someBlanks hw
  · rw [rest_of_mem_theEnd hw]

/-- The colon behind some white space is the first that is no white space. -/
theorem trimStart_of_mem_colon {v w : Way} (hv : v ∈ blanks.ways s) (hw : w ∈ colon.ways v.rest) :
    Text.trimStart s = ':' :: w.rest := by
  rw [← trimStart_of_mem_blanks hv, rest_of_mem_colon hw]
  exact List.dropWhile_cons_of_neg (by decide)

theorem ways_blanks_colon_eq_nil (hne : ∀ u, Text.trimStart s ≠ ':' :: u) :
    (seq blanks (seq colon b)).ways s = [] := by
  apply List.eq_nil_iff_forall_not_mem.2
  intro w hw
  obtain ⟨v, hv, x, hx, -⟩ := rest_of_mem_seq hw
  obtain ⟨y, hy, -⟩ := rest_of_mem_seq hx
  exact hne y.rest (trimStart_of_mem_colon hv hy)

theorem first?_someBlanks {c : Char} (hc : Text.isBlank c = true) (s : Text) :
    someBlanks.first? (c :: s) = some (Text.trimStart (c :: s)) := by
  have hone : (one Text.isBlank).first? (c :: s) = some s := by
    rw [first?, ways, if_pos hc]
    rfl
  rw [Text.trimStart, List.dropWhile_cons_of_pos hc]
  exact first?_seq hone (first?_blanks s)

/-- Where white space has to follow, it does, or the text ends. -/
theorem first?_someBlanks_theEnd (hs : ∀ c, s.head? = some c → Text.isBlank c = true) :
    (either someBlanks theEnd).first? s = some (Text.trimStart s) := by
  cases s with
  | nil => rfl
  | cons c s => exact first?_either (first?_someBlanks (hs c rfl) s)

theorem first?_blanks_colon (hs : Text.trimStart s = ':' :: u)
    (ha : a.first? (':' :: u) = some u) :
    (seq blanks (seq a blanks)).first? s = some (Text.trimStart u) :=
  first?_seq (hs ▸ first?_blanks s) (first?_seq ha (first?_blanks u))

/-- Without a colon only white space goes before the text. -/
theorem first?_blanks_of_ne_colon (hne : ∀ u, Text.trimStart s ≠ ':' :: u) :
    (seq blanks (seq (either colon nothing) blanks)).first? s = some (Text.trimStart s) := by
  have hnothing : (either colon nothing).first? (Text.trimStart s) = some (Text.trimStart s) := by
    refine first?_either_of_nil ?_ rfl
    apply List.eq_nil_iff_forall_not_mem.2
    intro w hw
    exact hne w.rest (rest_of_mem_colon hw)
  -- the first run took all white space, so the second finds none
  have hagain := first?_blanks (Text.trimStart s)
  rw [Text.trimStart, Text.trimStart, List.dropWhile_idempotent] at hagain
  exact first?_seq (first?_blanks s) (first?_seq hnothing hagain)

end Pattern

/-! ## Separators -/

namespace Line

open Pattern

/-- What is left of `rest`, which follows a keyword, without what separates them. -/
def afterSeparator (role : Role) (rest : Text) : Text :=
  if role.isStep then Text.trimStart rest
  else
    match Text.trimStart rest with
    | ':' :: s => Text.trimStart s
    | s => s

variable {role : Role} {keyword rest : Text}

/-- A way past a separator takes white space off or, from a structural keyword, a
colon and the white space around it. -/
theorem of_mem_separator {w : Way} (hw : w ∈ (separator role keyword).ways rest) :
    Text.trimStart w.rest = Text.trimStart rest ∨
      role.isStep = false ∧ ∃ s, Text.trimStart rest = ':' :: s ∧
        Text.trimStart w.rest = Text.trimStart s := by
  unfold separator at hw
  split at hw
  next hstep _ =>
    rcases mem_either.1 hw with hw | hw
    · obtain ⟨v, hv, x, hx, hxw⟩ := rest_of_mem_seq hw
      obtain ⟨y, hy, z, hz, hzx⟩ := rest_of_mem_seq hx
      exact Or.inr ⟨hstep, y.rest, trimStart_of_mem_colon hv hy,
        hxw ▸ hzx ▸ trimStart_of_mem_blanks hz⟩
    · exact Or.inl (trimStart_of_mem_someBlanks_theEnd hw)
  next hstep _ =>
    obtain ⟨v, hv, x, hx, hxw⟩ := rest_of_mem_seq hw
    obtain ⟨y, hy, z, hz, hzx⟩ := rest_of_mem_seq hx
    rcases mem_either.1 hy with hy | hy
    · exact Or.inr ⟨hstep, y.rest, trimStart_of_mem_colon hv hy,
        hxw ▸ hzx ▸ trimStart_of_mem_blanks hz⟩
    · obtain rfl := List.mem_singleton.1 hy
      left
      rw [← hxw, ← hzx, trimStart_of_mem_blanks hz, trimStart_of_mem_blanks hv]
  next => exact Or.inl (trimStart_of_mem_someBlanks_theEnd hw)
  next => exact Or.inl (trimStart_of_mem_blanks hw)

theorem afterSeparator_step (hstep : role.isStep = true) :
    afterSeparator role rest = Text.trimStart rest := if_pos hstep

theorem afterSeparator_colon (hstep : role.isStep = false) {s : Text}
    (hs : Text.trimStart rest = ':' :: s) : afterSeparator role rest = Text.trimStart s := by
  rw [afterSeparator, hstep, if_neg (by simp), hs]
  rfl

theorem afterSeparator_of_ne_colon (hne : ∀ s, Text.trimStart rest ≠ ':' :: s) :
    afterSeparator role rest = Text.trimStart rest := by
  unfold afterSeparator
  split
  · rfl
  · split
    next s hs => exact absurd hs (hne s)
    next => rfl

theorem afterSeparator_suffix (role : Role) (rest : Text) :
    afterSeparator role rest <:+ Text.trimStart rest := by
  unfold afterSeparator
  split
  · exact List.suffix_rfl
  · split
    next hs =>
      rw [hs]
      exact (List.dropWhile_suffix _).trans (List.suffix_cons _ _)
    next => exact List.suffix_rfl

theorem afterSeparator_suffix_of_mem {w : Way} (hw : w ∈ (separator role keyword).ways rest) :
    afterSeparator role rest <:+ w.rest := by
  rcases of_mem_separator hw with hrest | ⟨hstep, s, hcolon, hrest⟩
  · exact (afterSeparator_suffix role rest).trans (hrest ▸ List.dropWhile_suffix _)
  · rw [afterSeparator_colon hstep hcolon, ← hrest]
    exact List.dropWhile_suffix _

theorem isSeparated_iff :
    isSeparated role rest = true ↔
      ∀ b, rest.head? = some b → Text.isBlank b = true ∨ (role.isStep = false ∧ b = ':') := by
  cases rest with
  | nil => simp [isSeparated]
  | cons b rest => simp [isSeparated, and_comm]

/-- The first way past a separator takes all of it. -/
theorem first?_separator (h : wantsSeparator keyword = true → isSeparated role rest = true) :
    (separator role keyword).first? rest = some (afterSeparator role rest) := by
  unfold separator
  split
  next hstep hwants =>
    by_cases hcolon : ∃ s, Text.trimStart rest = ':' :: s
    · obtain ⟨s, hs⟩ := hcolon
      rw [afterSeparator_colon hstep hs]
      exact first?_either (first?_blanks_colon hs rfl)
    · have hne := not_exists.1 hcolon
      rw [afterSeparator_of_ne_colon hne]
      -- no colon, so white space or the end of the line is what separates
      apply first?_either_of_nil (ways_blanks_colon_eq_nil hne)
      apply first?_someBlanks_theEnd
      intro c hc
      rcases isSeparated_iff.1 (h hwants) c hc with hblank | ⟨-, rfl⟩
      · exact hblank
      · obtain ⟨s, rfl⟩ := List.head?_eq_some_iff.1 hc
        exact absurd (List.dropWhile_cons_of_neg (by decide)) (hne s)
  next hstep _ =>
    by_cases hcolon : ∃ s, Text.trimStart rest = ':' :: s
    · obtain ⟨s, hs⟩ := hcolon
      rw [afterSeparator_colon hstep hs]
      exact first?_blanks_colon hs (first?_either rfl)
    · rw [afterSeparator_of_ne_colon (not_exists.1 hcolon)]
      exact first?_blanks_of_ne_colon (not_exists.1 hcolon)
  next hstep hwants =>
    rw [afterSeparator_step hstep]
    apply first?_someBlanks_theEnd
    intro c hc
    rcases isSeparated_iff.1 (h hwants) c hc with hblank | ⟨hnot, -⟩
    · exact hblank
    · rw [hstep] at hnot
      cases hnot
  next hstep _ =>
    rw [afterSeparator_step hstep]
    exact first?_blanks rest

/-- Where a separator has to follow and does not, nothing matches. -/
theorem ways_separator_eq_nil (hwants : wantsSeparator keyword = true)
    (hsep : isSeparated role rest = false) : (separator role keyword).ways rest = [] := by
  cases rest with
  | nil => cases hsep
  | cons c s =>
    obtain ⟨hblank, hcolon⟩ := Bool.or_eq_false_iff.1 hsep
    have hspace : (either someBlanks theEnd).ways (c :: s) = [] := by
      have hone : (one Text.isBlank).ways (c :: s) = [] := if_neg (by simp [hblank])
      rw [ways, someBlanks, ways_seq_of_nil hone]
      rfl
    unfold separator
    split
    next hstep _ =>
      have hne : ∀ u, Text.trimStart (c :: s) ≠ ':' :: u := by
        intro u hu
        rw [Text.trimStart, List.dropWhile_cons_of_neg (by simp [hblank])] at hu
        simp [(List.cons.inj hu).1, hstep] at hcolon
      rw [ways, ways_blanks_colon_eq_nil hne, hspace]
      rfl
    next h => rw [hwants] at h; cases h
    next => exact hspace
    next h => rw [hwants] at h; cases h

/-! ## What a keyword captures -/

theorem capture?_keywordPattern (line : Text) :
    (keywordPattern role keyword).capture? line =
      (Text.after? keyword line).bind fun rest =>
        if wantsSeparator keyword && !isSeparated role rest then none
        else if '\n' ∈ afterSeparator role rest then none
        else some (afterSeparator role rest) := by
  rw [keywordPattern, capture?_literal]
  congr 1
  funext rest
  split
  next h =>
    rw [Bool.and_eq_true, Bool.not_eq_true'] at h
    exact capture?_seq_of_nil (ways_separator_eq_nil h.1 h.2)
  next h =>
    have hsep : wantsSeparator keyword = true → isSeparated role rest = true := by
      intro hwants
      simpa [hwants] using h
    exact Leaves.capture?_lastLine ⟨first?_separator hsep, fun _ => afterSeparator_suffix_of_mem⟩

theorem payload_step (hstep : role.isStep = true) : payload role rest = Text.trim rest :=
  if_pos hstep

theorem payload_colon (hstep : role.isStep = false) {s : Text}
    (hs : Text.trimStart rest = ':' :: s) : payload role rest = Text.trim s := by
  rw [payload, hstep, if_neg (by simp), hs]
  rfl

theorem payload_of_ne_colon (hne : ∀ s, Text.trimStart rest ≠ ':' :: s) :
    payload role rest = Text.trim rest := by
  unfold payload
  split
  · rfl
  · split
    next s hs => exact absurd hs (hne s)
    next => rfl

/-- On a trimmed line no white space is left behind the separator. -/
theorem payload_eq_afterSeparator {k : Text} (h : Text.trim (k ++ rest) = k ++ rest) :
    payload role rest = afterSeparator role rest := by
  by_cases hcolon : ∃ s, Text.trimStart rest = ':' :: s
  · cases hstep : role.isStep with
    | true =>
      rw [payload_step hstep, afterSeparator_step hstep]
      exact (Text.trimStart_eq_trim h).symm
    | false =>
      obtain ⟨s, hs⟩ := hcolon
      obtain ⟨w, hw⟩ := List.dropWhile_suffix Text.isBlank (l := rest)
      have hrest : k ++ rest = (k ++ w ++ [':']) ++ s := by
        rw [← hw, ← Text.trimStart, hs]
        simp
      rw [payload_colon hstep hs, afterSeparator_colon hstep hs]
      exact (Text.trimStart_eq_trim (hrest ▸ h)).symm
  · have hne := not_exists.1 hcolon
    rw [payload_of_ne_colon hne, afterSeparator_of_ne_colon hne]
    exact (Text.trimStart_eq_trim h).symm

/-- On a trimmed line, a keyword captures what is written behind it. -/
theorem capture?_eq_payloadAfter? {line : Text} (hline : Text.trim line = line) (role : Role)
    (keyword : Text) : capture? role keyword line = payloadAfter? role keyword line := by
  rw [capture?, capture?_keywordPattern, payloadAfter?]
  cases hrest : Text.after? keyword line with
  | none => rfl
  | some rest =>
    rw [Text.after?_eq_some.1 hrest] at hline
    dsimp only [Option.bind_some]
    rw [← payload_eq_afterSeparator hline]
    split
    · rfl
    · simp only [List.contains_iff_mem]
      split
      · rfl
      · rw [Option.map_some, trim_payload]

end Line

end Gherkin
