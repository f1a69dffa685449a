import Gherkin.Proofs.Trailing
import Gherkin.Text.Blank
import Gherkin.Text.Lines
import Gherkin.Feature.Basic

/-!
# Neat texts

Names, cells and the lines of descriptions and text blocks are all neat: they
are pieces of one line, without the white space around them.  What is neat is
written out and read back without loss:

> `lines_flatMap`, `lines_ofLines`: the lines of a text are those that were
> written into it.
-/

namespace Gherkin

namespace Text

/-! ## Taking a piece off -/

theorem after?_append (p s : Text) : after? p (p ++ s) = some s := after?_eq_some.2 rfl

theorem before?_append (p s : Text) : before? p (s ++ p) = some s := before?_eq_some.2 rfl

theorem withoutLeading_append (p s : Text) : withoutLeading p (p ++ s) = s := by
  rw [withoutLeading, after?_append]
  rfl

theorem withoutTrailing_append (p s : Text) : withoutTrailing p (s ++ p) = s := by
  rw [withoutTrailing, before?_append]
  rfl

theorem mem_of_mem_withoutTrailing {p s : Text} {c : Char} (h : c ∈ withoutTrailing p s) :
    c ∈ s := by
  unfold withoutTrailing at h
  cases hb : before? p s with
  | none =>
    rw [hb] at h
    exact h
  | some r =>
    rw [hb] at h
    rw [before?_eq_some.1 hb]
    exact List.mem_append_left _ h

theorem mem_of_mem_withoutLeading {p s : Text} {c : Char} (h : c ∈ withoutLeading p s) :
    c ∈ s := by
  unfold withoutLeading at h
  cases hb : after? p s with
  | none =>
    rw [hb] at h
    exact h
  | some r =>
    rw [hb] at h
    rw [after?_eq_some.1 hb]
    exact List.mem_append_right _ h

/-! ## Trimming -/

theorem isBlank_of_mem_spaces (n : Nat) : ∀ c ∈ List.replicate n ' ', isBlank c = true := by
  intro c hc
  rw [List.eq_of_mem_replicate hc]
  decide

theorem trimStart_append_of_blank {w : Text} (hw : ∀ c ∈ w, isBlank c = true) (s : Text) :
    trimStart (w ++ s) = trimStart s := List.dropWhile_append_of_pos hw

theorem trimEnd_append_of_blank {w : Text} (hw : ∀ c ∈ w, isBlank c = true) (s : Text) :
    trimEnd (s ++ w) = trimEnd s := dropTrailing_append_of_forall hw s

theorem trim_append_of_blank {w : Text} (hw : ∀ c ∈ w, isBlank c = true) (s : Text) :
    trim (w ++ s) = trim s := by
  rw [trim, trim, trimStart_append_of_blank hw]

/-- White space behind a text does not matter, not even behind white space. -/
theorem trim_append_blank {w : Text} (hw : ∀ c ∈ w, isBlank c = true) (s : Text) :
    trim (s ++ w) = trim s := by
  rw [trim, trim, trimStart, trimStart, List.dropWhile_append]
  split
  next h =>
    rw [List.isEmpty_iff.1 h, List.dropWhile_eq_nil_iff.2 hw]
  next => exact trimEnd_append_of_blank hw _

theorem mem_of_mem_trimStart {s : Text} {c : Char} (h : c ∈ trimStart s) : c ∈ s :=
  (List.dropWhile_sublist isBlank).subset h

theorem mem_of_mem_trimEnd {s : Text} {c : Char} (h : c ∈ trimEnd s) : c ∈ s :=
  (dropTrailing_isPrefix isBlank s).subset h

theorem mem_of_mem_trim {s : Text} {c : Char} (h : c ∈ trim s) : c ∈ s :=
  mem_of_mem_trimStart (mem_of_mem_trimEnd h)

theorem head?_trimStart {s : Text} {c : Char} (h : (trimStart s).head? = some c) :
    isBlank c = false := by
  have hnot := List.head?_dropWhile_not isBlank s
  rw [trimStart] at h
  rw [h] at hnot
  exact hnot

theorem getLast?_trimEnd {s : Text} {c : Char} (h : (trimEnd s).getLast? = some c) :
    isBlank c = false := of_getLast?_dropTrailing h

/-- What is cut off the end leaves the first character, if it leaves any. -/
theorem head?_trimEnd {s : Text} {c : Char} (h : (trimEnd s).head? = some c) :
    s.head? = some c := by
  obtain ⟨w, hw⟩ := dropTrailing_isPrefix isBlank s
  rw [← hw, List.head?_append]
  show ((trimEnd s).head?.or w.head?) = some c
  rw [h]
  rfl

theorem head?_trim {s : Text} {c : Char} (h : (trim s).head? = some c) : isBlank c = false :=
  head?_trimStart (head?_trimEnd h)

theorem getLast?_trim {s : Text} {c : Char} (h : (trim s).getLast? = some c) :
    isBlank c = false := getLast?_trimEnd h

theorem trim_eq_self {s : Text} (hhead : ∀ c, s.head? = some c → isBlank c = false)
    (hlast : ∀ c, s.getLast? = some c → isBlank c = false) : trim s = s := by
  -- the text is looked at from both ends
  have hstart : trimStart s = s := by
    cases s with
    | nil => rfl
    | cons c s => exact List.dropWhile_cons_of_neg (by simp [hhead c rfl])
  have hend : trimEnd s = s := by
    rcases List.eq_nil_or_concat' s with rfl | ⟨s, c, rfl⟩
    · rfl
    · rw [trimEnd, dropTrailing_concat, if_neg (by simp [hlast c (by simp)])]
  rw [trim, hstart, hend]

theorem trim_trim (s : Text) : trim (trim s) = trim s :=
  trim_eq_self (fun _ => head?_trim) fun _ => getLast?_trim

/-! ## Neat texts -/

/-- A text on one line, with no white space around it. -/
structure IsNeat (s : Text) : Prop where
  head : ∀ c, s.head? = some c → isBlank c = false
  last : ∀ c, s.getLast? = some c → isBlank c = false
  oneLine : '\n' ∉ s

theorem isNeat_trim {s : Text} (h : '\n' ∉ s) : IsNeat (trim s) where
  head _ := head?_trim
  last _ := getLast?_trim
  oneLine hc := h (mem_of_mem_trim hc)

/-- What is left of a neat text without its end and the white space before that. -/
theorem IsNeat.trimEnd_of_append {s w : Text} (h : IsNeat (s ++ w)) : IsNeat (trimEnd s) where
  head c hc := h.head c (by rw [List.head?_append, head?_trimEnd hc]; rfl)
  last _ hc := getLast?_trimEnd hc
  oneLine hc := h.oneLine (List.mem_append_left _ (mem_of_mem_trimEnd hc))

/-- What is left of a neat text without its start and the white space behind that. -/
theorem IsNeat.trimStart_of_append {s w : Text} (h : IsNeat (w ++ s)) : IsNeat (trimStart s) where
  head _ hc := head?_trimStart hc
  last c hc := by
    obtain ⟨v, hv⟩ := List.dropWhile_suffix isBlank (l := s)
    have hs : s.getLast? = some c := by
      rw [← hv, List.getLast?_append]
      show ((trimStart s).getLast?.or v.getLast?) = some c
      rw [hc]
      rfl
    exact h.last c (by rw [List.getLast?_append, hs]; rfl)
  oneLine hc := h.oneLine (List.mem_append_right _ (mem_of_mem_trimStart hc))

theorem IsNeat.trim_eq {s : Text} (h : IsNeat s) : trim s = s := trim_eq_self h.head h.last

theorem isNeat_iff {s : Text} : IsNeat s ↔ trim s = s ∧ '\n' ∉ s := by
  constructor
  · intro h
    exact ⟨h.trim_eq, h.oneLine⟩
  · rintro ⟨htrim, hline⟩
    exact htrim ▸ isNeat_trim hline

instance (s : Text) : Decidable (IsNeat s) := decidable_of_iff _ isNeat_iff.symm

/-- Between two neat texts anything may stand that is no line feed. -/
theorem IsNeat.append {a m b : Text} (ha : IsNeat a) (hm : '\n' ∉ m) (hb : IsNeat b)
    (hane : a ≠ []) (hbne : b ≠ []) : IsNeat (a ++ m ++ b) where
  head c hc := by
    cases a with
    | nil => exact absurd rfl hane
    | cons x a => exact ha.head c hc
  last c hc := by
    rcases List.eq_nil_or_concat' b with rfl | ⟨b, x, rfl⟩
    · exact absurd rfl hbne
    · rw [← List.append_assoc, List.getLast?_concat] at hc
      exact hb.last c (by rw [List.getLast?_concat, hc])
  oneLine := by simp [ha.oneLine, hm, hb.oneLine]

/-- A neat text behind white space. -/
theorem IsNeat.trim_indented {s : Text} (h : IsNeat s) (width : Nat) :
    trim (List.replicate width ' ' ++ s) = s := by
  rw [trim_append_of_blank (isBlank_of_mem_spaces width), h.trim_eq]

/-! ## Pieces and lines -/

theorem pieces_of_not_mem {sep : Char} : ∀ {w : Text}, sep ∉ w → pieces sep w = [w]
  | [], _ => rfl
  | c :: w, h => by
    rw [List.mem_cons, not_or] at h
    rw [pieces, if_neg (Ne.symm h.1), pieces_of_not_mem h.2]

theorem pieces_append_cons {sep : Char} (s : Text) :
    ∀ {w : Text}, sep ∉ w → pieces sep (w ++ sep :: s) = w :: pieces sep s
  | [], _ => by rw [List.nil_append, pieces, if_pos rfl]
  | c :: w, h => by
    rw [List.mem_cons, not_or] at h
    rw [List.cons_append, pieces, if_neg (Ne.symm h.1), pieces_append_cons s h.2]

/-- Cutting undoes joining. -/
theorem pieces_join {sep : Char} :
    ∀ {ws : List Text}, ws ≠ [] → (∀ w ∈ ws, sep ∉ w) → pieces sep (join [sep] ws) = ws
  | [], h, _ => absurd rfl h
  | [w], _, h => pieces_of_not_mem (h w (by simp))
  | w :: v :: ws, _, h => by
    rw [join_cons _ _ (List.cons_ne_nil v ws), List.append_assoc, List.singleton_append,
      pieces_append_cons _ (h w (by simp)),
      pieces_join (List.cons_ne_nil v ws) fun u hu => h u (List.mem_cons_of_mem _ hu)]

theorem not_mem_of_mem_pieces {sep : Char} :
    ∀ {s w : Text}, w ∈ pieces sep s → sep ∉ w ∧ ∀ c ∈ w, c ∈ s
  | [], w, h => by
    rw [pieces, List.mem_singleton] at h
    simp [h]
  | c :: s, w, h => by
    have ih {v : Text} (hv : v ∈ pieces sep s) := not_mem_of_mem_pieces hv
    have hnext {v : Text} (hv : v ∈ pieces sep s) : sep ∉ v ∧ ∀ x ∈ v, x ∈ c :: s :=
      ⟨(ih hv).1, fun x hx => List.mem_cons_of_mem _ ((ih hv).2 x hx)⟩
    rw [pieces] at h
    split at h
    · rcases List.mem_cons.1 h with rfl | h
      · simp
      · exact hnext h
    next hc =>
      -- the character joins the first piece of the rest
      split at h
      next hp => exact absurd hp (pieces_ne_nil sep s)
      next v vs hp =>
        rw [hp] at ih hnext
        rcases List.mem_cons.1 h with rfl | h
        · obtain ⟨hsep, hmem⟩ := ih (v := v) (by simp)
          constructor
          · simp [hsep, Ne.symm hc]
          · intro x hx
            rcases List.mem_cons.1 hx with rfl | hx
            · simp
            · exact List.mem_cons_of_mem _ (hmem x hx)
        · exact hnext (List.mem_cons_of_mem _ h)

theorem linesOfPieces_cons {w : Text} {ws : List Text} (hws : ws ≠ []) :
    linesOfPieces (w :: ws) = withoutTrailing ['\r'] w :: linesOfPieces ws := by
  cases ws with
  | nil => exact absurd rfl hws
  | cons v vs => rfl

/-- What holds no line feed gives lines without one. -/
theorem not_mem_of_mem_linesOfPieces {l : Text} :
    ∀ {ws : List Text}, (∀ w ∈ ws, '\n' ∉ w) → l ∈ linesOfPieces ws → '\n' ∉ l
  | [], _, h => by cases h
  | [w], hws, h => by
    rw [linesOfPieces] at h
    split at h
    · cases h
    · rw [List.mem_singleton.1 h]
      exact hws w (by simp)
  | w :: v :: ws, hws, h => by
    rw [linesOfPieces_cons (List.cons_ne_nil v ws)] at h
    rcases List.mem_cons.1 h with rfl | h
    · exact fun hmem => hws w (by simp) (mem_of_mem_withoutTrailing hmem)
    · exact not_mem_of_mem_linesOfPieces (fun u hu => hws u (List.mem_cons_of_mem _ hu)) h

/-- No line holds a line feed. -/
theorem not_mem_of_mem_lines {s l : Text} (h : l ∈ lines s) : '\n' ∉ l :=
  not_mem_of_mem_linesOfPieces (fun _ hw => (not_mem_of_mem_pieces hw).1) h

/-- A line that can be written: it ends neither early nor late. -/
structure IsLine (l : Text) : Prop where
  oneLine : '\n' ∉ l
  openEnd : l.getLast? ≠ some '\r'

theorem IsNeat.isLine {s : Text} (h : IsNeat s) : IsLine s where
  oneLine := h.oneLine
  openEnd hr := by
    have hblank := h.last _ hr
    revert hblank
    decide

theorem IsLine.withoutTrailing_eq {l : Text} (h : IsLine l) : withoutTrailing ['\r'] l = l := by
  unfold withoutTrailing
  cases hb : before? ['\r'] l with
  | none => rfl
  | some r =>
    refine absurd ?_ h.openEnd
    rw [before?_eq_some.1 hb, List.getLast?_concat]

/-- The lines of a text in which each line is ended. -/
theorem lines_flatMap :
    ∀ {ls : List Text}, (∀ l ∈ ls, IsLine l) → lines (ls.flatMap (· ++ ['\n'])) = ls
  | [], _ => rfl
  | l :: ls, h => by
    have hl := h l (by simp)
    have ih := lines_flatMap fun m hm => h m (List.mem_cons_of_mem _ hm)
    rw [List.flatMap_cons, List.append_assoc, List.singleton_append, lines,
      pieces_append_cons _ hl.oneLine, linesOfPieces_cons (pieces_ne_nil _ _),
      hl.withoutTrailing_eq]
    exact congrArg (l :: ·) ih

/-- The lines of a text of lines that say something. -/
theorem lines_ofLines :
    ∀ {ls : List Text}, (∀ l ∈ ls, IsLine l) → (∀ l ∈ ls, l ≠ []) → lines (ofLines ls) = ls
  | [], _, _ => rfl
  | [l], h, hne => by
    have hl : pieces '\n' l = [l] := pieces_of_not_mem (h l (by simp)).oneLine
    rw [ofLines, join, lines, hl, linesOfPieces, if_neg (by simpa using hne l (by simp))]
  | l :: m :: ls, h, hne => by
    have hl := h l (by simp)
    have ih : lines (ofLines (m :: ls)) = m :: ls :=
      lines_ofLines (fun n hn => h n (List.mem_cons_of_mem _ hn))
        fun n hn => hne n (List.mem_cons_of_mem _ hn)
    rw [ofLines, join_cons _ _ (List.cons_ne_nil m ls), List.append_assoc,
      List.singleton_append, lines, pieces_append_cons _ hl.oneLine,
      linesOfPieces_cons (pieces_ne_nil _ _), hl.withoutTrailing_eq]
    exact congrArg (l :: ·) ih

/-- A text of lines that are neat and not empty. -/
structure IsStacked (s : Text) : Prop where
  whole : ofLines (lines s) = s
  neat : ∀ l ∈ lines s, IsNeat l
  ne_nil : ∀ l ∈ lines s, l ≠ []

theorem isStacked_ofLines {ls : List Text} (hneat : ∀ l ∈ ls, IsNeat l)
    (hne : ∀ l ∈ ls, l ≠ []) : IsStacked (ofLines ls) ∧ lines (ofLines ls) = ls := by
  have hlines := lines_ofLines (fun l hl => (hneat l hl).isLine) hne
  exact ⟨⟨by rw [hlines], by rwa [hlines], by rwa [hlines]⟩, hlines⟩

end Text

end Gherkin
