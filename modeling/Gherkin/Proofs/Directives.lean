import Gherkin.Proofs.Bytes
import Gherkin.Proofs.Layout

/-!
# What counts as a language directive

A directive is a comment of one form: the word `language`, a colon and a code that is
one piece, with white space or nothing between these, before them and behind them.
There is no other way to write one, and a line can be read in this form in one way.

> `directive?_grammar`: exactly the lines of this form name a code, and it is the one
> that they are written with.

That the word ends at a byte position makes no difference, since its letters are all
of one byte: where a character stands across that position, the word is not there
(`directiveByBytes?_eq`).
-/

namespace Gherkin

namespace Text

/-! ## White space around a text -/

/-- Nothing but white space, or nothing at all. -/
def IsBlankRun (s : Text) : Prop := ∀ c ∈ s, isBlank c = true

theorem isBlankRun_append {s t : Text} (hs : IsBlankRun s) (ht : IsBlankRun t) :
    IsBlankRun (s ++ t) := fun c hc => (List.mem_append.1 hc).elim (hs c) (ht c)

/-- A line is what trimming leaves of it between two runs of white space. -/
theorem padded_trim (s : Text) : Padded (trim s) s := by
  refine ⟨s.takeWhile isBlank, takeTrailing isBlank (trimStart s), ?_, ?_, ?_⟩
  · exact fun c hc => List.mem_takeWhile_imp hc
  · exact fun c hc => of_mem_takeTrailing hc
  · rw [List.append_assoc, trim, trimEnd, dropTrailing_append_takeTrailing, trimStart,
      List.takeWhile_append_dropWhile]

theorem exists_isBlankRun_trimStart (s : Text) : ∃ v, IsBlankRun v ∧ s = v ++ trimStart s :=
  ⟨s.takeWhile isBlank, fun _ hc => List.mem_takeWhile_imp hc,
    List.takeWhile_append_dropWhile.symm⟩

/-- White space in front is cut off up to a character that is none. -/
theorem trimStart_append_cons {v : Text} {c : Char} (hv : IsBlankRun v)
    (hc : isBlank c = false) (s : Text) : trimStart (v ++ c :: s) = c :: s := by
  rw [trimStart_append_of_blank hv, trimStart, List.dropWhile_cons_of_neg (by simp [hc])]

/-! ## Letters in either case -/

/-- `s` is `word`, with each letter small or capital. -/
def IsInAnyCase (word s : Text) : Prop := List.Forall₂ (fun k c => c = k ∨ c = k.toUpper) word s

theorem toNat_toLower (c : Char) :
    c.toLower.toNat = if 65 ≤ c.toNat ∧ c.toNat ≤ 90 then c.toNat + 32 else c.toNat := by
  unfold Char.toLower
  by_cases h : c.val ≥ 'A'.val ∧ c.val ≤ 'Z'.val
  · have hn : 65 ≤ c.toNat ∧ c.toNat ≤ 90 :=
      ⟨UInt32.le_iff_toNat_le.1 h.1, UInt32.le_iff_toNat_le.1 h.2⟩
    rw [dif_pos h, if_pos hn]
    show (c.toNat + 32) % 2 ^ 32 = c.toNat + 32
    omega
  · rw [dif_neg h, if_neg]
    exact fun hn => h ⟨UInt32.le_iff_toNat_le.2 hn.1, UInt32.le_iff_toNat_le.2 hn.2⟩

theorem toNat_toUpper (c : Char) :
    c.toUpper.toNat = if 97 ≤ c.toNat ∧ c.toNat ≤ 122 then c.toNat - 32 else c.toNat := by
  unfold Char.toUpper
  by_cases h : 'a'.val ≤ c.val ∧ c.val ≤ 'z'.val
  · have hn : 97 ≤ c.toNat ∧ c.toNat ≤ 122 :=
      ⟨UInt32.le_iff_toNat_le.1 h.1, UInt32.le_iff_toNat_le.1 h.2⟩
    -- a capital is 32 below its small letter, which is a sum modulo `2 ^ 32`
    have hsum : (c.val + ('A'.val - 'a'.val)).toNat = (c.toNat + 4294967264) % 2 ^ 32 :=
      UInt32.toNat_add _ _
    rw [dif_pos h, if_pos hn]
    exact hsum.trans (by omega)
  · rw [dif_neg h, if_neg]
    exact fun hn => h ⟨UInt32.le_iff_toNat_le.2 hn.1, UInt32.le_iff_toNat_le.2 hn.2⟩

/-- A small ASCII letter. -/
def IsSmallLetter (k : Char) : Prop := 97 ≤ k.toNat ∧ k.toNat ≤ 122

instance (k : Char) : Decidable (IsSmallLetter k) :=
  inferInstanceAs (Decidable (97 ≤ k.toNat ∧ k.toNat ≤ 122))

variable {k c : Char} {word s : Text}

theorem IsSmallLetter.toLower_eq_iff (hk : IsSmallLetter k) :
    c.toLower = k ↔ c = k ∨ c = k.toUpper := by
  have hk' := hk
  unfold IsSmallLetter at hk'
  rw [← Char.toNat_inj, ← Char.toNat_inj, ← Char.toNat_inj, toNat_toLower, toNat_toUpper,
    if_pos hk']
  split <;> omega

theorem IsSmallLetter.utf8Size_eq (hk : IsSmallLetter k) (hc : c.toLower = k) :
    c.utf8Size = 1 := by
  have hk' := hk
  unfold IsSmallLetter at hk'
  rw [← hc, toNat_toLower] at hk'
  rw [Char.utf8Size_eq_one_iff, UInt32.le_iff_toNat_le]
  show c.toNat ≤ 127
  split at hk' <;> omega

theorem sameIgnoringCase_iff (hword : ∀ k ∈ word, IsSmallLetter k) :
    sameIgnoringCase s word = true ↔ IsInAnyCase word s := by
  have hself : word.map Char.toLower = word := by
    conv_rhs => rw [← List.map_id word]
    exact List.map_congr_left fun k hk => (hword k hk).toLower_eq_iff.2 (Or.inl rfl)
  rw [sameIgnoringCase, beq_iff_eq, hself]
  clear hself
  induction word generalizing s with
  | nil => cases s <;> simp [IsInAnyCase]
  | cons k word ih =>
    have hk := hword k List.mem_cons_self
    have ih := ih (s := s.tail) fun x hx => hword x (List.mem_cons_of_mem _ hx)
    cases s with
    | nil => simp [IsInAnyCase]
    | cons c s =>
      rw [IsInAnyCase, List.forall₂_cons, List.map_cons, List.cons.injEq, hk.toLower_eq_iff]
      exact and_congr_right' ih

theorem IsInAnyCase.length_eq (h : IsInAnyCase word s) : s.length = word.length :=
  (List.Forall₂.length_eq h).symm

/-- A word of small letters takes one byte for each letter, in whatever case. -/
theorem length_utf8_of_isInAnyCase (hword : ∀ k ∈ word, IsSmallLetter k)
    (h : IsInAnyCase word s) : (utf8 s).length = word.length := by
  induction h with
  | nil => rfl
  | @cons k c word s hkc _ ih =>
    have hk := hword k List.mem_cons_self
    have ih := ih fun x hx => hword x (List.mem_cons_of_mem _ hx)
    rw [length_utf8_cons, ih, hk.utf8Size_eq (hk.toLower_eq_iff.2 hkc), List.length_cons,
      Nat.add_comm]

end Text

namespace Line

open Text (IsBlankRun IsInAnyCase)

/-! ## The form of a directive -/

/-- That a line is a language directive with the given code. -/
inductive NamesLanguage : Text → Text → Prop
  | written {indent before word behind gap code rest : Text} (indent_blank : IsBlankRun indent)
      (before_blank : IsBlankRun before) (word_eq : IsInAnyCase directiveWord word)
      (behind_blank : IsBlankRun behind) (gap_blank : IsBlankRun gap) (code_ne_nil : code ≠ [])
      (code_noBlank : ∀ c ∈ code, Text.isBlank c = false) (rest_blank : IsBlankRun rest) :
      NamesLanguage
        (indent ++ '#' :: (before ++ word ++ behind) ++ ':' :: (gap ++ code ++ rest)) code

theorem isSmallLetter_of_mem_directiveWord : ∀ k ∈ directiveWord, Text.IsSmallLetter k := by
  have hall : directiveWord.all (fun k => decide (Text.IsSmallLetter k)) = true := by decide
  exact fun k hk => of_decide_eq_true (List.all_eq_true.1 hall k hk)

variable {line code word : Text}

theorem trim_eq_of_no_blank (h : ∀ c ∈ code, Text.isBlank c = false) : Text.trim code = code :=
  Text.trim_eq_self (fun c hc => h c (List.mem_of_mem_head? hc))
    fun c hc => h c (List.mem_of_mem_getLast? hc)

theorem directiveCode?_eq_some {s : Text} :
    directiveCode? s = some code ↔
      Text.trim s = code ∧ code ≠ [] ∧ ∀ c ∈ code, Text.isBlank c = false := by
  unfold directiveCode?
  by_cases h : ((Text.trim s).isEmpty || (Text.trim s).any Text.isBlank) = true
  · rw [if_pos h]
    constructor
    · intro hnone
      cases hnone
    · rintro ⟨rfl, hne, hblank⟩
      rw [Bool.or_eq_true, List.isEmpty_iff, List.any_eq_true] at h
      rcases h with hnil | ⟨c, hc, hcb⟩
      · exact absurd hnil hne
      · rw [hblank c hc] at hcb
        cases hcb
  · rw [if_neg h, Option.some.injEq]
    rw [Bool.or_eq_true, List.isEmpty_iff, List.any_eq_true, not_or] at h
    constructor
    · rintro rfl
      exact ⟨rfl, h.1, fun c hc => by simpa using fun hcb => h.2 ⟨c, hc, hcb⟩⟩
    · exact fun h => h.1

/-- The code in what follows the word of a directive. -/
def codeAfterWord? (s : Text) : Option Text :=
  match Text.trimStart s with
  | ':' :: s => directiveCode? s
  | _ => none

/-- How a comment is read. -/
theorem directive?_of_mark {s : Text} (hline : Text.trim line = '#' :: s) :
    directive? line =
      if Text.sameIgnoringCase ((Text.trimStart s).take directiveWord.length) directiveWord then
        codeAfterWord? ((Text.trimStart s).drop directiveWord.length)
      else none := by
  rw [directive?, hline]
  rfl

/-- The word of a directive stands behind the white space before it. -/
theorem trimStart_append_word {before : Text} (hbefore : IsBlankRun before)
    (hword : IsInAnyCase directiveWord word) (s : Text) :
    Text.trimStart (before ++ (word ++ s)) = word ++ s := by
  cases hword with
  | @cons _ c _ word hc _ =>
    have hblank : Text.isBlank c = false := by
      rcases hc with rfl | rfl <;> decide
    exact Text.trimStart_append_cons hbefore hblank (word ++ s)

/-- A directive is read as the code that it is written with. -/
theorem directive?_of_namesLanguage (h : NamesLanguage line code) :
    directive? line = some code := by
  cases h with
  | @written indent before word behind gap _ rest hindent hbefore hword hbehind hgap hne hcode
      hrest =>
    -- between its ends the line starts with the mark and ends with the code
    have hline : Text.trim
        (indent ++ '#' :: (before ++ word ++ behind) ++ ':' :: (gap ++ code ++ rest)) =
          '#' :: (before ++ (word ++ (behind ++ ':' :: (gap ++ code)))) := by
      have hsplit : indent ++ '#' :: (before ++ word ++ behind) ++ ':' :: (gap ++ code ++ rest) =
          indent ++ ('#' :: (before ++ word ++ behind ++ ':' :: gap) ++ code ++ rest) := by simp
      rw [hsplit, Text.trim_append_of_blank hindent, Text.trim_append_blank hrest,
        Text.trim_eq_self]
      · simp
      · intro c hc
        obtain rfl : '#' = c := by simpa using hc
        decide
      · intro c hc
        rw [List.getLast?_append_of_ne_nil _ hne] at hc
        exact hcode c (List.mem_of_mem_getLast? hc)
    have hlen : word.length = directiveWord.length := hword.length_eq
    have hsame : Text.sameIgnoringCase word directiveWord = true :=
      (Text.sameIgnoringCase_iff isSmallLetter_of_mem_directiveWord).2 hword
    have hcolon : Text.isBlank ':' = false := by decide
    rw [directive?_of_mark hline, trimStart_append_word hbefore hword, ← hlen, List.take_left,
      List.drop_left, if_pos hsame, codeAfterWord?, Text.trimStart_append_cons hbehind hcolon]
    exact directiveCode?_eq_some.2
      ⟨by rw [Text.trim_append_of_blank hgap, trim_eq_of_no_blank hcode], hne, hcode⟩

/-- Only a comment is read as a directive. -/
theorem exists_mark_of_directive? (h : directive? line = some code) :
    ∃ s, Text.trim line = '#' :: s := by
  unfold directive? at h
  split at h
  next s hline => exact ⟨s, hline⟩
  next => cases h

theorem codeAfterWord?_eq_some {s : Text} :
    codeAfterWord? s = some code ↔
      ∃ value, Text.trimStart s = ':' :: value ∧ directiveCode? value = some code := by
  unfold codeAfterWord?
  constructor
  · intro h
    split at h
    next value hvalue => exact ⟨value, hvalue, h⟩
    next => cases h
  · rintro ⟨value, hvalue, h⟩
    rw [hvalue]
    exact h

/-- A line that is read as a code is written as a directive with it. -/
theorem namesLanguage_of_directive? (h : directive? line = some code) :
    NamesLanguage line code := by
  obtain ⟨s, hline⟩ := exists_mark_of_directive? h
  rw [directive?_of_mark hline, Option.ite_none_right_eq_some, codeAfterWord?_eq_some] at h
  obtain ⟨hsame, value, hcolon, hread⟩ := h
  obtain ⟨hvalue, hne, hcode⟩ := directiveCode?_eq_some.1 hread
  -- the pieces that were cut off and what was left each time
  obtain ⟨indent, rest, hindent, hrest, htrim⟩ := Text.padded_trim line
  obtain ⟨before, hbefore, hs⟩ := Text.exists_isBlankRun_trimStart s
  obtain ⟨behind, hbehind, hafter⟩ :=
    Text.exists_isBlankRun_trimStart ((Text.trimStart s).drop directiveWord.length)
  obtain ⟨gap, tail, hgap, htail, hpadded⟩ := Text.padded_trim value
  rw [hline] at htrim
  rw [hcolon] at hafter
  rw [hvalue] at hpadded
  have hword := (Text.sameIgnoringCase_iff isSmallLetter_of_mem_directiveWord).1 hsame
  have hwritten : line = indent ++ '#' ::
      (before ++ (Text.trimStart s).take directiveWord.length ++ behind) ++
        ':' :: (gap ++ code ++ (tail ++ rest)) := by
    calc line = indent ++ '#' :: (before ++ Text.trimStart s) ++ rest := by rw [← hs, ← htrim]
      _ = indent ++ '#' :: (before ++ ((Text.trimStart s).take directiveWord.length ++
            (behind ++ ':' :: (gap ++ code ++ tail)))) ++ rest := by
        rw [← hpadded, ← hafter, List.take_append_drop]
      _ = _ := by simp
  rw [hwritten]
  exact .written hindent hbefore hword hbehind hgap hne hcode (Text.isBlankRun_append htail hrest)

theorem directive?_eq_some : directive? line = some code ↔ NamesLanguage line code :=
  ⟨namesLanguage_of_directive?, directive?_of_namesLanguage⟩

/-! ## The word as bytes -/

/-- The code of a directive whose word is looked for in as many bytes as it has. -/
def directiveByBytes? (line : Text) : Option Text :=
  match Text.trim line with
  | '#' :: s =>
    match Text.cutAtByte? (Text.utf8 directiveWord).length (Text.trimStart s) with
    | some (word, s) =>
      if Text.sameIgnoringCase word directiveWord then codeAfterWord? s else none
    | none => none
  | _ => none

theorem length_utf8_directiveWord : (Text.utf8 directiveWord).length = directiveWord.length := by
  decide

/-- The bytes in front hold the word exactly if the characters in front do. -/
theorem cutAtByte?_word {s : Text} (h : IsInAnyCase directiveWord (s.take directiveWord.length)) :
    Text.cutAtByte? (Text.utf8 directiveWord).length s =
      some (s.take directiveWord.length, s.drop directiveWord.length) := by
  rw [Text.cutAtByte?_eq_some, List.take_append_drop, length_utf8_directiveWord]
  exact ⟨rfl, Text.length_utf8_of_isInAnyCase isSmallLetter_of_mem_directiveWord h⟩

theorem directiveByBytes?_eq (line : Text) : directiveByBytes? line = directive? line := by
  unfold directiveByBytes?
  split
  next s hline =>
    have hiff {w : Text} := Text.sameIgnoringCase_iff (s := w) isSmallLetter_of_mem_directiveWord
    rw [directive?_of_mark hline]
    by_cases hword : IsInAnyCase directiveWord ((Text.trimStart s).take directiveWord.length)
    · rw [cutAtByte?_word hword]
    · rw [if_neg (mt hiff.1 hword)]
      -- whatever stands in so many bytes, it is not the word
      split
      next word rest hcut =>
        obtain ⟨hs, -⟩ := Text.cutAtByte?_eq_some.1 hcut
        rw [if_neg]
        intro hsame
        rw [hs, ← (hiff.1 hsame).length_eq, List.take_left] at hword
        exact hword (hiff.1 hsame)
      next => rfl
  next hnone =>
    cases h : directive? line with
    | none => rfl
    | some code =>
      obtain ⟨s, hline⟩ := exists_mark_of_directive? h
      exact absurd hline (hnone s)

/-- **The grammar of language directives.**  A line names a code exactly if it is white
space, `#`, white space, the word in any case, white space, a colon, white space, the
code and white space again, where the code is not empty and has no white space in it
and any of the white space may be missing.  No line names two codes, every other line
names none, and to look for the word in so many bytes comes to the same, so that no
line in which a character stands across the end of the word names any. -/
theorem directive?_grammar (line : Text) :
    (∀ code, directive? line = some code ↔ NamesLanguage line code) ∧
      (∀ code other, NamesLanguage line code → NamesLanguage line other → code = other) ∧
      (directive? line = none ↔ ∀ code, ¬ NamesLanguage line code) ∧
      directiveByBytes? line = directive? line ∧
      ∀ s, Text.trim line = '#' :: s →
        Text.cutAtByte? (Text.utf8 directiveWord).length (Text.trimStart s) = none →
          directive? line = none := by
  refine ⟨fun _ => directive?_eq_some, fun code other hcode hother => ?_, ?_,
    directiveByBytes?_eq line, fun s hline hcut => ?_⟩
  · rw [← directive?_eq_some] at hcode hother
    exact Option.some.inj (hcode.symm.trans hother)
  · rw [Option.eq_none_iff_forall_ne_some]
    exact forall_congr' fun code => not_congr directive?_eq_some
  · rw [← directiveByBytes?_eq, directiveByBytes?, hline]
    simp only [hcut]

/-- A code of which a part is a colon, behind white space of several kinds, and a line
whose eighth byte behind the mark is the first half of a character. -/
theorem directive?_grammar_of_colons :
    let line : Text := "\u00a0#\u3000LanguAGE :\t:pt:BR "
    let code : Text := ":pt:BR"
    let torn : Text := "# languagé: fr"
    NamesLanguage line code ∧ directive? line = some code ∧
      (∀ other, NamesLanguage line other → code = other) ∧
      Text.cutAtByte? (Text.utf8 directiveWord).length "languagé: fr" = none ∧
      directive? torn = none ∧ ∀ other, ¬ NamesLanguage torn other := by
  intro line code torn
  obtain ⟨hread, hunique, -⟩ := directive?_grammar line
  obtain ⟨-, -, hnone, -, htorn⟩ := directive?_grammar torn
  have hline : NamesLanguage line code := (hread code).1 (by decide)
  have hcut : Text.cutAtByte? (Text.utf8 directiveWord).length "languagé: fr" = none := by decide
  have hempty : directive? torn = none := htorn " languagé: fr".toList (by decide) hcut
  exact ⟨hline, (hread code).2 hline, fun other => hunique code other hline, hcut, hempty,
    hnone.1 hempty⟩

end Line

end Gherkin
