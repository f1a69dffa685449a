import Gherkin.Proofs.TokenGrammar
import Gherkin.Token.Listing

/-!
# Reading a listing back

A listing shows four things about each token: line, kind, keyword and text.  Only the
text is escaped, while a keyword stands as it is written in the document and may hold
tabs and backslashes.  Still nothing of the four is lost:

> `tokenizeText_listings`: the listing of a document's tokens has a row for each token,
> and `Columns.readListing?` finds in it what it shows of them, whatever the dialects.

Three tabs of a row are known: the first two, since lines and kinds hold none, and the
last one, since the escaped text holds none (`ofRow?_row`).  So the keyword is what
stands between them.  A row ends with its line feed because a keyword is a piece of one
line of the document (`keyword_of_mem_scan`).
-/

namespace Gherkin

namespace Text

/-! ## The text column -/

/-- The text that is listed as `s`. -/
def unlisted? : Text → Option Text
  | [] => some []
  | '\\' :: '\\' :: s => (unlisted? s).map ('\\' :: ·)
  | '\\' :: 'n' :: s => (unlisted? s).map ('\n' :: ·)
  | '\\' :: 't' :: s => (unlisted? s).map ('\t' :: ·)
  | c :: s => if c = '\\' then none else (unlisted? s).map (c :: ·)

theorem unlisted?_listed (c : Char) (s : Text) :
    unlisted? (listed c ++ s) = (unlisted? s).map (c :: ·) := by
  unfold listed
  split
  next h => subst h; rfl
  next hbackslash =>
    split
    next h => subst h; rfl
    next =>
      split
      next h => subst h; rfl
      next =>
        rw [List.singleton_append, unlisted?, if_neg hbackslash]
        all_goals
          intro _ h
          exact absurd h hbackslash

/-- The text column can be read back. -/
theorem unlisted?_flatMap_listed : ∀ s : Text, unlisted? (s.flatMap listed) = some s
  | [] => rfl
  | c :: s => by
    rw [List.flatMap_cons, unlisted?_listed, unlisted?_flatMap_listed s]
    rfl

/-- What is listed stands on one line and in one column. -/
theorem not_mem_flatMap_listed (s : Text) :
    '\n' ∉ s.flatMap listed ∧ '\t' ∉ s.flatMap listed := by
  have hone (c : Char) : '\n' ∉ listed c ∧ '\t' ∉ listed c := by
    unfold listed
    split
    next => decide
    next =>
      split
      next => decide
      next hn =>
        split
        next => decide
        next ht => simp [Ne.symm hn, Ne.symm ht]
  constructor
  · intro h
    obtain ⟨c, -, hc⟩ := List.mem_flatMap.1 h
    exact (hone c).1 hc
  · intro h
    obtain ⟨c, -, hc⟩ := List.mem_flatMap.1 h
    exact (hone c).2 hc

/-- A text cut at a separator that stands in it. -/
theorem pieces_append_sep (sep : Char) (t : Text) :
    ∀ s : Text, pieces sep (s ++ sep :: t) = pieces sep s ++ pieces sep t
  | [] => by
    show (if sep = sep then [] :: pieces sep t else _) = [] :: pieces sep t
    exact if_pos rfl
  | c :: s => by
    rw [List.cons_append, pieces, pieces, pieces_append_sep sep t s]
    split
    · rfl
    · cases hp : pieces sep s with
      | nil => exact absurd hp (pieces_ne_nil sep s)
      | cons w ws => rfl

end Text

/-! ## Rows -/

/-- What a listing shows of a token. -/
structure Columns where
  line : Nat
  kind : Text
  keyword : Text
  text : Text
deriving DecidableEq, Repr

namespace Token

/-- What the listing shows of the token. -/
def columns (t : Token) : Columns := ⟨t.line, t.kind.name.toList, t.keyword, t.text⟩

/-- The line of a listing that shows the token, without its line feed. -/
def row (t : Token) : Text :=
  Nat.toDigits 10 t.line ++ '\t' :: (t.kind.name.toList ++ '\t' :: (t.keyword ++ '\t' ::
    t.text.flatMap Text.listed))

theorem listing_eq (t : Token) : t.listing = t.row ++ ['\n'] := by
  simp [listing, row]

end Token

theorem TokenKind.not_mem_name (k : TokenKind) : '\n' ∉ k.name.toList ∧ '\t' ∉ k.name.toList := by
  cases k with
  | step family => cases family <;> decide
  | _ => decide

theorem not_mem_toDigits {c : Char} (hc : c.isDigit = false) (n : Nat) :
    c ∉ Nat.toDigits 10 n := by
  intro h
  rw [Nat.isDigit_of_mem_toDigits (by decide) (by decide) h] at hc
  cases hc

namespace Columns

/-- The columns of a row.  The keyword is all that stands between the second tab and
the last one. -/
def ofRow? (row : Text) : Option Columns :=
  match Text.pieces '\t' row with
  | line :: kind :: rest =>
    (rest.getLast?.bind Text.unlisted?).map fun text =>
      ⟨Nat.ofDigitChars 10 line 0, kind, Text.join ['\t'] rest.dropLast, text⟩
  | _ => none

/-- The columns of rows, behind the last of which nothing is left. -/
def ofRows? : List Text → Option (List Columns)
  | [] => none
  | [rest] => if rest.isEmpty then some [] else none
  | row :: rows => (ofRow? row).bind fun c => (ofRows? rows).map (c :: ·)

/-- The columns of a listing. -/
def readListing? (s : Text) : Option (List Columns) := ofRows? (Text.pieces '\n' s)

theorem ofRow?_row (t : Token) : ofRow? t.row = some t.columns := by
  have htext : Text.pieces '\t' (t.text.flatMap Text.listed) = [t.text.flatMap Text.listed] :=
    Text.pieces_of_not_mem (Text.not_mem_flatMap_listed t.text).2
  have hpieces : Text.pieces '\t' t.row =
      Nat.toDigits 10 t.line :: t.kind.name.toList ::
        (Text.pieces '\t' t.keyword ++ [t.text.flatMap Text.listed]) := by
    rw [Token.row, Text.pieces_append_cons _ (not_mem_toDigits (by decide) _),
      Text.pieces_append_cons _ t.kind.not_mem_name.2, Text.pieces_append_sep, htext]
  rw [ofRow?, hpieces]
  show (Option.bind (List.getLast? _) _).map _ = _
  rw [List.getLast?_concat, List.dropLast_concat, Option.bind_some,
    Text.unlisted?_flatMap_listed, Text.join_pieces, Nat.ofDigitChars_ten_toDigits]
  rfl

theorem ofRows?_cons (row : Text) {rows : List Text} (h : rows ≠ []) :
    ofRows? (row :: rows) = (ofRow? row).bind fun c => (ofRows? rows).map (c :: ·) := by
  cases rows with
  | nil => exact absurd rfl h
  | cons r rs => rfl

theorem not_mem_row {t : Token} (h : '\n' ∉ t.keyword) : '\n' ∉ t.row := by
  simp [Token.row, h, t.kind.not_mem_name.1, (Text.not_mem_flatMap_listed t.text).1,
    not_mem_toDigits (c := '\n') (by decide) t.line]

/-- A listing is read back if its keywords stand on one line each. -/
theorem readListing?_listings :
    ∀ {ts : List Token}, (∀ t ∈ ts, '\n' ∉ t.keyword) →
      readListing? (Token.listings ts) = some (ts.map Token.columns)
  | [], _ => rfl
  | t :: ts, h => by
    have hrow : '\n' ∉ t.row := not_mem_row (h t List.mem_cons_self)
    have ih := readListing?_listings fun u hu => h u (List.mem_cons_of_mem _ hu)
    rw [readListing?] at ih
    rw [readListing?, Token.listings, List.flatMap_cons, Token.listing_eq, List.append_assoc,
      List.singleton_append, Text.pieces_append_cons _ hrow,
      ofRows?_cons _ (Text.pieces_ne_nil _ _), ofRow?_row]
    show (ofRows? (Text.pieces '\n' (Token.listings ts))).map _ = _
    rw [ih]
    rfl

end Columns

/-! ## Keywords stand on one line -/

namespace Line

variable {d : Dialect} {line : Text} {m : KeywordMatch}

theorem prefix_of_match? {roles : List Role} (h : match? d roles line = some m) :
    m.keyword <+: line := by
  obtain ⟨-, -, hp⟩ := mem_candidates.1 (mem_of_longest? h)
  exact prefix_of_payloadAfter? hp

theorem prefix_of_shape_keyworded (h : shape d line = .keyworded m) : m.keyword <+: line := by
  unfold shape at h
  split at h
  next hm =>
    cases h
    exact prefix_of_match? hm
  next =>
    split at h
    · cases h
    · split at h
      next hm =>
        cases h
        exact prefix_of_match? hm
      next => cases h

end Line

/-- Where the keyword of a token comes from: it is empty or the mark of a tag, or it
starts the line. -/
def Token.HasKeywordOf (t : Token) (l : Text) : Prop :=
  t.keyword = [] ∨ t.keyword = Token.tagMark ∨ t.keyword <+: l

theorem Token.HasKeywordOf.oneLine {t : Token} {l : Text} (h : t.HasKeywordOf l)
    (hl : '\n' ∉ l) : '\n' ∉ t.keyword := by
  rcases h with h | h | h
  · rw [h]
    exact List.not_mem_nil
  · rw [h]
    decide
  · exact fun hc => hl (h.subset hc)

namespace ScanMode

variable {d : Dialect} {l : NumberedLine} {mode : ScanMode} {t : Token}

theorem keyword_of_mem_pending (h : t ∈ foundTokens mode.pending) : t.keyword = [] := by
  unfold pending at h
  split at h
  · rw [foundTokens_token, foundTokens_nil, List.mem_singleton] at h
    rw [h]
  · cases h

theorem keyword_of_mem_addLine {b : OpenBlock} {s : Text}
    (h : t ∈ foundTokens (inBlock (b.addLine s)).2) : t.keyword = [] := by
  rcases b.addLine_cases s with ⟨-, hadd⟩ | ⟨r, -, hadd⟩
  · rw [hadd] at h
    cases h
  · rw [hadd, inBlock, foundTokens_token, foundTokens_nil, List.mem_singleton] at h
    rw [h]
    rfl

theorem keyword_of_mem_unclaimed (h : t ∈ foundTokens (unclaimed mode l).2) :
    t.keyword = [] := by
  unfold unclaimed at h
  split at h
  · rw [foundTokens_token, foundTokens_nil, List.mem_singleton] at h
    rw [h]
  · cases h

/-- A free line gives no keyword. -/
theorem keyword_of_mem_free (h : t ∈ foundTokens (free l mode).2) : t.keyword = [] := by
  cases mode with
  | plain => exact keyword_of_mem_unclaimed h
  | feature description => cases h
  | step =>
    rw [free] at h
    split at h
    next state hstate =>
      obtain ⟨q, -, rest, -, rfl⟩ := OpenBlock.start?_cases hstate
      rcases OpenBlock.begin_cases ⟨q, l.number, []⟩ rest with ⟨body, hb⟩ | ⟨-, body, hb⟩
      · rw [hb] at h
        cases h
      · rw [hb, inBlock, foundTokens_token, foundTokens_nil, List.mem_singleton] at h
        rw [h]
        rfl
    next => exact keyword_of_mem_unclaimed h
  | block b => exact keyword_of_mem_unclaimed h

theorem hasKeywordOf_of_mem_advance (h : t ∈ foundTokens (advance d l mode).2) :
    t.HasKeywordOf l.text := by
  cases hb : mode.isBlock with
  | true =>
    cases mode with
    | block b => exact Or.inl (keyword_of_mem_addLine h)
    | _ => cases hb
  | false =>
    cases hs : Line.shape d l.text with
    | keyworded m =>
      rw [advance_of_keyworded hs hb, foundTokens_append] at h
      rcases List.mem_append.1 h with h | h
      · exact Or.inl (keyword_of_mem_pending h)
      · rw [foundTokens_token, foundTokens_nil, List.mem_singleton] at h
        subst h
        exact Or.inr (Or.inr (Line.prefix_of_shape_keyworded hs))
    | tags names =>
      rw [advance_of_tags hs hb, foundTokens_append, foundTokens_tags] at h
      rcases List.mem_append.1 h with h | h
      · exact Or.inl (keyword_of_mem_pending h)
      · obtain ⟨name, -, rfl⟩ := List.mem_map.1 h
        exact Or.inr (Or.inl rfl)
    | free =>
      rw [advance_of_free hs hb] at h
      exact Or.inl (keyword_of_mem_free h)

/-- Keywords of a run stand on one line if all lines do. -/
theorem keyword_of_mem_run :
    ∀ {ls : List NumberedLine} {mode : ScanMode}, (∀ l ∈ ls, '\n' ∉ l.text) →
      t ∈ foundTokens (run d mode ls).2 → '\n' ∉ t.keyword
  | [], mode, _, h => by cases h
  | l :: ls, mode, hls, h => by
    rw [run, foundTokens_append] at h
    rcases List.mem_append.1 h with h | h
    · exact (hasKeywordOf_of_mem_advance h).oneLine (hls l List.mem_cons_self)
    · exact keyword_of_mem_run (fun m hm => hls m (List.mem_cons_of_mem _ hm)) h

theorem keyword_of_mem_atEnd (h : t ∈ foundTokens mode.atEnd) : t.keyword = [] := by
  cases hb : mode.isBlock with
  | true =>
    cases mode with
    | block b => cases h
    | _ => cases hb
  | false =>
    rw [atEnd_of_not_isBlock hb] at h
    exact keyword_of_mem_pending h

end ScanMode

/-- The keywords of lines that were cut at the line feeds. -/
theorem Line.keyword_of_mem_scan {d : Dialect} {lines : List Text} {t : Token}
    (hlines : ∀ l ∈ lines, '\n' ∉ l) (h : t ∈ foundTokens (scan d lines)) :
    '\n' ∉ t.keyword := by
  rw [foundTokens_scan, ScanMode.tokensFrom, foundTokens_append] at h
  rcases List.mem_append.1 h with h | h
  · exact ScanMode.keyword_of_mem_run
      (fun l hl => (isNeat_of_mem_effective hlines hl).1.oneLine) h
  · rw [ScanMode.keyword_of_mem_atEnd h]
    exact List.not_mem_nil

namespace DialectTable

theorem keyword_of_mem_tokenizeText {t : DialectTable} {source : Text} {ts : List Token}
    (h : t.tokenizeText source = .ok ts) : ∀ u ∈ ts, '\n' ∉ u.keyword := by
  obtain ⟨d, -, rfl⟩ := dialectOf_of_tokenize h
  exact fun u hu => Line.keyword_of_mem_scan (fun _ => Text.not_mem_of_mem_lines) hu

/-- **A listing can be read back.**  It has a row for each token, which ends with the
only line feed in it, and what it shows of the tokens is read off it, whatever table
the document was read with.  So documents with equal listings have tokens that differ
in the families of their steps at most. -/
theorem tokenizeText_listings {t : DialectTable} {source : Text} {ts : List Token}
    (h : t.tokenizeText source = .ok ts) :
    (∃ rows : List Text, Token.listings ts = rows.flatMap (· ++ ['\n']) ∧
      List.Forall₂ (fun row (u : Token) => '\n' ∉ row ∧ Columns.ofRow? row = some u.columns)
        rows ts) ∧
    Columns.readListing? (Token.listings ts) = some (ts.map Token.columns) ∧
    ∀ (t' : DialectTable) (source' : Text) (ts' : List Token),
      t'.tokenizeText source' = .ok ts' → Token.listings ts' = Token.listings ts →
        ts'.map Token.columns = ts.map Token.columns := by
  have hkeywords := keyword_of_mem_tokenizeText h
  have hread := Columns.readListing?_listings hkeywords
  refine ⟨⟨ts.map Token.row, ?_, ?_⟩, hread, ?_⟩
  · rw [List.flatMap_map]
    exact List.flatMap_congr fun u _ => u.listing_eq
  · rw [List.forall₂_map_left_iff, List.forall₂_same]
    exact fun u hu => ⟨Columns.not_mem_row (hkeywords u hu), Columns.ofRow?_row u⟩
  · intro t' source' ts' h' hlistings
    have hread' := Columns.readListing?_listings (keyword_of_mem_tokenizeText h')
    rw [hlistings, hread] at hread'
    exact (Option.some.inj hread').symm

/-- A keyword with a tab and a backslash in it, which means one family in one table and
another in the other. -/
theorem tokenizeText_listings_of_tabs :
    let word : Text := "a\t\\"
    let given := single "x" { feature := ["F"], givenSteps := [word] }
    let whenever := single "y" { feature := ["F"], whenSteps := [word] }
    let source : Text := "F\n| b\tc\n\n\\d\na\t\\\te"
    given.tokenizeText source ≠ whenever.tokenizeText source ∧
      ∃ ts ts', given.tokenizeText source = .ok ts ∧ whenever.tokenizeText source = .ok ts' ∧
        Token.listings ts =
          "0\tfeature\tF\t\n1\tfeature_description\t\t| b\\tc\\n\\\\d\n4\tstep\ta\t\\\te\n".toList ∧
        Token.listings ts' = Token.listings ts ∧
        Columns.readListing? (Token.listings ts) = some
          [⟨0, "feature", "F", []⟩, ⟨1, "feature_description", [], "| b\tc\n\\d"⟩,
            ⟨4, "step", word, "e"⟩] ∧
        ts'.map Token.columns = ts.map Token.columns := by
  intro word given whenever source
  let tokens (family : StepFamily) : List Token :=
    [⟨.feature, "F", [], 0⟩, ⟨.description, [], "| b\tc\n\\d", 1⟩, ⟨.step family, word, "e", 4⟩]
  have hgiven : given.tokenizeText source = .ok (tokens .givenStep) := by decide
  have hwhenever : whenever.tokenizeText source = .ok (tokens .whenStep) := by decide
  have hsame : Token.listings (tokens .whenStep) = Token.listings (tokens .givenStep) := by decide
  obtain ⟨-, hread, hcolumns⟩ := tokenizeText_listings hgiven
  refine ⟨by decide, _, _, hgiven, hwhenever, by decide, hsame, ?_, ?_⟩
  · rw [hread]
    decide
  · exact hcolumns whenever source _ hwhenever hsame

end DialectTable

end Gherkin
