import Gherkin.Proofs.Part
import Gherkin.Proofs.Trailing
import Mathlib.Data.List.Forall2

/-!
# Segments are the parts of the features

`segments` cuts a sequence of tokens from the front and hands tags on from run
to run.  Read as a whole, a segment is much simpler:

> `segments_eq`: the segment of a feature token is the run of tags directly
> before it, the token, and what follows up to the next feature token, without
> the tags at the end.
>
> `segments_partition`: the segments stand one behind the other, from the tags of
> the first feature to the tags at the very end.

So two sequences of tokens can be cut separately where one ends and the next
begins with a feature and its tags (`segments_append`), and `build` does not
look across such a boundary (`build_append`).
-/

namespace Gherkin

namespace Token

theorem kind_of_isTag {t : Token} (h : t.isTag = true) : t.kind = .tag := by
  simpa [isTag] using h

theorem kind_of_isFeature {t : Token} (h : t.isFeature = true) : t.kind = .feature := by
  simpa [isFeature] using h

theorem isFeature_of_isTag {t : Token} (h : t.isTag = true) : t.isFeature = false := by
  have hk := kind_of_isTag h
  simp [isFeature, hk]

theorem isTag_of_isFeature {t : Token} (h : t.isFeature = true) : t.isTag = false := by
  have hk := kind_of_isFeature h
  simp [isTag, hk]

end Token

/-- The tokens in front of the first feature. -/
theorem cutAtFeatures_fst :
    ∀ ts : List Token, (cutAtFeatures ts).1 = ts.takeWhile (fun t => !t.isFeature)
  | [] => rfl
  | t :: ts => by
    rw [cutAtFeatures]
    by_cases ht : t.isFeature
    · simp [ht]
    · simp [ht, cutAtFeatures_fst ts]

/-- The segment of a feature token: the tags directly before it, the token, and
its slice without the tags at the end. -/
def segmentOf (q : Part Token) : List Token :=
  takeTrailing Token.isTag q.before ++ q.head :: dropTrailing Token.isTag q.slice

/-- Handing tags on along the runs gives every feature the tags directly before
it, wherever in the document the runs start. -/
theorem handOnTags_cutAtFeatures :
    ∀ before ts : List Token,
      (handOnTags (takeTrailing Token.isTag (before ++ (cutAtFeatures ts).1))
          (cutAtFeatures ts).2).1
        = (partsAfter Token.isFeature before ts).map segmentOf
  | before, [] => rfl
  | before, t :: ts => by
    have ih := handOnTags_cutAtFeatures (before ++ [t]) ts
    rw [List.append_assoc, List.singleton_append] at ih
    rw [cutAtFeatures, partsAfter]
    by_cases ht : t.isFeature
    · have hn : t.isTag = false := Token.isTag_of_isFeature ht
      rw [takeTrailing_append_cons hn] at ih
      have htake := takeTrailing_append_cons hn [] (cutAtFeatures ts).1
      have hdrop := dropTrailing_append_cons hn [] (cutAtFeatures ts).1
      rw [List.nil_append] at htake
      rw [List.nil_append, List.nil_append] at hdrop
      simp only [ht, if_true, List.append_nil, handOnTags, List.map_cons]
      rw [htake, ih, hdrop, segmentOf, cutAtFeatures_fst]
    · simp only [ht, Bool.false_eq_true, if_false]
      exact ih

/-- One segment for each feature token, in order. -/
theorem segments_eq (ts : List Token) :
    segments ts = (parts Token.isFeature ts).map segmentOf :=
  handOnTags_cutAtFeatures [] ts

theorem cutAtFeatures_flatten (ts : List Token) :
    (cutAtFeatures ts).1 ++ (cutAtFeatures ts).2.flatten = ts := by
  induction ts with
  | nil => rfl
  | cons t ts ih =>
    rw [cutAtFeatures]
    dsimp only
    split
    · rw [List.nil_append, List.flatten_cons, List.cons_append, ih]
    · rw [List.cons_append, ih]

theorem handOnTags_flatten (carried : List Token) (runs : List (List Token)) :
    (handOnTags carried runs).1.flatten ++ (handOnTags carried runs).2 =
      carried ++ runs.flatten := by
  induction runs generalizing carried with
  | nil => simp [handOnTags]
  | cons run runs ih =>
    simp only [handOnTags, List.flatten_cons, List.append_assoc]
    rw [ih, ← List.append_assoc (dropTrailing _ _), dropTrailing_append_takeTrailing]

/-- Every token is in front of the segments, in one of them, or remains behind. -/
theorem segments_flatten (ts : List Token) :
    unsegmented ts ++ (segments ts).flatten ++ (segmentation ts).2 = ts := by
  rw [unsegmented, segments, segmentation, List.append_assoc]
  dsimp only
  rw [handOnTags_flatten, ← List.append_assoc, dropTrailing_append_takeTrailing,
    cutAtFeatures_flatten]

/-! ## A partition of the tokens -/

/-- The run at the end of a segment belongs to the next one; behind the last segment
that is the run of tags at the end of all tokens. -/
theorem handOnTags_remaining :
    ∀ before ts : List Token,
      (handOnTags (takeTrailing Token.isTag (before ++ (cutAtFeatures ts).1))
          (cutAtFeatures ts).2).2
        = takeTrailing Token.isTag (before ++ ts)
  | before, [] => rfl
  | before, t :: ts => by
    have ih := handOnTags_remaining (before ++ [t]) ts
    rw [List.append_assoc, List.append_assoc, List.singleton_append, List.singleton_append] at ih
    rw [cutAtFeatures]
    by_cases ht : t.isFeature
    · have hn : t.isTag = false := Token.isTag_of_isFeature ht
      have htake := takeTrailing_append_cons hn [] (cutAtFeatures ts).1
      rw [List.nil_append] at htake
      rw [takeTrailing_append_cons hn] at ih
      simp only [ht, if_true, List.append_nil, handOnTags]
      rw [htake, ih]
    · simp only [ht, Bool.false_eq_true, if_false]
      exact ih

theorem segmentation_remaining (ts : List Token) :
    (segmentation ts).2 = takeTrailing Token.isTag ts := handOnTags_remaining [] ts

/-- Features stand where parts open. -/
theorem map_position_partsAfter (p : α → Bool) :
    ∀ before l : List α, ((l.zipIdx before.length).filter fun m => p m.1).map (·.2) =
      (partsAfter p before l).map Part.position
  | before, [] => rfl
  | before, a :: l => by
    have ih := map_position_partsAfter p (before ++ [a]) l
    rw [List.length_append, List.length_singleton] at ih
    rw [List.zipIdx_cons, partsAfter]
    by_cases ha : p a
    · rw [List.filter_cons_of_pos (by exact ha), if_pos ha, List.map_cons, List.map_cons, ih]
      rfl
    · rw [List.filter_cons_of_neg (by exact ha), if_neg ha, ih]

theorem featurePositions_eq (ts : List Token) :
    featurePositions ts = (parts Token.isFeature ts).map Part.position :=
  map_position_partsAfter Token.isFeature [] ts

/-- `segment` stands in `ts` around the given position: tags, the feature token at the
position, and tokens that are no features.  It does not end in a tag. -/
def IsSegmentAt (ts : List Token) (position : Nat) (segment : List Token) : Prop :=
  ∃ before tags head body after,
    ts = before ++ segment ++ after ∧ segment = tags ++ head :: body ∧
      position = before.length + tags.length ∧ head.isFeature = true ∧
      (∀ t ∈ tags, t.isTag = true) ∧ (∀ t ∈ body, t.isFeature = false) ∧
      ∀ t, segment.getLast? = some t → t.isTag = false

/-- What follows a feature token in its segment opens no other feature. -/
theorem isFeature_of_mem_body {ts : List Token} {q : Part Token}
    (hq : q ∈ parts Token.isFeature ts) :
    ∀ t ∈ dropTrailing Token.isTag q.slice, t.isFeature = false := fun t ht =>
  of_mem_slice hq t ((dropTrailing_isPrefix _ _).subset ht)

theorem isSegmentAt_segmentOf {ts : List Token} {q : Part Token}
    (hq : q ∈ parts Token.isFeature ts) : IsSegmentAt ts q.position (segmentOf q) := by
  obtain ⟨rest, hts⟩ := exists_append_of_mem_parts hq
  have hhead := head_of_mem_parts hq
  have hfront := dropTrailing_append_takeTrailing Token.isTag q.before
  have hback := dropTrailing_append_takeTrailing Token.isTag q.slice
  refine ⟨dropTrailing Token.isTag q.before, takeTrailing Token.isTag q.before, q.head,
    dropTrailing Token.isTag q.slice, takeTrailing Token.isTag q.slice ++ rest,
    ?_, rfl, ?_, hhead, fun t ht => of_mem_takeTrailing ht, isFeature_of_mem_body hq, ?_⟩
  · -- the tags that are cut off on both sides belong to the neighbours
    calc ts = q.before ++ q.head :: (q.slice ++ rest) := hts
      _ = (dropTrailing Token.isTag q.before ++ takeTrailing Token.isTag q.before) ++
          q.head :: ((dropTrailing Token.isTag q.slice ++ takeTrailing Token.isTag q.slice)
            ++ rest) := by rw [hfront, hback]
      _ = _ := by simp [segmentOf]
  · rw [Part.position, ← List.length_append, hfront]
  · intro t ht
    rw [segmentOf, List.getLast?_append] at ht
    rcases List.eq_nil_or_concat' (dropTrailing Token.isTag q.slice) with hnil | ⟨l, a, hl⟩
    · rw [hnil] at ht
      obtain rfl : q.head = t := by simpa using ht
      exact Token.isTag_of_isFeature hhead
    · apply of_getLast?_dropTrailing (p := Token.isTag) (l := q.slice)
      rw [hl] at ht ⊢
      rw [← List.cons_append, List.getLast?_concat, Option.some_or] at ht
      rw [List.getLast?_concat, ht]

/-- **Cutting into segments loses nothing behind its start.**  There is one segment for
each feature, in order, and it stands around its feature token.  One behind the other,
and with the tags at the very end, the segments are all tokens but those up to the last
one before the first feature that is no tag. -/
theorem segments_partition (ts : List Token) :
    List.Forall₂ (IsSegmentAt ts) (featurePositions ts) (segments ts) ∧
      (segments ts).flatten ++ ts.rtakeWhile Token.isTag =
        ts.drop ((ts.takeWhile fun t => !t.isFeature).rdropWhile Token.isTag).length ∧
      (segments ts = [] ↔ ∀ t ∈ ts, t.isFeature = false) := by
  refine ⟨?_, ?_, ?_⟩
  · rw [featurePositions_eq, segments_eq, List.forall₂_map_left_iff, List.forall₂_map_right_iff,
      List.forall₂_same]
    exact fun q hq => isSegmentAt_segmentOf hq
  · have hall := segments_flatten ts
    rw [segmentation_remaining, List.append_assoc, unsegmented, cutAtFeatures_fst] at hall
    rw [← takeTrailing_eq_rtakeWhile, ← dropTrailing_eq_rdropWhile]
    exact List.append_inj_right (hall.trans (List.take_append_drop _ ts).symm) (by
      rw [List.length_take, Nat.min_eq_left]
      exact (List.IsPrefix.trans (dropTrailing_isPrefix _ _) (List.takeWhile_prefix _)).length_le)
  · rw [segments_eq, List.map_eq_nil_iff, parts_eq_nil]

/-! ## Documents, one behind the other -/

/-- A sequence of tokens that can stand alone: tags, and then their feature. -/
def StartsWithFeature (ts : List Token) : Prop :=
  ∃ tags t rest, ts = tags ++ t :: rest ∧ (∀ u ∈ tags, u.isTag = true) ∧ t.isFeature = true

/-- Up to its first feature such a sequence holds tags only. -/
theorem StartsWithFeature.forall_lead {ts : List Token} (h : StartsWithFeature ts) :
    ∀ u ∈ ts.takeWhile (fun t => !t.isFeature), u.isTag = true := by
  obtain ⟨tags, t, rest, rfl, htags, ht⟩ := h
  have hlead : ∀ u ∈ tags, (!u.isFeature) = true := by
    intro u hu
    rw [Token.isFeature_of_isTag (htags u hu)]
    rfl
  rw [List.takeWhile_append_of_pos hlead]
  simpa [ht] using htags

/-- Documents are cut separately where one ends and the next one starts. -/
theorem segments_append {ts us : List Token}
    (hts : ∀ t, ts.getLast? = some t → t.isTag = false) (hus : StartsWithFeature us) :
    segments (ts ++ us) = segments ts ++ segments us := by
  rw [segments_eq, segments_eq, segments_eq, parts_append, List.map_append, List.map_map]
  congr 1
  · -- the tags that the last slice gains are cut off again
    apply map_modifyLast_of_eq
    intro q
    simp only [segmentOf, dropTrailing_append_of_forall hus.forall_lead]
  · apply List.map_congr_left
    intro q _
    simp only [Function.comp, segmentOf, takeTrailing_append_of_getLast hts]

theorem build_append {ts us : List Token}
    (hts : ∀ t, ts.getLast? = some t → t.isTag = false) (hus : StartsWithFeature us) :
    build (ts ++ us) = build ts ++ build us := by
  rw [build, segments_append hts hus, List.filterMap_append, build, build]

end Gherkin
