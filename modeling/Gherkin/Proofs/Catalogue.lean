import Gherkin.Catalogue
import Mathlib.Data.Char
import Mathlib.Data.List.Basic
import Mathlib.Data.List.Induction

/-!
# What a catalogue files

A catalogue is no more than what it files under its codes, since the order of the
entries follows from the codes.

> `mem_entries_insert`, `mem_entries_ofList`: filing a value puts one entry in the
> place of what stood under the code, and a list leaves the last value for each code;
>
> `first?_eq_some`: the first code that satisfies `p` is the least one.
-/

namespace Gherkin.Catalogue

variable {α : Type} {c c' : Catalogue α} {code key : Text} {value : α} {e : Text × α}

theorem mem_place_iff : ∀ {es : List (Text × α)}, es.Pairwise (fun a b => a.1 < b.1) →
    (e ∈ place code value es ↔ e = (code, value) ∨ e.1 ≠ code ∧ e ∈ es)
  | [], _ => by simp [place]
  | a :: es, h => by
    have hp := List.pairwise_cons.1 h
    have hbehind {x : Text × α} (hx : x ∈ es) : a.1 < x.1 := hp.1 x hx
    rw [place]
    by_cases hlt : code < a.1
    · rw [if_pos hlt, List.mem_cons]
      refine or_congr_right ⟨fun he => ⟨?_, he⟩, And.right⟩
      -- all entries have greater codes
      rintro rfl
      rcases List.mem_cons.1 he with rfl | he
      · exact List.lt_irrefl _ hlt
      · exact List.lt_irrefl _ (List.lt_trans hlt (hbehind he))
    · rw [if_neg hlt]
      by_cases heq : code = a.1
      · rw [if_pos heq, List.mem_cons]
        refine or_congr_right ⟨fun he => ⟨?_, List.mem_cons_of_mem _ he⟩, ?_⟩
        · rintro rfl
          exact List.lt_irrefl _ (heq ▸ hbehind he)
        · rintro ⟨hne, he⟩
          rcases List.mem_cons.1 he with rfl | he
          · exact absurd heq.symm hne
          · exact he
      · rw [if_neg heq, List.mem_cons, mem_place_iff hp.2, List.mem_cons]
        constructor
        · rintro (rfl | rfl | ⟨hne, he⟩)
          · exact Or.inr ⟨Ne.symm heq, Or.inl rfl⟩
          · exact Or.inl rfl
          · exact Or.inr ⟨hne, Or.inr he⟩
        · rintro (rfl | ⟨hne, rfl | he⟩)
          · exact Or.inr (Or.inl rfl)
          · exact Or.inl rfl
          · exact Or.inr (Or.inr ⟨hne, he⟩)

/-- What is filed once `value` has been filed under `code`. -/
theorem mem_entries_insert :
    e ∈ (c.insert code value).entries ↔ e = (code, value) ∨ e.1 ≠ code ∧ e ∈ c.entries :=
  mem_place_iff c.ascending

theorem mem_iff : code ∈ c ↔ ∃ value, (code, value) ∈ c.entries := by
  constructor
  · intro h
    obtain ⟨⟨_, value⟩, he, rfl⟩ := List.mem_map.1 h
    exact ⟨value, he⟩
  · rintro ⟨value, he⟩
    exact List.mem_map.2 ⟨_, he, rfl⟩

theorem mem_of_mem_entries (h : (code, value) ∈ c.entries) : code ∈ c := mem_iff.2 ⟨value, h⟩

/-- Catalogues that file the same are the same. -/
theorem ext_of_mem (h : ∀ e, e ∈ c.entries ↔ e ∈ c'.entries) : c = c' := by
  have hnodup (c : Catalogue α) : c.entries.Nodup := by
    refine c.ascending.imp fun {a b} hlt heq => ?_
    rw [heq] at hlt
    exact List.lt_irrefl _ hlt
  have hentries : c.entries = c'.entries := by
    apply List.Perm.eq_of_pairwise _ c.ascending c'.ascending
    · exact (List.perm_ext_iff_of_nodup (hnodup c) (hnodup c')).2 h
    · intro a b _ _ hab hba
      exact absurd hba (List.lt_asymm hab)
  cases c
  cases c'
  cases hentries
  rfl

/-- Values under two codes are filed in either order. -/
theorem insert_comm {value' : α} (h : code ≠ key) :
    (c.insert code value).insert key value' = (c.insert key value').insert code value := by
  apply ext_of_mem
  intro e
  simp only [mem_entries_insert]
  constructor
  · rintro (rfl | ⟨hkey, rfl | ⟨hcode, he⟩⟩)
    · exact Or.inr ⟨Ne.symm h, Or.inl rfl⟩
    · exact Or.inl rfl
    · exact Or.inr ⟨hcode, Or.inr ⟨hkey, he⟩⟩
  · rintro (rfl | ⟨hcode, rfl | ⟨hkey, he⟩⟩)
    · exact Or.inr ⟨h, Or.inl rfl⟩
    · exact Or.inl rfl
    · exact Or.inr ⟨hkey, Or.inr ⟨hcode, he⟩⟩

/-! ## Looking for a code -/

/-- The entries stand in the order of their codes. -/
theorem lt_of_entries_eq {before after : List (Text × α)} (h : c.entries = before ++ e :: after) :
    (∀ x ∈ before, x.1 < e.1) ∧ ∀ x ∈ after, e.1 < x.1 := by
  have hascending := c.ascending
  rw [h, List.pairwise_append, List.pairwise_cons] at hascending
  exact ⟨fun x hx => hascending.2.2 x hx e List.mem_cons_self, hascending.2.1.1⟩

/-- The first entry for which `f` has an answer is the one with the least code. -/
theorem findSome?_entries_eq_some {β : Type} {f : Text × α → Option β} {b : β} :
    c.entries.findSome? f = some b ↔
      ∃ e ∈ c.entries, f e = some b ∧ ∀ x ∈ c.entries, (f x).isSome = true → ¬ x.1 < e.1 := by
  rw [List.findSome?_eq_some_iff]
  constructor
  · rintro ⟨before, e, after, hsplit, he, hbefore⟩
    refine ⟨e, by simp [hsplit], he, fun x hx hxs => ?_⟩
    -- another such entry stands behind this one
    rw [hsplit, List.mem_append, List.mem_cons] at hx
    rcases hx with hx | rfl | hx
    · rw [hbefore x hx] at hxs
      cases hxs
    · exact List.lt_irrefl _
    · exact List.lt_asymm ((lt_of_entries_eq hsplit).2 x hx)
  · rintro ⟨e, hmem, he, hleast⟩
    obtain ⟨before, after, hsplit⟩ := List.append_of_mem hmem
    refine ⟨before, e, after, hsplit, he, fun x hx => ?_⟩
    by_contra hne
    have hmemx : x ∈ c.entries := by simp [hsplit, hx]
    exact hleast x hmemx (Option.isSome_iff_ne_none.2 hne) ((lt_of_entries_eq hsplit).1 x hx)

/-- What is found is filed under the least code that satisfies `p`. -/
theorem first?_eq_some {p : Text → Bool} :
    c.first? p = some value ↔
      ∃ key, (key, value) ∈ c.entries ∧ p key = true ∧ ∀ k ∈ c, p k = true → ¬ k < key := by
  rw [first?, Option.map_eq_some_iff, List.find?_eq_findSome?_guard]
  simp only [findSome?_entries_eq_some, Option.guard_eq_some_iff, Option.isSome_guard]
  constructor
  · rintro ⟨_, ⟨e, hmem, ⟨rfl, hp⟩, hleast⟩, rfl⟩
    refine ⟨e.1, hmem, hp, fun k hk hpk => ?_⟩
    obtain ⟨v, hv⟩ := mem_iff.1 hk
    exact hleast (k, v) hv hpk
  · rintro ⟨key, hmem, hp, hleast⟩
    exact ⟨(key, value), ⟨(key, value), hmem, ⟨rfl, hp⟩,
      fun x hx hpx => hleast x.1 (mem_of_mem_entries hx) hpx⟩, rfl⟩

theorem get?_eq_some : c.get? code = some value ↔ (code, value) ∈ c.entries := by
  rw [get?, first?_eq_some]
  constructor
  · rintro ⟨key, hmem, hkey, -⟩
    obtain rfl : key = code := by simpa using hkey
    exact hmem
  · intro hmem
    refine ⟨code, hmem, by simp, fun k _ hk => ?_⟩
    obtain rfl : k = code := by simpa using hk
    exact List.lt_irrefl _

/-! ## Filing a list -/

/-- That `value` is the last one that a list gives for `code`. -/
def IsLastFor (l : List (Text × α)) (code : Text) (value : α) : Prop :=
  ∃ before after, l = before ++ (code, value) :: after ∧ ∀ e ∈ after, e.1 ≠ code

theorem ofList_concat (l : List (Text × α)) (e : Text × α) :
    ofList (l ++ [e]) = (ofList l).insert e.1 e.2 := by
  rw [ofList, List.foldl_append]
  rfl

theorem isLastFor_concat {l : List (Text × α)} :
    IsLastFor (l ++ [e]) code value ↔ (code, value) = e ∨ code ≠ e.1 ∧ IsLastFor l code value := by
  constructor
  · rintro ⟨before, after, hsplit, hafter⟩
    rcases List.eq_nil_or_concat' after with rfl | ⟨after, x, rfl⟩
    · have hlast := List.append_inj_right' hsplit rfl
      exact Or.inl (List.cons.inj hlast).1.symm
    · rw [← List.cons_append, ← List.append_assoc] at hsplit
      obtain ⟨rfl, hx⟩ := List.append_inj' hsplit rfl
      obtain rfl := (List.cons.inj hx).1
      exact Or.inr ⟨(hafter e (by simp)).symm, before, after, rfl,
        fun x hx => hafter x (List.mem_append_left _ hx)⟩
  · rintro (rfl | ⟨hne, before, after, rfl, hafter⟩)
    · exact ⟨l, [], rfl, nofun⟩
    · refine ⟨before, after ++ [e], by simp, fun x hx => ?_⟩
      rcases List.mem_append.1 hx with hx | hx
      · exact hafter x hx
      · rw [List.mem_singleton.1 hx]
        exact hne.symm

theorem isLastFor_map {β : Type} {g : α → β} {l : List (Text × α)} {b : β} :
    IsLastFor (l.map fun e => (e.1, g e.2)) code b ↔
      ∃ value, IsLastFor l code value ∧ g value = b := by
  constructor
  · rintro ⟨before, after, hsplit, hafter⟩
    obtain ⟨before, rest, rfl, rfl, hrest⟩ := List.map_eq_append_iff.1 hsplit
    obtain ⟨⟨code', value⟩, after, rfl, he, rfl⟩ := List.map_eq_cons_iff.1 hrest
    obtain ⟨rfl, rfl⟩ := Prod.mk.inj he
    refine ⟨value, ⟨before, after, rfl, fun e he => ?_⟩, rfl⟩
    exact hafter (e.1, g e.2) (List.mem_map.2 ⟨e, he, rfl⟩)
  · rintro ⟨value, ⟨before, after, rfl, hafter⟩, rfl⟩
    refine ⟨before.map fun e => (e.1, g e.2), after.map fun e => (e.1, g e.2), by simp, ?_⟩
    intro e he
    obtain ⟨x, hx, rfl⟩ := List.mem_map.1 he
    exact hafter x hx

/-- Of the values that a list gives for a code the last one is filed. -/
theorem mem_entries_ofList {l : List (Text × α)} :
    (code, value) ∈ (ofList l).entries ↔ IsLastFor l code value := by
  induction l using List.reverseRecOn with
  | nil =>
    constructor
    · intro h
      cases h
    · rintro ⟨before, after, hnil, -⟩
      simp at hnil
  | append_singleton l e ih => rw [ofList_concat, mem_entries_insert, ih, isLastFor_concat]

theorem mem_ofList {l : List (Text × α)} : code ∈ ofList l ↔ code ∈ l.map (·.1) := by
  induction l using List.reverseRecOn with
  | nil => rfl
  | append_singleton l e ih =>
    rw [ofList_concat, mem_iff, List.map_append, List.mem_append, ← ih, mem_iff]
    simp only [mem_entries_insert]
    constructor
    · rintro ⟨value, heq | ⟨-, hmem⟩⟩
      · exact Or.inr (by simp [(Prod.mk.inj heq).1])
      · exact Or.inl ⟨value, hmem⟩
    · rintro (⟨value, hmem⟩ | hcode)
      · by_cases hcode : code = e.1
        · exact ⟨e.2, Or.inl (by rw [hcode])⟩
        · exact ⟨value, Or.inr ⟨hcode, hmem⟩⟩
      · exact ⟨e.2, Or.inl (by rw [List.mem_singleton.1 hcode])⟩

/-- A value is the last for its code if no other value is given for the code. -/
theorem isLastFor_iff_mem {l : List (Text × α)} (h : (l.map (·.1)).Nodup) :
    IsLastFor l code value ↔ (code, value) ∈ l := by
  constructor
  · rintro ⟨before, after, rfl, -⟩
    exact List.mem_append_right _ List.mem_cons_self
  · intro hmem
    obtain ⟨before, after, rfl⟩ := List.append_of_mem hmem
    refine ⟨before, after, rfl, fun e he heq => ?_⟩
    rw [List.map_append, List.map_cons, List.nodup_append, List.nodup_cons] at h
    exact h.2.1.1 (List.mem_map.2 ⟨e, he, heq⟩)

/-- If the codes are different, it does not matter in which order values are filed. -/
theorem ofList_eq_of_perm {l l' : List (Text × α)} (h : (l.map (·.1)).Nodup) (hperm : l.Perm l') :
    ofList l = ofList l' := by
  have h' : (l'.map (·.1)).Nodup := (hperm.map _).nodup_iff.1 h
  apply ext_of_mem
  rintro ⟨code, value⟩
  rw [mem_entries_ofList, mem_entries_ofList, isLastFor_iff_mem h, isLastFor_iff_mem h',
    hperm.mem_iff]

end Gherkin.Catalogue
