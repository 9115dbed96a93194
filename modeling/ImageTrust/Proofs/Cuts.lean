/-
# Cuts — where a text is taken apart

A text is cut at the first or at the last occurrence of a sign, or at all of them.  Each cut
is determined by an equation and by where the sign does not occur, so a proof about a grammar
never looks into the recursion: it shows the text as parts with the sign in between, and that
the right part is free of it.

What a class of texts is free of survives a line feed at the end, which the grammars of
references do not count (`not_mem_of_isLineOf`).
-/
import ImageTrust.Reference.Grammar

namespace ImageTrust

namespace Text

variable {c x : CodePoint} {t before after : Text}

/-! ## One cut -/

theorem cutFirst?_of_not_mem (h : c ∉ t) : t.cutFirst? c = none := by
  induction t with
  | nil => rfl
  | cons y t ih =>
      rw [List.mem_cons, not_or] at h
      rw [cutFirst?, if_neg (Ne.symm h.1), ih h.2, Option.map_none]

theorem cutFirst?_append (h : c ∉ before) (after : Text) :
    cutFirst? c (before ++ c :: after) = some (before, after) := by
  induction before with
  | nil => exact if_pos rfl
  | cons y before ih =>
      rw [List.mem_cons, not_or] at h
      rw [List.cons_append, cutFirst?, if_neg (Ne.symm h.1), ih h.2, Option.map_some]

/-- What stands in front of a text without the sign stays in front of what is cut off. -/
theorem cutFirst?_prepend {front : Text} (h : c ∉ front) (t : Text) :
    cutFirst? c (front ++ t) = (cutFirst? c t).map fun both => (front ++ both.1, both.2) := by
  induction front with
  | nil => simp
  | cons y front ih =>
      rw [List.mem_cons, not_or] at h
      rw [List.cons_append, cutFirst?, if_neg (Ne.symm h.1), ih h.2, Option.map_map]
      rfl

theorem cutFirst?_eq_some_iff :
    t.cutFirst? c = some (before, after) ↔ t = before ++ c :: after ∧ c ∉ before := by
  constructor
  · intro hcut
    by_cases hc : c ∈ t
    · obtain ⟨b, a, rfl, hb⟩ := List.eq_append_cons_of_mem hc
      rw [cutFirst?_append hb, Option.some.injEq, Prod.mk.injEq] at hcut
      obtain ⟨rfl, rfl⟩ := hcut
      exact ⟨rfl, hb⟩
    · rw [cutFirst?_of_not_mem hc] at hcut
      cases hcut
  · rintro ⟨rfl, hb⟩
    exact cutFirst?_append hb after

theorem cutLast?_of_not_mem (h : c ∉ t) : t.cutLast? c = none := by
  induction t with
  | nil => rfl
  | cons y t ih =>
      rw [List.mem_cons, not_or] at h
      rw [cutLast?, ih h.2, if_neg (Ne.symm h.1)]

theorem cutLast?_append (before : Text) (h : c ∉ after) :
    cutLast? c (before ++ c :: after) = some (before, after) := by
  induction before with
  | nil => rw [List.nil_append, cutLast?, cutLast?_of_not_mem h, if_pos rfl]
  | cons y before ih => rw [List.cons_append, cutLast?, ih]

theorem cutLast?_prepend {front : Text} (h : c ∉ front) (t : Text) :
    cutLast? c (front ++ t) = (cutLast? c t).map fun both => (front ++ both.1, both.2) := by
  induction front with
  | nil => simp
  | cons y front ih =>
      rw [List.mem_cons, not_or] at h
      rw [List.cons_append, cutLast?, ih h.2]
      cases cutLast? c t with
      | none => exact if_neg (Ne.symm h.1)
      | some both => rfl

theorem cutLast?_eq_some_iff :
    t.cutLast? c = some (before, after) ↔ t = before ++ c :: after ∧ c ∉ after := by
  constructor
  · intro hcut
    by_cases hc : c ∈ t
    · -- The last occurrence is the first one of the text backwards.
      obtain ⟨a, b, hrev, ha⟩ := List.eq_append_cons_of_mem (List.mem_reverse.mpr hc)
      obtain rfl : t = b.reverse ++ c :: a.reverse := by
        rw [← List.reverse_reverse t, hrev, List.reverse_append, List.reverse_cons,
          List.append_assoc, List.singleton_append]
      rw [← List.mem_reverse] at ha
      rw [cutLast?_append _ ha, Option.some.injEq, Prod.mk.injEq] at hcut
      obtain ⟨rfl, rfl⟩ := hcut
      exact ⟨rfl, ha⟩
    · rw [cutLast?_of_not_mem hc] at hcut
      cases hcut
  · rintro ⟨rfl, ha⟩
    exact cutLast?_append before ha

/-! ## All cuts -/

theorem pieces_eq_splitOn : pieces c t = t.splitOn c := by
  induction t with
  | nil => rfl
  | cons y t ih =>
      show pieces c (y :: t) = (y :: t).splitOnP (· == c)
      rw [pieces, ih, List.splitOnP_cons_eq_if_modifyHead]
      by_cases hy : y = c
      · simp [hy, List.splitOn]
      · rw [if_neg hy, if_neg (by simpa using hy), List.splitOn]
        cases hps : t.splitOnP (· == c) with
        | nil => exact absurd hps (List.splitOnP_ne_nil _ _)
        | cons p ps => rfl

theorem pieces_joined {ts : List Text} (hne : ts ≠ []) (hfree : ∀ p ∈ ts, c ∉ p) :
    pieces c (joined [c] ts) = ts := by
  rw [pieces_eq_splitOn, joined, List.splitOn_intercalate c hfree hne]

/-- Every sign but the separator is in one of the pieces. -/
theorem exists_mem_pieces (h : x ∈ t) (hne : x ≠ c) : ∃ p ∈ pieces c t, x ∈ p := by
  induction t with
  | nil => cases h
  | cons y t ih =>
      unfold pieces
      rcases List.mem_cons.mp h with rfl | h
      · rw [if_neg hne]
        cases pieces c t with
        | nil => simp
        | cons p ps => simp
      · obtain ⟨p, hp, hx⟩ := ih h
        by_cases hy : y = c
        · exact ⟨p, by simp [hy, hp], hx⟩
        · rw [if_neg hy]
          cases hps : pieces c t with
          | nil => simp [hps] at hp
          | cons q qs =>
              rw [hps, List.mem_cons] at hp
              rcases hp with rfl | hp
              · exact ⟨y :: p, List.mem_cons_self, List.mem_cons_of_mem _ hx⟩
              · exact ⟨p, List.mem_cons_of_mem _ hp, hx⟩

/-! ## What a class is free of -/

theorem isLineOf_iff {p : Text → Bool} :
    t.isLineOf p = true ↔ p t = true ∨ ∃ s, p s = true ∧ t = s ++ [CodePoint.ofChar '\n'] := by
  unfold isLineOf
  rw [Bool.or_eq_true, Bool.and_eq_true, beq_iff_eq]
  refine or_congr_right ?_
  constructor
  · rintro ⟨hlast, hinit⟩
    obtain ⟨s, rfl⟩ := List.getLast?_eq_some_iff.mp hlast
    rw [List.dropLast_concat] at hinit
    exact ⟨s, hinit, rfl⟩
  · rintro ⟨s, hs, rfl⟩
    exact ⟨List.getLast?_concat, by rwa [List.dropLast_concat]⟩

theorem not_mem_of_isLineOf {p : Text → Bool} (hp : ∀ s, p s → x ∉ s)
    (hx : x ≠ CodePoint.ofChar '\n') (h : t.isLineOf p) : x ∉ t := by
  rcases isLineOf_iff.mp h with hline | ⟨s, hs, rfl⟩
  · exact hp t hline
  · rw [List.mem_append, List.mem_singleton, not_or]
    exact ⟨hp s hs, hx⟩

end Text

end ImageTrust
