import Mathlib.Data.List.Basic
import Mathlib.Data.List.Nodup

/-! # Filters that look at the past

A history filter decides on each entry of a list from the entries before it. Its
output repeats an entry exactly when the entry is kept at two positions
(`Foundation.nodup_historyFilter_iff`).
-/

namespace Foundation

variable {α : Type*}

/-- Keep each entry that `keep` accepts after the entries before it; `past` holds
the entries before the list. -/
def historyFilter (keep : List α → α → Bool) : List α → List α → List α
  | _, [] => []
  | past, entry :: rest =>
      if keep past entry then entry :: historyFilter keep (past ++ [entry]) rest
      else historyFilter keep (past ++ [entry]) rest

variable {keep : List α → α → Bool}

/-- The output consists of the entries kept at some position. -/
theorem mem_historyFilter_iff {past entries : List α} {entry : α} :
    entry ∈ historyFilter keep past entries ↔
      ∃ before after, entries = before ++ entry :: after ∧ keep (past ++ before) entry := by
  induction entries generalizing past with
  | nil =>
      constructor
      · intro member
        exact (List.not_mem_nil member).elim
      · rintro ⟨before, after, split, _⟩
        exact (List.append_ne_nil_of_right_ne_nil before (List.cons_ne_nil _ _) split.symm).elim
  | cons head rest ih =>
      have tail : (∃ before after, rest = before ++ entry :: after ∧
            keep (past ++ [head] ++ before) entry) ↔
          ∃ before after, head :: rest = (head :: before) ++ entry :: after ∧
            keep (past ++ head :: before) entry := by
        simp only [List.cons_append, List.cons.injEq, true_and, List.append_assoc,
          List.nil_append]
      constructor
      · intro member
        by_cases kept : keep past head
        · simp only [historyFilter, kept, ↓reduceIte, List.mem_cons] at member
          rcases member with rfl | later
          · exact ⟨[], rest, rfl, by simpa only [List.append_nil] using kept⟩
          · obtain ⟨before, after, found⟩ := tail.mp (ih.mp later)
            exact ⟨head :: before, after, found⟩
        · simp only [historyFilter, kept, Bool.false_eq_true, ↓reduceIte] at member
          obtain ⟨before, after, found⟩ := tail.mp (ih.mp member)
          exact ⟨head :: before, after, found⟩
      · rintro ⟨before, after, split, kept⟩
        cases before with
        | nil =>
            simp only [List.nil_append, List.cons.injEq] at split
            obtain ⟨rfl, rfl⟩ := split
            rw [List.append_nil] at kept
            simp only [historyFilter, kept, ↓reduceIte, List.mem_cons, true_or]
        | cons first before =>
            obtain ⟨rfl, _⟩ := List.cons.inj split
            have later : entry ∈ historyFilter keep (past ++ [head]) rest :=
              ih.mpr (tail.mpr ⟨before, after, split, kept⟩)
            by_cases headKept : keep past head
            · simp only [historyFilter, headKept, ↓reduceIte, List.mem_cons, later, or_true]
            · simpa only [historyFilter, headKept, Bool.false_eq_true, ↓reduceIte] using later

/-- The output repeats no entry exactly when no entry is kept at two positions. -/
theorem nodup_historyFilter_iff {past entries : List α} :
    (historyFilter keep past entries).Nodup ↔
      ∀ before entry middle after, entries = before ++ entry :: (middle ++ entry :: after) →
        keep (past ++ before) entry → ¬ keep (past ++ before ++ entry :: middle) entry := by
  induction entries generalizing past with
  | nil =>
      simp only [historyFilter, List.nodup_nil, true_iff]
      intro before entry middle after split
      exact (List.append_ne_nil_of_right_ne_nil before (List.cons_ne_nil _ _) split.symm).elim
  | cons head rest ih =>
      -- The condition splits into the pairs that start at the head and the pairs of the rest.
      have pairs : (∀ before entry middle after,
            head :: rest = before ++ entry :: (middle ++ entry :: after) →
            keep (past ++ before) entry → ¬ keep (past ++ before ++ entry :: middle) entry) ↔
          (keep past head → head ∉ historyFilter keep (past ++ [head]) rest) ∧
          (historyFilter keep (past ++ [head]) rest).Nodup := by
        rw [ih]
        constructor
        · intro apart
          refine ⟨fun kept repeated => ?_, fun before entry middle after split kept => ?_⟩
          · obtain ⟨middle, after, split, again⟩ := mem_historyFilter_iff.mp repeated
            refine apart [] head middle after ?_ ?_ ?_
            · rw [split, List.nil_append]
            · simpa only [List.append_nil] using kept
            · simpa only [List.append_nil, List.append_assoc, List.cons_append,
                List.nil_append] using again
          · have far := apart (head :: before) entry middle after (by rw [split]; rfl)
            simp only [List.append_assoc, List.cons_append, List.nil_append] at far kept ⊢
            exact far kept
        · rintro ⟨headOnce, restOnce⟩ before entry middle after split kept
          cases before with
          | nil =>
              simp only [List.nil_append, List.cons.injEq] at split
              obtain ⟨rfl, rfl⟩ := split
              rw [List.append_nil] at kept ⊢
              intro again
              refine headOnce kept (mem_historyFilter_iff.mpr ⟨middle, after, rfl, ?_⟩)
              simpa only [List.append_assoc, List.cons_append, List.nil_append] using again
          | cons first before =>
              obtain ⟨rfl, restSplit⟩ := List.cons.inj split
              have far := restOnce before entry middle after restSplit
              simp only [List.append_assoc, List.cons_append, List.nil_append] at far kept ⊢
              exact far kept
      rw [pairs]
      by_cases kept : keep past head
      · simp only [historyFilter, kept, ↓reduceIte, List.nodup_cons, forall_const]
      · simp only [historyFilter, kept, ↓reduceIte, Bool.false_eq_true, false_implies, true_and]

/-- Filtering the output strengthens the history filter. -/
theorem filter_historyFilter (good : α → Bool) (past entries : List α) :
    (historyFilter keep past entries).filter good =
      historyFilter (fun before entry => keep before entry && good entry) past entries := by
  induction entries generalizing past with
  | nil => rfl
  | cons head rest ih =>
      simp only [historyFilter]
      by_cases kept : keep past head <;> by_cases marked : good head <;>
        simp only [kept, marked, Bool.false_eq_true, ↓reduceIte, List.filter_cons, ih,
          Bool.and_self, Bool.and_true, Bool.and_false]

end Foundation
