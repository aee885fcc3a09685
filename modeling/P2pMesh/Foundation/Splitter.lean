import Mathlib.Data.List.Basic

/-! # Splitting a text at its separators

A splitter reads a text from the left, keeps a state, and cuts at the separators that it meets
in certain states. Two splitters whose blank pieces are dropped return the same pieces just when
they cut at the same separators (`Foundation.Splitter.solidPieces_eq_iff`), provided each of
them is ready to cut at the start of every piece and remains so over blanks.
-/

namespace Foundation

/-- An automaton that says where a separator cuts a text. -/
structure Splitter (α σ : Type*) where
  start : σ
  step : σ → α → σ
  /-- A separator is a cut in this state. -/
  cuts : σ → Bool

namespace Splitter

variable {α σ τ : Type*} [DecidableEq α]

/-- The pieces of a text, when `current` has been read of the first one. -/
def piecesFrom (m : Splitter α σ) (sep : α) (s : σ) (current : List α) : List α → List (List α)
  | [] => [current]
  | x :: rest =>
      if x = sep ∧ m.cuts s then current :: m.piecesFrom sep (m.step s x) [] rest
      else m.piecesFrom sep (m.step s x) (current ++ [x]) rest

/-- The pieces of a text. -/
def pieces (m : Splitter α σ) (sep : α) (text : List α) : List (List α) :=
  m.piecesFrom sep m.start [] text

/-- The state after a text. -/
def after (m : Splitter α σ) (text : List α) : σ :=
  text.foldl m.step m.start

/-- The splitter is ready to cut while a piece has nothing but blanks. -/
structure Ready (m : Splitter α σ) (sep : α) (blank : α → Bool) : Prop where
  start : m.cuts m.start = true
  resume : ∀ s, m.cuts s = true → m.cuts (m.step s sep) = true
  steady : ∀ s x, blank x = true → m.cuts s = true → m.cuts (m.step s x) = true

/-- The piece has something in it. -/
def solid (blank : α → Bool) (piece : List α) : Bool :=
  !piece.all blank

/-- The pieces that have something in them. -/
def solidPieces (m : Splitter α σ) (sep : α) (blank : α → Bool) (text : List α) : List (List α) :=
  (m.pieces sep text).filter (solid blank)

/-- The first piece continues what has been read. -/
theorem piecesFrom_head (m : Splitter α σ) (sep : α) (s : σ) (current text : List α) :
    ∃ more others, m.piecesFrom sep s current text = (current ++ more) :: others := by
  induction text generalizing s current with
  | nil => exact ⟨[], [], by rw [List.append_nil]; rfl⟩
  | cons x rest ih =>
      by_cases cut : x = sep ∧ m.cuts s
      · exact ⟨[], _, by rw [piecesFrom, if_pos cut, List.append_nil]⟩
      · obtain ⟨more, others, eq⟩ := ih (m.step s x) (current ++ [x])
        exact ⟨x :: more, others, by rw [piecesFrom, if_neg cut, eq, List.append_assoc]; rfl⟩

omit [DecidableEq α] in
/-- A property of every separator of a text, by the first letter and the rest. -/
theorem forall_separator_cons {sep x : α} {rest : List α} {P : List α → Prop} :
    (∀ before after, x :: rest = before ++ sep :: after → P before) ↔
      (x = sep → P []) ∧ ∀ before after, rest = before ++ sep :: after → P (x :: before) := by
  constructor
  · intro all
    refine ⟨fun same => all [] rest (by rw [same]; rfl), fun before after eq => ?_⟩
    exact all (x :: before) after (by rw [eq]; rfl)
  · rintro ⟨first, later⟩ before after eq
    cases before with
    | nil => exact first (List.cons.inj eq).1
    | cons y before =>
        obtain ⟨rfl, tail⟩ := List.cons.inj eq
        exact later before after tail

variable {m : Splitter α σ} {m' : Splitter α τ} {sep : α} {blank : α → Bool}

/-- A piece that ends at a separator for one splitter and goes on for the other. -/
theorem filter_piecesFrom_ne (visible : blank sep = false) {s : σ} {s' : τ} {current : List α}
    (ended : solid blank current = true) (cut : m.cuts s = true) (goesOn : m'.cuts s' = false)
    (rest : List α) :
    (m.piecesFrom sep s current (sep :: rest)).filter (solid blank) ≠
      (m'.piecesFrom sep s' current (sep :: rest)).filter (solid blank) := by
  obtain ⟨more, others, eq⟩ := m'.piecesFrom_head sep (m'.step s' sep) (current ++ [sep]) rest
  have kept : solid blank (current ++ [sep] ++ more) = true := by simp [solid, visible]
  simp only [piecesFrom, cut, goesOn, Bool.false_eq_true, and_false, and_self, ↓reduceIte, eq]
  rw [List.filter_cons_of_pos ended, List.filter_cons_of_pos kept]
  intro same
  have lengths := congrArg List.length (List.cons.inj same).1
  simp only [List.length_append, List.length_singleton] at lengths
  omega

/-- Two machines cut a text into the same pieces that are not blank exactly if they agree on every
separator of the text. -/
theorem filter_piecesFrom_eq_iff (ready : m.Ready sep blank) (ready' : m'.Ready sep blank)
    (visible : blank sep = false) (s : σ) (s' : τ) (current text : List α)
    (fresh : current.all blank = true → m.cuts s = true ∧ m'.cuts s' = true) :
    (m.piecesFrom sep s current text).filter (solid blank) =
        (m'.piecesFrom sep s' current text).filter (solid blank) ↔
      ∀ before after, text = before ++ sep :: after →
        m.cuts (before.foldl m.step s) = m'.cuts (before.foldl m'.step s') := by
  induction text generalizing s s' current with
  | nil => simp [piecesFrom]
  | cons x rest ih =>
      rw [forall_separator_cons]
      by_cases separator : x = sep
      · subst separator
        -- If the machines disagree at a separator, the piece before it is not blank.
        have ended (differ : m.cuts s ≠ m'.cuts s') : solid blank current = true := by
          rw [solid, Bool.not_eq_true']
          by_contra allBlank
          rw [Bool.not_eq_false] at allBlank
          exact differ ((fresh allBlank).1.trans (fresh allBlank).2.symm)
        cases here : m.cuts s with
        | false =>
            cases there : m'.cuts s' with
            | false =>
                simp only [piecesFrom, here, there, Bool.false_eq_true, and_false, ↓reduceIte,
                  List.foldl_nil, implies_true, true_and]
                exact ih _ _ _ fun all => absurd all (by simp [visible])
            | true =>
                -- One machine cuts here and the other does not.
                refine iff_of_false (fun same => ?_) fun agree => ?_
                · exact filter_piecesFrom_ne visible (ended (by simp [here, there])) there here
                    rest same.symm
                · simpa [here, there] using agree.1 rfl
        | true =>
            cases there : m'.cuts s' with
            | false =>
                refine iff_of_false (fun same => ?_) fun agree => ?_
                · exact filter_piecesFrom_ne visible (ended (by simp [here, there])) here there
                    rest same
                · simpa [here, there] using agree.1 rfl
            | true =>
                have tails := ih (m.step s x) (m'.step s' x) [] fun _ =>
                  ⟨ready.resume s here, ready'.resume s' there⟩
                simp only [piecesFrom, here, there, and_self, ↓reduceIte, List.filter_cons,
                  List.foldl_nil, implies_true, true_and]
                split
                · rw [List.cons_inj_right]
                  exact tails
                · exact tails
      · -- Inside a piece nothing is cut, and blanks keep both machines ready.
        have blankStep : (current ++ [x]).all blank = true →
            m.cuts (m.step s x) = true ∧ m'.cuts (m'.step s' x) = true := by
          intro all
          rw [List.all_append, Bool.and_eq_true] at all
          obtain ⟨left, right⟩ := fresh all.1
          have blankX : blank x = true := by simpa using all.2
          exact ⟨ready.steady s x blankX left, ready'.steady s' x blankX right⟩
        simp only [piecesFrom, separator, false_and, ↓reduceIte, false_implies, true_and]
        exact ih _ _ _ blankStep

/-- The splitters return the same pieces, blank ones apart, just when they agree at every
separator. -/
theorem solidPieces_eq_iff (ready : m.Ready sep blank) (ready' : m'.Ready sep blank)
    (visible : blank sep = false) (text : List α) :
    m.solidPieces sep blank text = m'.solidPieces sep blank text ↔
      ∀ before after, text = before ++ sep :: after →
        m.cuts (m.after before) = m'.cuts (m'.after before) :=
  filter_piecesFrom_eq_iff ready ready' visible _ _ [] text fun _ => ⟨ready.start, ready'.start⟩

end Splitter

end Foundation
