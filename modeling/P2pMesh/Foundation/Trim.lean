import Mathlib.Data.List.Basic
import Mathlib.Data.List.Infix

/-! # Trimming blanks

Removing blanks from both ends of a text, where a blank may have several elements (a
character of a byte string). A text that neither starts nor ends with a blank is left as it
is (`Foundation.Blanks.trim_eq_self`), and of a text that is padded with a blank of one element
that no other blank has, the padding is removed (`Foundation.Blanks.trim_cons`,
`Foundation.Blanks.trim_append`).
-/

namespace Foundation

variable {α : Type*} [DecidableEq α]

/-- The blanks, none of which is empty. -/
structure Blanks (α : Type*) where
  words : List (List α)
  solid : ∀ word ∈ words, word ≠ []

namespace Blanks

/-- The blanks read backwards. -/
def reverse (blanks : Blanks α) : Blanks α where
  words := blanks.words.map List.reverse
  solid := by
    intro word member
    obtain ⟨original, listed, rfl⟩ := List.mem_map.mp member
    exact fun empty => blanks.solid original listed (List.reverse_eq_nil_iff.mp empty)

/-- Removes a blank from the front, if there is one. -/
def strip (blanks : Blanks α) (text : List α) : Option (List α) :=
  (blanks.words.find? (·.isPrefixOf text)).map fun word => text.drop word.length

/-- Removes blanks from the front, at most as many as the fuel allows. -/
def trimWithin (blanks : Blanks α) : Nat → List α → List α
  | 0, text => text
  | fuel + 1, text =>
      match blanks.strip text with
      | some rest => trimWithin blanks fuel rest
      | none => text

/-- A text without the blanks at its start. -/
def trimStart (blanks : Blanks α) (text : List α) : List α :=
  blanks.trimWithin text.length text

/-- A text without the blanks at its end. -/
def trimEnd (blanks : Blanks α) (text : List α) : List α :=
  (blanks.reverse.trimStart text.reverse).reverse

/-- A text without the blanks at both ends. -/
def trim (blanks : Blanks α) (text : List α) : List α :=
  blanks.trimEnd (blanks.trimStart text)

/-- An element that no blank has, except for the blank that it is. -/
def Alone (blanks : Blanks α) (x : α) : Prop :=
  ∀ word ∈ blanks.words, x ∈ word → word = [x]

/-- A blank of one element that no other blank has. -/
structure Sole (blanks : Blanks α) (x : α) : Prop where
  listed : [x] ∈ blanks.words
  only : blanks.Alone x

/-- A text that does not start with a blank. -/
def Starts (blanks : Blanks α) (text : List α) : Prop :=
  ∀ word ∈ blanks.words, ¬ word <+: text

/-- A text that does not end with a blank. -/
def Ends (blanks : Blanks α) (text : List α) : Prop :=
  ∀ word ∈ blanks.words, ¬ word <:+ text

variable {blanks : Blanks α} {x : α} {text : List α}

section
omit [DecidableEq α]

theorem Alone.reverse (alone : blanks.Alone x) : blanks.reverse.Alone x := by
  intro word member inside
  obtain ⟨original, listed, rfl⟩ := List.mem_map.mp member
  rw [alone original listed (List.mem_reverse.mp inside)]
  rfl

theorem Sole.reverse (sole : blanks.Sole x) : blanks.reverse.Sole x where
  listed := List.mem_map.mpr ⟨[x], sole.listed, rfl⟩
  only := sole.only.reverse

theorem starts_reverse : blanks.reverse.Starts text.reverse ↔ blanks.Ends text := by
  constructor
  · intro starts word member last
    exact starts word.reverse (List.mem_map_of_mem member) (List.reverse_prefix.mpr last)
  · intro ends word member first
    obtain ⟨original, listed, rfl⟩ := List.mem_map.mp member
    exact ends original listed (List.reverse_prefix.mp first)

/-- Such an element ends what stands before it. -/
theorem starts_append (alone : blanks.Alone x) (starts : blanks.Starts text) (some : text ≠ [])
    (rest : List α) : blanks.Starts (text ++ x :: rest) := by
  intro word member first
  have own : text ++ [x] <+: text ++ x :: rest := ⟨rest, by simp⟩
  rcases Nat.lt_or_ge text.length word.length with longer | shorter
  · have inside : text ++ [x] <+: word :=
      List.prefix_of_prefix_length_le own first (by rwa [List.length_append])
    have one := alone word member (inside.subset (List.mem_append_right _ List.mem_cons_self))
    rw [one, List.length_singleton, Nat.lt_one_iff] at longer
    exact some (List.length_eq_zero_iff.mp longer)
  · exact starts word member
      (List.prefix_of_prefix_length_le first (List.prefix_append _ _) shorter)

/-- A text after something that is no blank still has nothing to trim behind. -/
theorem ends_append (alone : blanks.Alone x) (ends : blanks.Ends text) (some : text ≠ [])
    (before : List α) : blanks.Ends (before ++ x :: text) := by
  have turned := starts_append alone.reverse (starts_reverse.mpr ends)
    (fun empty => some (List.reverse_eq_nil_iff.mp empty)) before.reverse
  rw [← starts_reverse]
  simpa using turned

end

/-- There is nothing to strip in front of a text that starts with no blank. -/
theorem strip_eq_none (starts : blanks.Starts text) : blanks.strip text = none := by
  rw [strip, Option.map_eq_none_iff, List.find?_eq_none]
  intro word member first
  exact starts word member (List.isPrefixOf_iff_prefix.mp first)

/-- Trimming leaves a text that starts with no blank. -/
theorem trimStart_eq_self (starts : blanks.Starts text) : blanks.trimStart text = text := by
  rw [trimStart]
  cases text with
  | nil => rfl
  | cons first rest => rw [List.length_cons, trimWithin, strip_eq_none starts]

/-- Trimming leaves a text that ends with no blank. -/
theorem trimEnd_eq_self (ends : blanks.Ends text) : blanks.trimEnd text = text := by
  rw [trimEnd, trimStart_eq_self (starts_reverse.mpr ends), List.reverse_reverse]

/-- Trimming leaves a text without blanks at its ends. -/
theorem trim_eq_self (starts : blanks.Starts text) (ends : blanks.Ends text) :
    blanks.trim text = text := by
  rw [trim, trimStart_eq_self starts, trimEnd_eq_self ends]

theorem strip_cons (sole : blanks.Sole x) : blanks.strip (x :: text) = some text := by
  have found : blanks.words.find? (·.isPrefixOf (x :: text)) = some [x] := by
    cases result : blanks.words.find? (·.isPrefixOf (x :: text)) with
    | none =>
        have never := List.find?_eq_none.mp result [x] sole.listed
        simp at never
    | some word =>
        have member := List.mem_of_find?_eq_some result
        have first := List.find?_some result
        cases word with
        | nil => exact absurd rfl (blanks.solid [] member)
        | cons y word =>
            have same : y = x := by
              simp only [List.isPrefixOf_cons_cons, Bool.and_eq_true, beq_iff_eq] at first
              exact first.1
            subst same
            rw [sole.only _ member List.mem_cons_self]
  rw [strip, found]
  rfl

/-- A blank in front is trimmed. -/
theorem trimStart_cons (sole : blanks.Sole x) :
    blanks.trimStart (x :: text) = blanks.trimStart text := by
  rw [trimStart, List.length_cons, trimWithin, strip_cons sole]
  rfl

/-- One blank in front is trimmed, and nothing else. -/
theorem trim_cons (sole : blanks.Sole x) (starts : blanks.Starts text) (ends : blanks.Ends text) :
    blanks.trim (x :: text) = text := by
  rw [trim, trimStart_cons sole, trimStart_eq_self starts, trimEnd_eq_self ends]

/-- One blank behind is trimmed, and nothing else. -/
theorem trim_append (sole : blanks.Sole x) (starts : blanks.Starts text) (ends : blanks.Ends text)
    (some : text ≠ []) : blanks.trim (text ++ [x]) = text := by
  rw [trim, trimStart_eq_self (starts_append sole.only starts some []), trimEnd,
    List.reverse_append, List.reverse_singleton, List.singleton_append, trimStart_cons sole.reverse,
    trimStart_eq_self (starts_reverse.mpr ends), List.reverse_reverse]

end Blanks

end Foundation
