import Mathlib.Data.List.Basic
import Mathlib.Tactic.Common

/-!
# Words at the front of a list

A parser of options goes through a list and takes words off its front, where a word is one or more
entries that belong together. Which words a list begins with, and what follows them, then decides
what the parser makes of it.
-/

namespace Words

variable {α ω σ β : Type*} {spell : ω → List α}

/-- The list has a word at its front. -/
def Begins (spell : ω → List α) (l : List α) : Prop := ∃ w rest, l = spell w ++ rest

theorem begins_append (w : ω) (rest : List α) : Begins spell (spell w ++ rest) := ⟨w, rest, rfl⟩

theorem exists_words (hspell : ∀ w, spell w ≠ []) (l : List α) :
    ∃ (words : List ω) (rest : List α), l = words.flatMap spell ++ rest ∧ ¬ Begins spell rest := by
  induction hn : l.length using Nat.strongRecOn generalizing l with
  | _ n ih =>
      by_cases hl : Begins spell l
      · obtain ⟨w, rest, rfl⟩ := hl
        have hpos : 0 < (spell w).length := List.length_pos_iff.mpr (hspell w)
        have hlen : rest.length < n := by
          rw [← hn, List.length_append]
          omega
        obtain ⟨words, rest', rfl, hrest⟩ := ih rest.length hlen rest rfl
        exact ⟨w :: words, rest', by simp, hrest⟩
      · exact ⟨[], l, rfl, hl⟩

variable {read : List α → σ → β} {apply : σ → ω → σ}

theorem read_words (hread : ∀ w rest s, read (spell w ++ rest) s = read rest (apply s w))
    (words : List ω) (rest : List α) (s : σ) :
    read (words.flatMap spell ++ rest) s = read rest (words.foldl apply s) := by
  induction words generalizing s with
  | nil => rfl
  | cons w words ih =>
      rw [List.flatMap_cons, List.append_assoc, hread, ih, List.foldl_cons]

/-- What a parser makes of a list is what it makes, after the words, of the rest. -/
theorem read_iff (hspell : ∀ w, spell w ≠ [])
    (hread : ∀ w rest s, read (spell w ++ rest) s = read rest (apply s w)) {l : List α} {s : σ}
    {b : β} : read l s = b ↔ ∃ (words : List ω) (rest : List α), l = words.flatMap spell ++ rest ∧
      ¬ Begins spell rest ∧ read rest (words.foldl apply s) = b := by
  constructor
  · rintro rfl
    obtain ⟨words, rest, rfl, hrest⟩ := exists_words hspell l
    exact ⟨words, rest, rfl, hrest, (read_words hread words rest s).symm⟩
  · rintro ⟨words, rest, rfl, -, rfl⟩
    exact read_words hread words rest s

end Words
