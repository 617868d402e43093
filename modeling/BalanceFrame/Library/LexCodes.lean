import Mathlib.Data.List.Lex
import Mathlib.Data.String.Basic

/-!
# Codes that keep the lexicographic order

A code writes a symbol as a nonempty word, and of two symbols the smaller has the word that comes
first, whatever follows (`OrderCode`). Words written one after another then compare as the lists of
symbols do (`OrderCode.flatMap_lt_iff`).
-/

namespace BalanceFrame.Library

variable {α β : Type} [LinearOrder α] [LinearOrder β]

/-- A code under which texts compare as the lists of symbols. -/
structure OrderCode (code : α → List β) : Prop where
  nonempty : ∀ a, code a ≠ []
  lt : ∀ a b, a < b → ∀ x y, code a ++ x < code b ++ y

theorem append_lt_append_iff (l : List β) {x y : List β} : l ++ x < l ++ y ↔ x < y := by
  induction l with
  | nil => rfl
  | cons b l ih =>
    rw [List.cons_append, List.cons_append, List.cons_lt_cons_iff]
    simp [ih]

theorem OrderCode.flatMap_lt_iff {code : α → List β} (h : OrderCode code) :
    ∀ l m : List α, l.flatMap code < m.flatMap code ↔ l < m
  | [], [] => by simp
  | [], b :: m => by
    obtain ⟨c, w, hw⟩ := List.exists_cons_of_ne_nil (h.nonempty b)
    rw [List.flatMap_cons, hw]
    simp
  | a :: l, [] => by simp
  | a :: l, b :: m => by
    rw [List.flatMap_cons, List.flatMap_cons, List.cons_lt_cons_iff]
    rcases lt_trichotomy a b with hab | rfl | hba
    · simp [hab, h.lt a b hab]
    · rw [append_lt_append_iff, h.flatMap_lt_iff l m]
      simp
    · have hgt := h.lt b a hba (m.flatMap code) (l.flatMap code)
      simp [hba.not_gt, hba.ne', hgt.not_gt]

end BalanceFrame.Library

/-!
## The first bytes of a text

`takeBytes` cuts a text after a number of bytes, where a character ends there.
-/

namespace BalanceFrame.Library

/-- The first `n` bytes, where they end a character. -/
def takeBytes (n : Nat) : List Char → Option (List Char)
  | [] => if n = 0 then some [] else none
  | c :: rest =>
    if n = 0 then some []
    else if c.utf8Size ≤ n then (takeBytes (n - c.utf8Size) rest).map (c :: ·)
    else none

/-- `get(..7)`: the month of a date or a timestamp. -/
def monthOf (date : String) : Option String := (takeBytes 7 date.toList).map String.ofList

end BalanceFrame.Library
