import TreeDigest.Text.Utf8

/-!
Cutting lists at separators.

`splitOn` gives the parts between the separators, of which there is always one
more than there are separators; `splitOnce` cuts at the first one.
-/

namespace TreeDigest.Text

variable {α : Type} [DecidableEq α]

/-- The parts of a list between the separators. -/
def splitOn (sep : α) : List α → List (List α)
  | [] => [[]]
  | a :: rest =>
    if a = sep then [] :: splitOn sep rest
    else match splitOn sep rest with
      | [] => [[a]]
      | part :: parts => (a :: part) :: parts

/-- What stands before the first separator and what stands after it. -/
def splitOnce (sep : α) : List α → Option (List α × List α)
  | [] => none
  | a :: rest =>
    if a = sep then some ([], rest)
    else (splitOnce sep rest).map fun (before, after) => (a :: before, after)

/-- The parts of a text between the separators. -/
def split (sep : Char) (s : String) : List String := (splitOn sep s.toList).map String.ofList

/-- There is a part more than there are separators. -/
theorem length_splitOn (sep : α) (as : List α) : (splitOn sep as).length = as.count sep + 1 := by
  induction as with
  | nil => rfl
  | cons a rest ih =>
    by_cases h : a = sep
    · simp [splitOn, h, ih]
    · rw [splitOn, if_neg h, List.count_cons_of_ne (by simpa using h)]
      cases hs : splitOn sep rest with
      | nil => simp [hs] at ih
      | cons part parts => simpa [hs] using ih

/-- Whether a list starts with another, and what follows it if it does. -/
def dropStart? : List α → List α → Option (List α)
  | [], rest => some rest
  | _ :: _, [] => none
  | a :: start, b :: rest => if a = b then dropStart? start rest else none

theorem dropStart?_append (start rest : List α) : dropStart? start (start ++ rest) = some rest := by
  induction start with
  | nil => rfl
  | cons a start ih => simp [dropStart?, ih]

end TreeDigest.Text
