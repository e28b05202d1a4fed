/-!
# Suggestions

How far two words are apart, and which of several words is nearest to one that nobody knows.
Distance counts the insertions, deletions and substitutions of single characters.

Distances are worked out in a table with a row for each beginning of one word and a column for each
beginning of the other, the empty ones included. Of its rows only two are kept at a time.
-/

namespace ChatCommands.Suggestion

/-- Two rows of the table, for a word of `n` characters that has the columns. -/
structure Rows (n : Nat) where
  /-- The last row that is complete. -/
  above : Vector Nat (n + 1)
  /-- An earlier row, which is written over. -/
  spare : Vector Nat (n + 1)

/-- Fills the cell that is right of column `j`: the least of what a deletion, an insertion and a
match of the two characters lead to. -/
def fillCell (c : Char) (b : Array Char) (above row : Vector Nat (b.size + 1)) (j : Fin b.size) :
    Vector Nat (b.size + 1) :=
  let deleted := above[j.val + 1] + 1
  let inserted := row[j.val] + 1
  let matched := above[j.val] + if c = b[j] then 0 else 1
  row.set (j.val + 1) (min (min deleted inserted) matched)

/-- Fills the row below, cell by cell from the left, after which the two rows change places. -/
def fillRow (a b : Array Char) (rows : Rows b.size) (i : Fin a.size) : Rows b.size where
  above := Fin.foldl b.size (fillCell a[i] b rows.above) (rows.spare.set 0 (i.val + 1))
  spare := rows.above

/-- The number in the last cell of the table of two words. -/
def tableDistance (a b : Array Char) : Nat :=
  let first : Rows b.size := { above := .ofFn (·.val), spare := .replicate _ 0 }
  (Fin.foldl a.size (fillRow a b) first).above.back

/-- The least number of single-character edits that turn `a` into `b`. -/
def distance (a b : String) : Nat :=
  tableDistance a.toList.toArray b.toList.toArray

/-- The better of a candidate found so far and the next one; the earlier wins a tie. -/
def nearer (wrong : String) (best : Option (String × Nat)) (candidate : String) :
    Option (String × Nat) :=
  let found := distance wrong candidate
  match best with
  | none => some (candidate, found)
  | some (_, least) => if found < least then some (candidate, found) else best

/-- The first of the candidates nearest to `wrong`, if it is nearer than `bound`. -/
def closest (candidates : List String) (wrong : String) (bound : Nat) : Option String :=
  match candidates.foldl (nearer wrong) none with
  | some (candidate, least) => if least < bound then some candidate else none
  | none => none

end ChatCommands.Suggestion
