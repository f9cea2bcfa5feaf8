import RealmDirectory.KeyedList

/-!
# Rows

A row is what a statement selects for one user: a value or NULL for each column, under
the column's label and in the order of the statement. Labels may repeat. The record of a
user keeps the columns that are not NULL, each label once.
-/

namespace RealmDirectory

/-- The labels of a user's columns and their values. -/
abbrev UserRecord := KeyedList String String

/-- The labels and values of a row; `none` is NULL. -/
structure Row where
  cells : List (String × Option String)
  deriving DecidableEq, Repr

namespace Row

/-- The number of columns. -/
def size (r : Row) : Nat := r.cells.length

/-- Whether the row has no column. -/
def isEmpty (r : Row) : Bool := r.cells.isEmpty

/-- The value of the first column. -/
def first (r : Row) : Option String := r.cells.head?.bind Prod.snd

/-- The value of the first column with a label. -/
def get? (r : Row) (label : String) : Option String :=
  (r.cells.find? fun c => c.1 = label).bind Prod.snd

/-- The columns that are not NULL. A label that repeats has its last value. -/
def record (r : Row) : UserRecord :=
  KeyedList.ofList (r.cells.filterMap fun c => c.2.map fun value => (c.1, value))

end Row

end RealmDirectory
