import RealmDirectory.Query.Dialect

/-!
# Pages

A page is asked for by its index, counted from zero, and its size. The statement that
selects it loses its terminator and gains the dialect's page clause. The number of rows
before a page is cut at the largest number of 64 bits, which no result reaches.
-/

namespace RealmDirectory

/-- A request for one page of rows. -/
structure Page where
  /-- The pages before this one. -/
  index : UInt64
  /-- The rows on a page. -/
  size : UInt64
  deriving DecidableEq, Repr

namespace Page

/-- The rows before the page. -/
def offset (p : Page) : Nat := min (p.index.toNat * p.size.toNat) Text.maxWord64

/-- The statement without blanks and terminators at its end: blanks, then semicolons,
then blanks. -/
def body (statement : String) : String :=
  String.ofList
    (Text.dropEndBlanks (Text.dropEndWhile (· == ';') (Text.dropEndBlanks statement.toList)))

/-- The statement for a page, or the statement itself when no page is asked for. -/
def paginate (d : Dialect) (page : Option Page) (statement : String) : String :=
  match page with
  | none => statement
  | some p => d.paginate (body statement) p.offset p.size.toNat

end Page

end RealmDirectory
