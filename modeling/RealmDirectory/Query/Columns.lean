import RealmDirectory.KeyedList
import RealmDirectory.Text.Blank
import RealmDirectory.Text.Piece

/-!
# Column mappings

A directory names the attributes of its users; the database names columns. A mapping is
read from entries of the form `attribute=column`, in which the column may be any
expression of the database. Entries that name no attribute or no column do not count.

## Main definitions

* `ColumnMapping.parse`: the mapping of a list of entries.
* `ColumnMapping.selectList`: the mapped columns, each under its attribute's name.
-/

namespace RealmDirectory

/-- Attributes of the directory and the columns that hold them. -/
abbrev ColumnMapping := KeyedList String String

namespace ColumnMapping

/-- The attribute and the column of an entry: the texts around its first equals sign,
trimmed, when neither is blank. -/
def parseEntry (entry : String) : Option (String × String) := do
  let (before, behind) ← Text.cut '=' entry.toList
  let name := Text.strip before
  let column := Text.strip behind
  if name.isEmpty || column.isEmpty then none
  else some (String.ofList name, String.ofList column)

/-- The mapping of a list of entries: a repeated attribute keeps its first place and
takes its last column. -/
def parse (entries : List String) : ColumnMapping :=
  KeyedList.ofList (entries.filterMap parseEntry)

/-- The column of an attribute. -/
def column (m : ColumnMapping) (name : String) : Option String := m.get? name

/-- Every mapped column under its attribute's name. -/
def selectList (m : ColumnMapping) : String :=
  Text.join ", " (m.entries.map fun e => e.2 ++ " AS " ++ e.1)

end ColumnMapping

end RealmDirectory
