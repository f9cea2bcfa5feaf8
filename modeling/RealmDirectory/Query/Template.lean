import RealmDirectory.Query.Columns

/-!
# Statement templates

A template is a statement with placeholders: `{name}` stands for a value that is filled
in, and `{{name}}` for the literal text `{name}`. Escapes are set aside under a mark that
statements do not use, the placeholders are filled, and then the escapes come back
without their outer braces.

## Main definitions

* `Template.fill`: the template with one placeholder filled.
* `Template.mentions`: whether a placeholder occurs outside escapes.
* `Template.withColumns`: the template with its select list filled.
-/

namespace RealmDirectory.Template

/-- The placeholder for select lists. -/
def columns : String := "columns"

/-- The placeholder for search filters. -/
def filters : String := "filters"

/-- The text of a placeholder. -/
def placeholder (name : List Char) : List Char := '{' :: (name ++ ['}'])

/-- The text of an escaped placeholder. -/
def escaped (name : List Char) : List Char := '{' :: '{' :: (name ++ ['}', '}'])

/-- The mark under which escapes are set aside. -/
def aside (name : List Char) : List Char := '\x01' :: (name ++ ['\x01'])

/-- Fills the placeholder `name` with `value`, and turns each escape of it into the
placeholder's text. -/
def fillChars (template name value : List Char) : List Char :=
  Text.replace (aside name) (placeholder name)
    (Text.replace (placeholder name) value
      (Text.replace (escaped name) (aside name) template))

/-- Whether the placeholder `name` occurs outside escapes. -/
def mentionsChars (template name : List Char) : Bool :=
  Text.occursIn (placeholder name) (Text.replace (escaped name) [] template)

/-- Fills the placeholder `name` with `value`, and turns each escape of it into the
placeholder's text. -/
def fill (template name value : String) : String :=
  String.ofList (fillChars template.toList name.toList value.toList)

/-- Whether the placeholder `name` occurs outside escapes. -/
def mentions (template name : String) : Bool :=
  mentionsChars template.toList name.toList

/-- The select list of a statement: the listed columns, or all mapped ones under their
attributes' names when none is listed. -/
def selectList (mapping : ColumnMapping) (listed : List String) : String :=
  if listed.isEmpty then mapping.selectList else Text.join ", " listed

/-- The template with its select list filled. -/
def withColumns (template : String) (mapping : ColumnMapping) (listed : List String) :
    String :=
  fill template columns (selectList mapping listed)

end RealmDirectory.Template
