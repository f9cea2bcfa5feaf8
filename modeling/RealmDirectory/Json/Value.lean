/-!
# JSON values

Requests, answers and configurations can be written in JSON. Numbers are kept apart by
whether they are whole, since only whole numbers have a meaning here.
-/

namespace RealmDirectory

/-- A JSON value. -/
inductive JsonValue where
  | null
  | bool (value : Bool)
  /-- A whole number. -/
  | whole (value : Int)
  /-- A number with a fraction or an exponent. -/
  | fraction
  | text (value : String)
  | array (items : List JsonValue)
  /-- An object, with its members in order. -/
  | object (members : List (String × JsonValue))

instance : Inhabited JsonValue := ⟨.null⟩

end RealmDirectory
