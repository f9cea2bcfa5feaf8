import Mathlib.Data.List.Basic
import RealmDirectory.Query.Filter
import RealmDirectory.Query.Statement
import RealmDirectory.Sql.Evaluation

/-!
# Reading where clauses

The filters of searches are texts, and what a text selects is decided by the database that
reads it. This module is such a reader. It cuts a clause into conditions and the words
between them, gives each `?` the next of the bound values, from left to right, and groups
the conditions so that AND binds tighter than OR. A clause that is read selects a row when
its outcome is true; NULL makes a comparison neither true nor false.

What a column's name is made of means nothing to the reader: the name runs from `UPPER(` to
the comparison in front of the next `?`.

A clause can also begin with a condition of another kind, which the reader takes as a whole:
a *guard* that an administrator wrote in front of the filter.

## Main definitions

* `Clause`, `Clause.outcome`: conditions as alternatives, and what they come to.
* `Clause.read?`, `Clause.readGuarded?`: the clause that a text is.
* `Selects`, `SelectsGuarded`: whether a text with bound values selects a row.
* `SelectsBehind`: whether it does so by an alternative behind its first OR.
-/

namespace RealmDirectory

/-! ### Conditions on a row -/

/-- What a database does with texts. -/
structure TextRules where
  /-- The upper-case form of a text. -/
  upper : List Char → List Char
  /-- Which characters `LIKE` takes for one. -/
  same : Char → Char → Bool

/-- The values of a row by column; `none` is NULL. -/
abbrev Cells := String → Option String

/-- A condition that holds neither AND nor OR. -/
inductive Atom where
  /-- A comparison of numbers, of which the outcome is known. -/
  | constant (outcome : Bool)
  /-- The upper-cased column is a value. -/
  | equals (column value : String)
  /-- The upper-cased column is like a pattern, in which `!` escapes. -/
  | like (column pattern : String)
  deriving DecidableEq, Repr

/-- What a condition comes to on a row; NULL makes a comparison unknown. -/
def Atom.outcome (rules : TextRules) (cells : Cells) : Atom → Option Bool
  | constant b => some b
  | equals column value =>
      (cells column).map fun t => rules.upper t.toList == value.toList
  | like column pattern =>
      (cells column).map fun t =>
        Sql.Pattern.likes rules.same (some '!') pattern.toList (rules.upper t.toList)

/-- Conditions that are joined by AND and OR. AND binds tighter, so a clause is a list of
alternatives, each of them a list of conditions. -/
structure Clause (α : Type) where
  /-- The conditions before the first OR. -/
  first : List α
  /-- The conditions behind each OR. -/
  others : List (List α)
  deriving DecidableEq, Repr

namespace Clause

variable {α : Type}

/-- The clause of one condition. -/
def single (a : α) : Clause α := ⟨[a], []⟩

/-- A condition joined to a clause behind it. -/
def join (a : α) : Combination → Clause α → Clause α
  | .all, c => ⟨a :: c.first, c.others⟩
  | .any, c => ⟨[a], c.first :: c.others⟩

/-- The clause of several conditions with one word between them. -/
def chain (word : Combination) (a : α) : List α → Clause α
  | [] => single a
  | b :: r => join a word (chain word b r)

/-- What the conditions of an alternative come to together. -/
def allHold (outcome : α → Option Bool) (l : List α) : Option Bool :=
  l.foldr (fun a r => Sql.bothHold (outcome a) r) (some true)

/-- What a clause comes to. -/
def outcome (f : α → Option Bool) (c : Clause α) : Option Bool :=
  Sql.oneHolds (allHold f c.first)
    (c.others.foldr (fun l r => Sql.oneHolds (allHold f l) r) (some false))

/-! ### The reader -/

/-- The text behind a keyword, of which the letters have either case and which a blank
ends. -/
def readKeyword? (word s : List Char) : Option (List Char) :=
  match Statement.dropWord? word s with
  | some (c :: r) => if Text.isBlank c then some r else none
  | _ => none

/-- The word between two conditions, and the text behind it. -/
def readWord? (s : List Char) : Option (Combination × List Char) :=
  match readKeyword? ['a', 'n', 'd'] s with
  | some r => some (.all, r)
  | none => (readKeyword? ['o', 'r'] s).map fun r => (.any, r)

/-- A comparison of a column with the value of the next mark. The values that are left and
the text behind the comparison are returned with it. -/
def readComparison? (values : List String) (s : List Char) :
    Option (Atom × List String × List Char) := do
  let operand ← s.dropPrefix? "UPPER(".toList
  let value ← values.head?
  let column := operand.takeWhile (· != '?')
  let behind ← (operand.dropWhile (· != '?')).dropPrefix? ['?']
  match column.dropSuffix? ") = ".toList with
  | some column => some (.equals (String.ofList column) value, values.tail, behind)
  | none => do
      let column ← column.dropSuffix? ") LIKE ".toList
      let behind ← behind.dropPrefix? " ESCAPE '!'".toList
      some (.like (String.ofList column) value, values.tail, behind)

/-- The condition at the start of a text. -/
def readAtom? (values : List String) : List Char → Option (Atom × List String × List Char)
  | '1' :: '=' :: '1' :: r => some (.constant true, values, r)
  | '1' :: '=' :: '0' :: r => some (.constant false, values, r)
  | s => readComparison? values s

/-- The clause that a text is, when it has no more than `budget` conditions, and the values
that are left. -/
def readUpTo : Nat → List String → List Char → Option (Clause Atom × List String)
  | 0, _, _ => none
  | budget + 1, values, s => do
      let (a, values, s) ← readAtom? values (Text.dropBlanks s)
      match Text.dropBlanks s with
      | [] => some (single a, values)
      | s => do
          let (word, s) ← readWord? s
          let (c, values) ← readUpTo budget values s
          some (join a word c, values)

/-- The clause that a text is when the values are bound to its marks. There has to be a
value for each mark and a mark for each value. -/
def read? (values : List String) (s : List Char) : Option (Clause Atom) :=
  match readUpTo s.length values s with
  | some (c, []) => some c
  | _ => none

/-- The clause that a text is behind a guard, which is taken as a whole and has no marks.
The guard is the condition `none`. -/
def readGuarded? (guard : List Char) (values : List String) (s : List Char) :
    Option (Clause (Option Atom)) := do
  let s ← s.dropPrefix? guard
  let (word, s) ← readWord? (Text.dropBlanks s)
  let c ← read? values s
  some (join none word ⟨c.first.map some, c.others.map (List.map some)⟩)

end Clause

/-- A text with bound values selects a row. -/
def Selects (rules : TextRules) (cells : Cells) (text : String) (values : List String) :
    Prop :=
  ∃ c, Clause.read? values text.toList = some c ∧ c.outcome (Atom.outcome rules cells) = some true

/-- A text that is read as a clause selects the rows on which the clause is true. -/
theorem selects_iff_of_read? {rules : TextRules} {cells : Cells} {text : String}
    {values : List String} {c : Clause Atom} (h : Clause.read? values text.toList = some c) :
    Selects rules cells text values ↔ c.outcome (Atom.outcome rules cells) = some true := by
  constructor
  · rintro ⟨d, hd, htrue⟩
    rwa [← Option.some.inj (h.symm.trans hd)] at htrue
  · intro htrue
    exact ⟨c, h, htrue⟩

/-- A text that begins with a guard selects a row on which the guard holds or fails. -/
def SelectsGuarded (rules : TextRules) (cells : Cells) (guard : String) (holds : Bool)
    (text : String) (values : List String) : Prop :=
  ∃ c, Clause.readGuarded? guard.toList values text.toList = some c ∧
    c.outcome (fun a => a.elim (some holds) (Atom.outcome rules cells)) = some true

/-- An alternative behind the first OR of a text is true on a row. -/
def SelectsBehind (rules : TextRules) (cells : Cells) (text : String) (values : List String) :
    Prop :=
  ∃ c, Clause.read? values text.toList = some c ∧
    ∃ l ∈ c.others, ∀ a ∈ l, Atom.outcome rules cells a = some true

namespace Clause

variable {α : Type}

/-! ### What clauses come to -/

theorem bothHold_eq_true_iff {a b : Option Bool} :
    Sql.bothHold a b = some true ↔ a = some true ∧ b = some true := by
  rcases a with _ | _ | _ <;> rcases b with _ | _ | _ <;> simp [Sql.bothHold]

theorem oneHolds_eq_true_iff {a b : Option Bool} :
    Sql.oneHolds a b = some true ↔ a = some true ∨ b = some true := by
  rcases a with _ | _ | _ <;> rcases b with _ | _ | _ <;> simp [Sql.oneHolds]

/-- An alternative is true when all its conditions are. -/
theorem allHold_eq_true_iff {f : α → Option Bool} {l : List α} :
    allHold f l = some true ↔ ∀ a ∈ l, f a = some true := by
  induction l with
  | nil => simp [allHold]
  | cons a l ih =>
      have hcons : allHold f (a :: l) = Sql.bothHold (f a) (allHold f l) := rfl
      rw [hcons, bothHold_eq_true_iff, ih, List.forall_mem_cons]

/-- **A clause is true when one of its alternatives is.** -/
theorem outcome_eq_true_iff {f : α → Option Bool} {c : Clause α} :
    c.outcome f = some true ↔
      (∀ a ∈ c.first, f a = some true) ∨ ∃ l ∈ c.others, ∀ a ∈ l, f a = some true := by
  have hothers (ls : List (List α)) :
      ls.foldr (fun l r => Sql.oneHolds (allHold f l) r) (some false) = some true ↔
        ∃ l ∈ ls, ∀ a ∈ l, f a = some true := by
    induction ls with
    | nil => simp
    | cons l ls ih =>
        rw [List.foldr_cons, oneHolds_eq_true_iff, ih, allHold_eq_true_iff]
        simp only [List.mem_cons, exists_eq_or_imp]
  rw [outcome, oneHolds_eq_true_iff, allHold_eq_true_iff, hothers]

/-- Conditions joined by AND are one alternative. -/
theorem chain_all (a : α) (l : List α) : chain .all a l = ⟨a :: l, []⟩ := by
  induction l generalizing a with
  | nil => rfl
  | cons b l ih => rw [chain, ih, join]

/-- Conditions joined by OR are alternatives of one condition each. -/
theorem chain_any (a : α) (l : List α) : chain .any a l = ⟨[a], l.map ([·])⟩ := by
  induction l generalizing a with
  | nil => rfl
  | cons b l ih => rw [chain, ih, join, List.map_cons]

end Clause

end RealmDirectory
