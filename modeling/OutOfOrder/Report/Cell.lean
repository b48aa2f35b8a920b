import OutOfOrder.Text.Decimal
import OutOfOrder.Text.Quoted

/-!
# Cells

The cells of a report's table.  A cell holds a text, a number, a yes or no, or nothing.  It may also
hold several cells, in a row or under keys; these are shown within brackets, where a text stands
between quotes.
-/

namespace OutOfOrder

inductive Cell where
  | empty
  | flag (value : Bool)
  | number (value : Int)
  | decimal (value : Decimal)
  | text (value : String)
  | list (items : List Cell)
  | record (fields : List (String × Cell))
  deriving Repr, Inhabited

namespace Cell

mutual

/-- How a cell is shown within another one. -/
def quoted : Cell → String
  | .empty => "None"
  | .flag true => "True"
  | .flag false => "False"
  | .number value => toString value
  | .decimal value => value.text
  | .text value => Text.quote value
  | .list items => "[" ++ String.intercalate ", " (quotedItems items) ++ "]"
  | .record fields => "\x7b" ++ String.intercalate ", " (quotedFields fields) ++ "\x7d"

def quotedItems : List Cell → List String
  | [] => []
  | item :: rest => item.quoted :: quotedItems rest

def quotedFields : List (String × Cell) → List String
  | [] => []
  | (key, value) :: rest => (Text.quote key ++ ": " ++ value.quoted) :: quotedFields rest

end

/-- How a cell is shown. -/
def display : Cell → String
  | .empty => "-"
  | .flag true => "yes"
  | .flag false => "no"
  | .text value => value
  | cell => cell.quoted

/-- The cell counts as a yes: there is something in it other than a no, a zero or an empty text. -/
def isTrue : Cell → Bool
  | .empty => false
  | .flag value => value
  | .number value => value ≠ 0
  | .decimal value => value.mantissa ≠ 0
  | .text value => value ≠ ""
  | .list items => !items.isEmpty
  | .record fields => !fields.isEmpty

mutual

/-- The cell can be shown, as every integer in it has few enough digits. -/
def isWritable : Cell → Bool
  | .number value => Numeral.isWritable value
  | .list items => areWritable items
  | .record fields => fieldsAreWritable fields
  | _ => true

def areWritable : List Cell → Bool
  | [] => true
  | item :: rest => item.isWritable && areWritable rest

def fieldsAreWritable : List (String × Cell) → Bool
  | [] => true
  | (_, value) :: rest => value.isWritable && fieldsAreWritable rest

end

def ofNumber? : Option Int → Cell
  | some value => .number value
  | none => .empty

def ofText? : Option String → Cell
  | some value => .text value
  | none => .empty

end Cell

/-- A row of a report's table: cells under the names of columns. -/
abbrev Row := List (String × Cell)

/-- The cells of the row that the given columns show can be shown. -/
def Row.isWritable (columns : List String) (row : Row) : Bool :=
  columns.all fun column => (row.lookup column).all Cell.isWritable

end OutOfOrder
