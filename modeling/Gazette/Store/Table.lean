/-!
# Tables

A table is a list of rows in the order of their insertion. Every row has a key, and no two rows of
a table have the same one. Writing a row whose key is taken changes the row in its place.
-/
namespace Gazette

class Keyed (α : Type) where
  key : α → String

abbrev Table (α : Type) := List α

namespace Table
variable {α : Type} [Keyed α]

/-- The row with a key. -/
def row? (key : String) (table : Table α) : Option α :=
  table.find? fun row => Keyed.key row == key

/-- Whether there is a row with a key. -/
def has (key : String) (table : Table α) : Bool :=
  table.any fun row => Keyed.key row == key

/-- Adds a row at the end. If its key is taken, the row that has it is merged with the new one
instead; `merge` is given the old row first. -/
def put (merge : α → α → α) (row : α) : Table α → Table α
  | [] => [row]
  | old :: rows =>
    if Keyed.key old == Keyed.key row then merge old row :: rows else old :: put merge row rows

def update (key : String) (f : α → α) (table : Table α) : Table α :=
  table.map fun row => if Keyed.key row == key then f row else row

def remove (key : String) (table : Table α) : Table α :=
  table.filter fun row => Keyed.key row != key

/-- Whether a row other than the one to be written holds the same value in a column. -/
def isTaken [BEq β] (column : α → β) (row : α) (table : Table α) : Bool :=
  table.any fun old => Keyed.key old != Keyed.key row && column old == column row

end Table
end Gazette
