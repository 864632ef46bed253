/-!
# TOML values and tables

The tables of a TOML document are put together from headers, keys with dots and inline tables. A
table is defined in one way and in one place only, but it may exist before, because the path of
another one goes through it.
-/
namespace Gazette

/-- How a table came to be. -/
structure Toml.TableKind where
  /-- The table exists because a path goes through it. -/
  implicit : Bool := false
  /-- The path is a key with dots. -/
  dotted : Bool := false
deriving DecidableEq, Repr, Inhabited

/-- A TOML value. Of floats, dates and times nothing is kept. -/
inductive Toml
  | text (s : String)
  | integer (n : Int)
  | boolean (b : Bool)
  | float
  | date
  | array (items : List Toml)
  | table (isInline : Bool) (kind : Toml.TableKind) (entries : List (String × Toml))
  /-- The tables under a header in double brackets. -/
  | tables (items : List Toml)
deriving Repr, Inhabited

namespace Toml

abbrev Entries := List (String × Toml)

/-- Puts a value under a key, in the place of the value that was there. -/
def replace (key : String) (value : Toml) : Entries → Entries
  | [] => [(key, value)]
  | (k, v) :: entries =>
    if k = key then (key, value) :: entries else (k, v) :: replace key value entries

/-- Changes the table at the end of a path. Tables that are missing on the way are added; a path
goes through the last of several tables under one header. A key with dots goes through no table
that was defined otherwise. -/
def alter (isInline dotted : Bool) (change : TableKind → Entries → Option Entries) :
    (path : List String) → TableKind → Entries → Option Entries
  | [], kind, entries => change kind entries
  | key :: path, _, entries =>
    match entries.lookup key with
    | none => do
      let kind : TableKind := { implicit := true, dotted := dotted }
      let child ← alter isInline dotted change path kind []
      some (entries ++ [(key, table isInline kind child)])
    | some (table childInline kind child) =>
      if childInline ≠ isInline ∨ (dotted ∧ ¬kind.implicit) then none
      else do
        let child ← alter isInline dotted change path kind child
        some (replace key (table isInline kind child) entries)
    | some (tables items) =>
      match items.reverse with
      | table childInline kind child :: before => do
        let child ← alter isInline dotted change path kind child
        some (replace key (tables (table childInline kind child :: before).reverse) entries)
      | _ => none
    | some _ => none

/-- Defines a key, which may have dots: `path` is what stands before the last one. -/
def define (isInline : Bool) (path : List String) (key : String) (value : Toml)
    (kind : TableKind) (entries : Entries) : Option Entries :=
  alter isInline true
    (fun kind entries =>
      if kind.dotted = path.isEmpty ∨ (entries.lookup key).isSome then none
      else some (entries ++ [(key, value)]))
    path kind entries

/-- Defines the table under a header. -/
def openTable (key : String) (entries : Entries) : Option Entries :=
  match entries.lookup key with
  | none => some (entries ++ [(key, table false {} [])])
  | some (table false kind child) =>
    if kind.implicit ∧ ¬kind.dotted then some (replace key (table false {} child) entries) else none
  | some _ => none

/-- Adds a table under a header in double brackets. -/
def addTable (key : String) (entries : Entries) : Option Entries :=
  match entries.lookup key with
  | none => some (entries ++ [(key, tables [table false {} []])])
  | some (tables items) => some (replace key (tables (items ++ [table false {} []])) entries)
  | some _ => none

/-- A statement of a document. The last part of a path stands apart. -/
inductive Statement
  | define (path : List String) (key : String) (value : Toml)
  | openTable (path : List String) (key : String)
  | addTable (path : List String) (key : String)
deriving Repr

/-- The tables that the statements make, from those that there are already. `place` is the path of
the table under the latest header. -/
def build : (place : List String) → Entries → List Statement → Option Entries
  | _, entries, [] => some entries
  | place, entries, .define path key value :: rest => do
    let entries ← alter false false (Toml.define false path key value) place {} entries
    build place entries rest
  | _, entries, .openTable path key :: rest => do
    let entries ← alter false false (fun _ => Toml.openTable key) path {} entries
    build (path ++ [key]) entries rest
  | _, entries, .addTable path key :: rest => do
    let entries ← alter false false (fun _ => Toml.addTable key) path {} entries
    build (path ++ [key]) entries rest

end Toml
end Gazette
