import EventPipeline.Toml.Value

/-! # How definitions fill a table

A key is given a value once. A key with dots leads through tables, which it makes where there are
none; of the tables that are there it leads through those that have no header of their own, and puts
the value only into one that keys with dots made. A header leads through tables of every kind that
is not written between braces, and through the last table of an array of tables.
-/

namespace EventPipeline.Toml

/-- Whether a key with dots may lead through a table; `ends` when it goes no further. -/
def Origin.opensToKey (origin : Origin) (ends : Bool) : Bool :=
  match origin with
  | .dotted => true
  | .implied => !ends
  | .inline | .declared => false

namespace Members

/-- The value of a key. -/
def get? (ms : Members) (key : String) : Option Value := ms.lookup key

/-- The members with another value for a key that they have. -/
def replace (ms : Members) (key : String) (v : Value) : Members :=
  ms.map fun m => if m.1 = key then (key, v) else m

/-- The members without a key. -/
def erase (ms : Members) (key : String) : Members := ms.filter fun m => m.1 ≠ key

/-- Changes the last table of an array of tables. -/
def inLast (change : Members → Option Members) (items : List Value) : Option (List Value) :=
  match items.getLast? with
  | some (.table origin inner) =>
    (change inner).map fun inner => items.dropLast ++ [.table origin inner]
  | _ => none

/-- Gives the value `v` to a key; the keys of `path` lead to it. -/
def assign (v : Value) (key : String) : (path : List String) → Members → Option Members
  | [], ms =>
    match get? ms key with
    | none => some (ms ++ [(key, v)])
    | some _ => none
  | step :: path, ms =>
    match get? ms step with
    | none =>
      (assign v key path []).map fun inner => ms ++ [(step, .table .dotted inner)]
    | some (.table origin inner) =>
      if origin.opensToKey path.isEmpty then
        (assign v key path inner).map fun inner => replace ms step (.table origin inner)
      else none
    | some (.array true items) =>
      if path.isEmpty then none
      else (inLast (assign v key path) items).map fun items => replace ms step (.array true items)
    | some _ => none

/-- Makes a change where a header leads. -/
def within (change : Members → Option Members) : (path : List String) → Members → Option Members
  | [], ms => change ms
  | step :: path, ms =>
    match get? ms step with
    | none =>
      (within change path []).map fun inner => ms ++ [(step, .table .implied inner)]
    | some (.table .inline _) => none
    | some (.table origin inner) =>
      (within change path inner).map fun inner => replace ms step (.table origin inner)
    | some (.array true items) =>
      (inLast (within change path) items).map fun items => replace ms step (.array true items)
    | some _ => none

/-- Makes the table of a header. A table that was only implied becomes the last member. -/
def declare (key : String) (ms : Members) : Option Members :=
  match get? ms key with
  | none => some (ms ++ [(key, .table .declared [])])
  | some (.table .implied inner) => some (erase ms key ++ [(key, .table .declared inner)])
  | some _ => none

/-- Adds a table to the array of tables of a header. -/
def extend (key : String) (ms : Members) : Option Members :=
  match get? ms key with
  | none => some (ms ++ [(key, .array true [.table .declared []])])
  | some (.array true items) => some (replace ms key (.array true (items ++ [.table .declared []])))
  | some _ => none

end Members

end EventPipeline.Toml
