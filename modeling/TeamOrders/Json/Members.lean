import TeamOrders.Json.Value
import TeamOrders.Number.Unsigned

/-!
# Reading records

A record may be written as an object, whose unknown members are passed over and whose known ones may
stand only once, or as an array of its fields in their order. Three kinds of fields can be left out:
those with a default, those whose absence means that there is no value, and, in an array, those at
the end that have a default. A field that may be without a value also takes `null`; one that merely
has a default does not.

A value inside a tagged one is read with slightly more freedom than others. `tagged` says where that
matters.
-/

namespace TeamOrders.Json

/-- The fields of a record that were given. -/
structure Fields where
  given : List (String × Json)
  positional : Bool

/-- The fields of a record with these names. -/
def fields? (names : List String) : Json → Option Fields
  | .object members =>
    let known := members.filter fun m => names.contains m.1
    if (known.map Prod.fst).Nodup then some ⟨known, false⟩ else none
  | .array items =>
    if items.length ≤ names.length then some ⟨names.zip items, true⟩ else none
  | _ => none

namespace Fields

def find? (fields : Fields) (name : String) : Option Json :=
  (fields.given.find? fun m => m.1 == name).map Prod.snd

variable {α : Type}

def required (fields : Fields) (name : String) (read : Json → Option α) : Option α :=
  match fields.find? name with
  | some value => read value
  | none => none

/-- A field with a default. -/
def defaulted (fields : Fields) (name : String) (default : α) (read : Json → Option α) :
    Option α :=
  match fields.find? name with
  | some value => read value
  | none => some default

/-- A value that may be `null`. -/
def nullable (read : Json → Option α) : Json → Option (Option α)
  | .null => some none
  | value => (read value).map some

/-- A field that may be without a value. -/
def optional (fields : Fields) (name : String) (read : Json → Option α) : Option (Option α) :=
  fields.defaulted name none (nullable read)

/-- A field that may be without a value, and may be left out of an object only. -/
def optionalMember (fields : Fields) (name : String) (read : Json → Option α) :
    Option (Option α) :=
  if fields.positional then fields.required name (nullable read) else fields.optional name read

end Fields

def text? : Json → Option String
  | .string s => some s
  | _ => none

def bool? : Json → Option Bool
  | .bool b => some b
  | _ => none

/-- A whole number from zero up to a limit. -/
def natBelow? (limit : Nat) : Json → Option Nat
  | .int n => if 0 ≤ n && n < limit then some n.toNat else none
  | _ => none

/-- A double; a whole number is taken for the double nearest to it. -/
def double? : Json → Option Double
  | .double x => some x
  | .int n => some (.ofInt n)
  | _ => none

def list? {α : Type} (read : Json → Option α) : Json → Option (List α)
  | .array items => items.mapM read
  | _ => none

def texts? : Json → Option (List String) := list? text?

def nameSet? (value : Json) : Option NameSet := (texts? value).map NameSet.ofList

/-- A table, of which a later member of a name replaces an earlier one. -/
def table? {α : Type} (read : Json → Option α) : Json → Option (Table α)
  | .object members => do
    let entries ← members.mapM fun (name, value) => (read value).map (name, ·)
    some (Table.ofList entries)
  | _ => none

/-- A table of values that are kept as they are. -/
def opaqueTable? (value : Json) : Option (Table Json) := table? (fun v => some v.sorted) value

/-- One of a list of named values, written as its name or as an object with the name as its only
member, holding nothing. -/
def named? {α : Type} (tagged : Bool) (all : List α) (name : α → String) : Json → Option α
  | .string s => all.find? fun x => name x == s
  | .object [(s, inner)] =>
    if inner = .null || (tagged && inner = .object []) then all.find? fun x => name x == s else none
  | _ => none

def ofNameSet (set : NameSet) : Json := strings set.names

def ofTable {α : Type} (write : α → Json) (table : Table α) : Json :=
  .object (table.entries.map fun entry => (entry.1, write entry.2))

mutual

/-- How deep collections are nested in a value. -/
def depth : Json → Nat
  | .array items => depthOfItems items + 1
  | .object members => depthOfMembers members + 1
  | _ => 0

def depthOfItems : List Json → Nat
  | [] => 0
  | item :: rest => max item.depth (depthOfItems rest)

def depthOfMembers : List (String × Json) → Nat
  | [] => 0
  | (_, value) :: rest => max value.depth (depthOfMembers rest)

end

end TeamOrders.Json
