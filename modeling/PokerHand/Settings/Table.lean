/-!
# Tables of a settings file

A table holds named nodes. It may be written out as a value, grow from dotted keys, or be opened by
a header. No table is defined twice: a name gets one value, a header opens its table once, and only
the dotted keys of one block add to a table that a dotted key has made.
-/
namespace PokerHand.SettingsFile

/-- How a table came to be. -/
inductive Origin where
  /-- It is written out as a value, and complete. -/
  | value
  /-- A dotted key leads through it. -/
  | dotted
  /-- The header of a table inside it leads through it. -/
  | implied
  /-- It has a header of its own. -/
  | opened
  deriving DecidableEq

inductive Node where
  | text (s : String)
  | integer (n : Int)
  /-- A list without items. -/
  | emptyList
  | table (origin : Origin) (entries : List (String × Node))

/-- The nodes of a table by their names. -/
abbrev Entries := List (String × Node)

namespace Entries

/-- Puts a node in the place of the one of that name. -/
def replace (name : String) (node : Node) (es : Entries) : Entries :=
  es.map fun e => if e.1 == name then (name, node) else e

/-- Gives a value to a dotted key; its last name must be new. -/
def assign (node : Node) : List String → Entries → Option Entries
  | [], _ => none
  | [name], es => if (es.lookup name).isSome then none else some (es ++ [(name, node)])
  | name :: path, es =>
      match es.lookup name with
      | none => (assign node path []).map fun inner => es ++ [(name, .table .dotted inner)]
      | some (.table .dotted inner) =>
          (assign node path inner).map fun inner => replace name (.table .dotted inner) es
      | some _ => none

/-- Opens the table of a header, which was not opened or made in another way before. -/
def openTable : List String → Entries → Option Entries
  | [], _ => none
  | [name], es =>
      match es.lookup name with
      | none => some (es ++ [(name, .table .opened [])])
      | some (.table .implied inner) => some (replace name (.table .opened inner) es)
      | some _ => none
  | name :: path, es =>
      match es.lookup name with
      | none => (openTable path []).map fun inner => es ++ [(name, .table .implied inner)]
      | some (.table .value _) => none
      | some (.table origin inner) =>
          (openTable path inner).map fun inner => replace name (.table origin inner) es
      | some _ => none

/-- Changes the table at a path. -/
def within (change : Entries → Option Entries) : List String → Entries → Option Entries
  | [], es => change es
  | name :: path, es =>
      match es.lookup name with
      | some (.table origin inner) =>
          (within change path inner).map fun inner => replace name (.table origin inner) es
      | _ => none

end Entries

end PokerHand.SettingsFile
