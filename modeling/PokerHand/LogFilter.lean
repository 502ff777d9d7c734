import PokerHand.LogFilter.Directive

/-!
# Log filters

A filter is a list of directives, parted by commas. One that holds anything else is replaced by the
default. In its written form the directives that need no span come before those that do, each kind
with the most specific ones first; a directive that only names a field belongs to both kinds.
-/
namespace PokerHand.LogFilter

/-- What is used when no filter is set or a filter cannot be read. -/
def preset : String := "warn"

/-- Reads the directives of a filter. -/
def directives? (s : String) : Option (List Directive) :=
  (Text.runs (fun c => c == ',') s.toList).mapM Directive.ofText?

/-- Directives in the order in which they are looked up, the last of equals being kept. -/
def arrange (ds : List Directive) : List Directive :=
  ds.foldl (fun es d => d.insert es) []

/-- The directives in their written order. -/
def written (ds : List Directive) : List Directive :=
  let dynamic := ds.filter Directive.isDynamic
  let plain := ds.filter fun d => !d.isDynamic
  arrange (plain ++ dynamic.filterMap Directive.static?) ++ arrange dynamic

/-- The filter that a setting gives, in its written form. -/
def ofSetting (setting : Option String) : String :=
  match setting.map directives? with
  | some (some ds) => ",".intercalate ((written ds).map Directive.text)
  | _ => preset

end PokerHand.LogFilter
