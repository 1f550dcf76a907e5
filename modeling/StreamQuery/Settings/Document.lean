import StreamQuery.Settings.Basic
import StreamQuery.Settings.Json
namespace StreamQuery

/-! Settings as a document: an object with a field for each setting, or a list of them in the order
error policy, group limit, default source, timezone. What is left out keeps its default, fields of
other names are passed over, and no setting may be given twice. -/

namespace Settings

def policy? : Json → Option ErrorPolicy
  | .string (some "fail") => some .fail
  | .string (some "skip") => some .skip
  | .object [(some "fail", .null)] => some .fail
  | .object [(some "skip", .null)] => some .skip
  | _ => none

def groupLimit? : Json → Option (Option Nat)
  | .null => some none
  | .number (some limit) => if limit < UInt64.size then some (some limit) else none
  | _ => none

def source? : Json → Option String
  | .string text => text
  | _ => none

def zoneName? : Json → Option (Option String)
  | .null => some none
  | .string (some name) => some (some name)
  | _ => none

def fieldNames : List String :=
  ["error_policy", "max_groups", "default_source", "timezone"]

def set? (settings : Settings) (name : String) (value : Json) : Option Settings :=
  match name with
  | "error_policy" => (policy? value).map fun policy => { settings with errorPolicy := policy }
  | "max_groups" => (groupLimit? value).map fun limit => { settings with maxGroups := limit }
  | "default_source" => (source? value).map fun name => { settings with defaultSource := name }
  | "timezone" => (zoneName? value).map fun name => { settings with timezone := name }
  | _ => some settings

def ofFields? : List String → List (Option String × Json) → Settings → Option Settings
  | _, [], settings => some settings
  | _, (none, _) :: _, _ => none
  | given, (some name, value) :: rest, settings =>
      if given.contains name then none
      else
        (settings.set? name value).bind
          (ofFields? (if fieldNames.contains name then name :: given else given) rest)

def ofItems? : List String → List Json → Settings → Option Settings
  | _, [], settings => some settings
  | [], _ :: _, _ => none
  | name :: names, value :: rest, settings =>
      (settings.set? name value).bind (ofItems? names rest)

def ofJson? : Json → Option Settings
  | .object fields => ofFields? [] fields default
  | .list items => ofItems? fieldNames items default
  | _ => none

def ofString? (text : String) : Option Settings :=
  (Json.ofString? text).bind ofJson?

end Settings

end StreamQuery
