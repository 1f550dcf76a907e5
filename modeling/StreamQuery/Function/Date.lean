import StreamQuery.Settings.Basic
import StreamQuery.Time.DatePattern
import StreamQuery.Value.DataType
namespace StreamQuery

/-! Writing instants by a pattern. -/

namespace Zones

def find (zones : Zones) (name : String) : Except QueryError Zone :=
  match zones.named? name with
  | some zone => .ok zone
  | none => .error (.cast name "timezone")

def chosen (zones : Zones) (settings : Settings) : Except QueryError Zone :=
  match settings.timezone with
  | some name => zones.find name
  | none => .ok zones.usual

/-- The zone that an operand names; a null one or none at all leaves it to the settings. -/
def ofOperand (zones : Zones) (fallback : Zone) : Option Value → Except QueryError Zone
  | none | some .null => .ok fallback
  | some name => zones.find name.toString

end Zones

namespace Value

def requireInstant (value : Value) : Except QueryError Int64 :=
  let instant? : Option Int64 :=
    match value with
    | .dateTime millis => some millis
    | .string text => Timestamp.ofString? text
    | value => value.asNumber?.bind Number.toInt64?
  match instant? with
  | some millis => .ok millis
  | none => .error (value.castError "date")

/-- Instants far from the present have no date. -/
def formatInstant (zone : Zone) (millis : Int64) (pattern : Value) : Except QueryError Value :=
  match DatePattern.format? zone millis.toInt pattern.toString with
  | some text => .ok (.string text)
  | none => .error (.cast (intText millis.toInt) "date")

def formatDate (zones : Zones) (fallback : Zone) (value pattern : Value) (zone : Option Value) :
    Except QueryError Value :=
  if value.isNull then .ok .null
  else do
    let zone ← zones.ofOperand fallback zone
    let millis ← value.requireInstant
    formatInstant zone millis pattern

def formatNow (zone : Zone) (now : Int64) : Option Value → Except QueryError Value
  | none | some .null => .ok (.dateTime now)
  | some pattern => formatInstant zone now pattern

end Value

end StreamQuery
