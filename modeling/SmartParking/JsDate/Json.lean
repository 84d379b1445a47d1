import SmartParking.JsDate
import SmartParking.Json

namespace JsDate

-- What JSON.stringify writes for a Date. There is no text of a date that is out of range.
def toJSON (ms : ℤ) : Json :=
  match ofMs ms with
  | some time => .string (toISOString time)
  | none => .null

end JsDate
