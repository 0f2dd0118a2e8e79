import IcpHandler.Model.Text

/-
  JSON values, as the handler inspects and builds them.

  Main declarations:
    * `F64`
    * `Json`
    * `Json.get?`
    * `Json.asStr?`
    * `Json.asI64?`
    * `Json.asArray?`
-/

------------------------------------------------------------
-- JSON Values
------------------------------------------------------------

namespace IcpHandler

namespace Model

/- An `f64`, by its bits. -/
abbrev F64 := UInt64

/- `serde_json::Value` -/
inductive Json where
  | null
  | bool (value : Bool)
  | int (value : Int)
  | float (value : F64)
  | str (value : String)
  | arr (items : List Json)
  | obj (fields : List (String × Json))

namespace Json

/- `Value::get` at a key: only objects have any. -/
def get? (key : String) : Json → Option Json
  | .obj fields => fields.lookup key
  | _ => none

/- `Value::as_str` -/
def asStr? : Json → Option String
  | .str value => some value
  | _ => none

/- `Value::as_array` -/
def asArray? : Json → Option (List Json)
  | .arr items => some items
  | _ => none

/- `Value::as_i64` -/
def asI64? : Json → Option Int64
  | .int value =>
      if Int64.minValue.toInt ≤ value ∧
          value ≤ Int64.maxValue.toInt then
        some (Int64.ofInt value)
      else none
  | _ => none

/- `null` for a value that is not there. -/
def ofOption {α : Type} (render : α → Json) :
    Option α → Json
  | none => .null
  | some value => render value

/- A signed 64-bit number. -/
def ofI64 (value : Int64) : Json :=
  .int value.toInt

end Json

end Model

end IcpHandler
