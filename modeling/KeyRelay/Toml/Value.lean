/-! # TOML values

An integer is one of the signed 64-bit range. Numbers with a fraction and points
in time are recognised, but their values are not kept: no setting has one of
these types. A table keeps its entries in order. -/
set_option autoImplicit false

namespace KeyRelay.Toml

inductive Value
  | string (text : String)
  | integer (number : Int64)
  | float
  | boolean (value : Bool)
  | moment
  | array (elements : List Value)
  | table (entries : List (String × Value))

abbrev Table := List (String × Value)

def Table.value? (table : Table) (key : String) : Option Value :=
  List.lookup key table

end KeyRelay.Toml
