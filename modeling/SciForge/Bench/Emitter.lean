import SciForge.Lib.Bytes

/-!
# The C++ case emitter

The comma-safe JSON writer of `bench.hpp` and the emission of a run. A `double` is a value of `D`.
-/

namespace SciForge.Bench

/-- What the writer asks of a `double`; `format` is `snprintf` with `%.6g`, which needs at most 13 characters. -/
structure Doubles (D : Type) where
  isnan : D → Bool
  isinf : D → Bool
  positive : D → Bool
  format : D → Bytes

variable {D : Type}

/-- The byte of an ASCII character. -/
def byte (c : Char) : UInt8 := UInt8.ofNat c.toNat

/-- The digit at `index` of `hex`. -/
def hexByte (index : UInt8) : UInt8 := (bytes "0123456789abcdef").getD index.toNat 0

/-- What `json_string` appends for one byte of the value. -/
def escapeByte (c : UInt8) : Bytes :=
  if c = byte '"' ∨ c = byte '\\' then [byte '\\', c]
  else if c = byte '\n' then bytes "\\n"
  else if c = byte '\t' then bytes "\\t"
  else if c = byte '\r' then bytes "\\r"
  else if c < 0x20 then bytes "\\u00" ++ [hexByte (c >>> 4), hexByte (c &&& 0x0F)]
  else [c]

def jsonString (value : Bytes) : Bytes := bytes "\"" ++ value.flatMap escapeByte ++ bytes "\""

def jsonNumber (double : Doubles D) (value : D) : Bytes :=
  if double.isnan value then bytes "NaN"
  else if double.isinf value then if double.positive value then bytes "Infinity" else bytes "-Infinity"
  else double.format value

/-- The items with a comma in front of each but the first. -/
def jsonJoin : List Bytes → Bytes
  | [] => []
  | item :: items => item ++ items.flatMap (fun item => bytes "," ++ item)

def jsonArray (double : Doubles D) (values : List D) : Bytes :=
  bytes "[" ++ jsonJoin (values.map (jsonNumber double)) ++ bytes "]"

/-- Each value of `fields` is already JSON. -/
def jsonObject (fields : List (Bytes × Bytes)) : Bytes :=
  bytes "\x7b" ++ jsonJoin (fields.map (fun field => jsonString field.1 ++ bytes ":" ++ field.2)) ++ bytes "\x7d"

def emitCase (double : Doubles D) (name unit : Bytes) (samples : List D) (domain : List (Bytes × Bytes))
    (resultJson : Bytes) : Bytes :=
  let fields := [(bytes "name", jsonString name), (bytes "unit", jsonString unit),
    (bytes "samples", jsonArray double samples)]
  let fields := if resultJson ≠ [] then fields ++ [(bytes "result", resultJson)] else fields
  jsonObject (fields ++ domain)

def emitRun (metaJson : Bytes) (cases : List Bytes) : Bytes :=
  jsonObject [(bytes "meta", metaJson), (bytes "cases", bytes "[" ++ jsonJoin cases ++ bytes "]")]

end SciForge.Bench
