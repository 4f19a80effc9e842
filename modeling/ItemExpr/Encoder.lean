import ItemExpr.AttributeValue.Wire
import ItemExpr.Entity
import ItemExpr.Value

/-!
# Encoders

Encryption and the encoding of locations are not this library's work: a caller supplies them as functions, which may
fail with a text.
-/

namespace ItemExpr

/-- Turns the plain bytes of a value into secret ones, for an attribute of a table. -/
abbrev Encryptor := (tableName attributeName : String) → (plaintext : Bytes) → Except String Bytes

abbrev GeoEncoder := Location → GeoEncoding → Except String AttributeValue

/-- The plain bytes of a stored value: those of a text or a number, those of a byte string as they are, and the wire
form of every other value. The entries of a map have no order, so its wire form may show them in any; here it shows them
as they stand in the value, and a map that was rendered has them in the order of their keys. -/
def AttributeValue.plaintext : AttributeValue → Bytes
  | .string text | .number text => Bytes.ofText text
  | .binary bytes => bytes
  | value => Bytes.ofText value.toJson.print

end ItemExpr
