import EntityStore.Number.Decimal
import EntityStore.Text.Quoted
import EntityStore.Value.Bounds

/-!
# Descriptions of values

The one-line text of a value in the descriptions of properties and bounds.
-/

namespace EntityStore

/-- The description of a word. -/
def WordType.describe : (w : WordType) → BitVec w.bits → String
  | signed _, x => toString x.toInt
  | unsigned _, x => toString x.toNat
  | binary32, x => BinaryFormat.binary32.text x.toNat
  | binary64, x => BinaryFormat.binary64.text x.toNat

variable [CustomTypes]

/-- The description of a value. -/
def ValueType.describe : (t : ValueType) → t.Carrier → String
  | word type, x => type.describe x
  | bool, true => "true"
  | bool, false => "false"
  | text, x => Text.quoted x
  | list element, x => Text.listed (List.map element.describe x)
  | custom key, x => (CustomTypes.type key).describe x

/-- The description of bounds. -/
def Bounds.describe {t : ValueType} (bounds : Bounds t.Carrier) : String :=
  Text.described "ValueRange" [("min", t.describe bounds.min), ("max", t.describe bounds.max)] false

end EntityStore
