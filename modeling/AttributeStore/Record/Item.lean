import AttributeStore.Record
import AttributeStore.Value.Codec

/-!
# Records as values

A record as the dynamic value, or the item, that the attributes it serialises to stand for.
-/

namespace AttributeStore.Record

def toValue (record : Record) : Except CodecError Value := do
  return Attribute.decode (← record.toAttribute.mapError CodecError.conversion)

/-- The item that a record becomes; it has to serialise to a map. -/
def toItem (record : Record) : Except CodecError Item := do
  return WireItem.decode (← record.toWireItem.mapError CodecError.conversion)

end AttributeStore.Record
