/-!
# Bytes of a text

Bytes from outside count as a text only if they are the encoding of one.
-/

namespace FogDispatch

/-- The text that bytes encode, if they encode one. -/
def textOf? (bytes : List UInt8) : Option String := String.fromUTF8? ⟨bytes.toArray⟩

end FogDispatch
