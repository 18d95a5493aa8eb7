import FogDispatch.Plan
import FogDispatch.Text.Bytes
import FogDispatch.Text.Split

/-!
# Frames

How the answers of the decision service stand in the bytes of a connection.  A frame with a length
has two bytes in front, the higher one first, that count the bytes of its text.  A line goes up to a
line end, which does not belong to the answer.  In both cases the text has to be valid, and what
follows a frame is left for the next answer.
-/

namespace FogDispatch

def lineFeed : UInt8 := 0x0a

def dropLineEnds (cs : List Char) : List Char :=
  (cs.reverse.dropWhile fun c => c == '\r' || c == '\n').reverse

namespace Framing

/-- The payload of the first frame of some bytes, without its length or its line end, and the bytes
behind it; nothing as long as the frame is not complete. -/
def split? (framing : Framing) (bytes : List UInt8) : Option (List UInt8 × List UInt8) :=
  match framing with
  | .lengthPrefixed =>
    match bytes with
    | high :: low :: rest =>
      let length := 256 * high.toNat + low.toNat
      if length ≤ rest.length then some (rest.take length, rest.drop length) else none
    | _ => none
  | .line => splitFirst? lineFeed bytes

def isComplete (framing : Framing) (bytes : List UInt8) : Bool := (framing.split? bytes).isSome

def decode? (framing : Framing) (payload : List UInt8) : Option String :=
  match framing with
  | .lengthPrefixed => textOf? payload
  | .line => (textOf? payload).map fun text => String.ofList (dropLineEnds text.toList)

/-- The answer in the last bytes of a connection, which hold no complete frame.  A line counts also
without its line end, as long as there is something of it. -/
def decodeLast? (framing : Framing) (bytes : List UInt8) : Option String :=
  match framing with
  | .lengthPrefixed => none
  | .line => if bytes.isEmpty then none else framing.decode? bytes

end Framing
end FogDispatch
