import CoreLocator.Failure

/-! The request for a thing's discovery document: one line and no fields. -/
namespace CoreLocator.Request

def opening : String := "GET /greengrass/discover/thing/"
def closing : String := " HTTP/1.1\r\n\r\n"

/-- The bytes that ask for the thing of this name. -/
def bytes (thingName : String) : Bytes :=
  .ofString opening ++ .ofString thingName ++ .ofString closing

def length (thingName : String) : Nat := (bytes thingName).length

/-- A name of visible ASCII characters cannot end the request line early. -/
def checkName (thingName : String) : Except RequestDefect Unit :=
  if thingName.isEmpty then .error .emptyName
  else if (Bytes.ofString thingName).all Ascii.isGraphic then .ok ()
  else .error .unprintableName

/-- Puts the request at the front of the buffer and returns its length. A buffer that cannot hold it
stays as it is. -/
def write (buffer : Bytes) (thingName : String) : Except Failure Nat × Bytes :=
  match checkName thingName with
  | .error defect => (.error (.invalidRequest defect), buffer)
  | .ok () =>
    let request := bytes thingName
    if buffer.length < request.length then
      (.error (.bufferTooSmall buffer.length request.length), buffer)
    else (.ok request.length, request ++ buffer.drop request.length)

end CoreLocator.Request
