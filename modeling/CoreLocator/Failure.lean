import CoreLocator.Json.Fault
import CoreLocator.Network
import CoreLocator.Utf8

/-! Every way in which a discovery fails, with its wording. A failure ends one attempt; whether
another attempt can do better depends on the cause alone. -/
namespace CoreLocator

/-- What is wrong with a response. -/
inductive ResponseDefect
  | noLength
  | lengthUnreadable
  | lengthTooLarge
  | headTooLong
  | headUnfinished
  | bodyUnfinished
  | bodyTooLong
  deriving DecidableEq, Repr

def ResponseDefect.message : ResponseDefect → String
  | noLength => "content-length field not found"
  | lengthUnreadable => "unparseable content-length"
  | lengthTooLarge => "content-length too large"
  | headTooLong => "header section too long"
  | headUnfinished => "stream ended before end of header"
  | bodyUnfinished => "stream ended before end of body"
  | bodyTooLong => "body longer than content-length"

/-- What is wrong with a discovery document. -/
inductive DocumentDefect
  | notUtf8 (fault : Utf8.Fault)
  | notJson (diagnosis : Json.Diagnosis)
  | certificateTooShort (length : Nat)
  | certificateEmpty
  deriving DecidableEq, Repr

def DocumentDefect.message : DocumentDefect → String
  | notUtf8 fault => s!"not UTF-8: {fault.message}"
  | notJson diagnosis => diagnosis.message
  | certificateTooShort length => s!"certificate value too short ({length} bytes)"
  | certificateEmpty => "certificate value is empty"

/-- What is wrong with a request. -/
inductive RequestDefect
  | emptyName
  | unprintableName
  deriving DecidableEq, Repr

def RequestDefect.message : RequestDefect → String
  | emptyName => "thing name is empty"
  | unprintableName => "thing name contains non-printable characters"

inductive Failure
  | transport (fault : Network.Fault)
  | malformedResponse (defect : ResponseDefect)
  | bufferTooSmall (capacity required : Nat)
  | documentInvalid (defect : DocumentDefect)
  | fieldNotFound (path : String)
  | noReachableCandidate (tried : Nat)
  | invalidRequest (defect : RequestDefect)
  deriving DecidableEq, Repr

namespace Failure

def message : Failure → String
  | transport fault => s!"transport failure: {fault.message}"
  | malformedResponse defect => s!"malformed response: {defect.message}"
  | bufferTooSmall capacity required =>
    s!"buffer too small: capacity {capacity} bytes, {required} bytes required"
  | documentInvalid defect => s!"invalid discovery document: {defect.message}"
  | fieldNotFound path => s!"field not found: {path}"
  | noReachableCandidate tried => s!"no reachable core endpoint ({tried} candidates tried)"
  | invalidRequest defect => s!"invalid request: {defect.message}"

/-- The failure and what caused it. -/
def messages (failure : Failure) : List String :=
  match failure with
  | transport fault => [failure.message, fault.message]
  | _ => [failure.message]

/-- A request or a buffer that is wrong stays wrong. -/
def isRetryable : Failure → Bool
  | invalidRequest _ => false
  | bufferTooSmall _ _ => false
  | _ => true

end Failure
end CoreLocator
