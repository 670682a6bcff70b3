import CoreLocator.Decimal
import CoreLocator.Failure
import CoreLocator.Log
import CoreLocator.Network.Link

/-! The head of a response, scanned a byte at a time and never stored. All it yields is the length
of the body, and that the next byte on the wire is the body's first. -/
namespace CoreLocator.Response

structure Head where
  contentLength : Nat
  deriving DecidableEq, Repr

/-- Room for the body and the zero behind it. A length at the word limit asks for the limit, which
no buffer has. -/
def Head.documentSize (head : Head) : Nat := min (head.contentLength + 1) (Decimal.wordLimit - 1)

/-- Looks for a name in a stream. A byte that does not fit starts over and is not itself taken for a
beginning. -/
structure FieldMatcher where
  target : Bytes
  matched : Nat := 0
  deriving DecidableEq, Repr

namespace FieldMatcher

/-- Whether `b` completes the name, after which the search starts over. -/
def push (m : FieldMatcher) (b : UInt8) : Bool × FieldMatcher :=
  if m.target[m.matched]? = some b then
    if m.matched + 1 = m.target.length then (true, { m with matched := 0 })
    else (false, { m with matched := m.matched + 1 })
  else (false, { m with matched := 0 })

end FieldMatcher

/-- The last four bytes of a stream, or all of them while there are fewer. -/
structure BoundaryWindow where
  recent : Bytes := []
  deriving DecidableEq, Repr

namespace BoundaryWindow

/-- Whether the stream now ends in a blank line. -/
def push (w : BoundaryWindow) (b : UInt8) : Bool × BoundaryWindow :=
  let recent := w.recent ++ [b]
  let recent := recent.drop (recent.length - 4)
  (recent == Bytes.blankLine, ⟨recent⟩)

end BoundaryWindow

/-- The field that announces the body's length, in the one spelling that is looked for. -/
def contentLengthField : Bytes := Bytes.ofString "content-length:"

/-- So many bytes behind the field name are looked at for the length. -/
def captureWidth : Nat := 10

/-- So many bytes of head are read at most. -/
def maxHeadLength : Nat := 8192

inductive ScanState
  | field (matcher : FieldMatcher)
  | length (captured : Bytes) (window : BoundaryWindow)
  | boundary (contentLength : Nat) (window : BoundaryWindow)
  | done (head : Head)
  deriving DecidableEq, Repr

/-- What a scan knows after a byte. -/
inductive Scan
  | needMore
  | complete (head : Head)
  deriving DecidableEq, Repr

structure HeadScanner where
  state : ScanState
  consumed : Nat := 0
  deriving DecidableEq, Repr

/-- A length of zero is no length, and there has to be room for one byte more than the length. -/
def checkedLength (n : Nat) : Except ResponseDefect Nat :=
  if n = 0 then .error .lengthUnreadable
  else if Decimal.wordLimit ≤ n + 1 then .error .lengthTooLarge
  else .ok n

/-- The state after one more byte. A length that is refused leaves the scan where it was. -/
def ScanState.push (state : ScanState) (b : UInt8) : Except ResponseDefect Unit × ScanState :=
  match state with
  | field matcher =>
    match matcher.push b with
    | (true, _) => (.ok (), length [] {})
    | (false, matcher) => (.ok (), field matcher)
  | length captured window =>
    let captured := if captured.length < captureWidth then captured ++ [b] else captured
    let (ended, window) := window.push b
    if ended || captured.length == captureWidth then
      match checkedLength (Decimal.leading captured) with
      | .error defect => (.error defect, length captured window)
      | .ok n => (.ok (), if ended then done ⟨n⟩ else boundary n window)
    else (.ok (), length captured window)
  | boundary n window =>
    match window.push b with
    | (true, _) => (.ok (), done ⟨n⟩)
    | (false, window) => (.ok (), boundary n window)
  | done head => (.ok (), done head)

def ScanState.scan : ScanState → Scan
  | done head => .complete head
  | _ => .needMore

namespace HeadScanner

def ofField (name : Bytes) : HeadScanner := { state := .field { target := name } }

def new : HeadScanner := ofField contentLengthField

def foundField (s : HeadScanner) : Bool :=
  match s.state with
  | .field _ => false
  | _ => true

def push (s : HeadScanner) (b : UInt8) : Except ResponseDefect Scan × HeadScanner :=
  let (outcome, state) := s.state.push b
  (outcome.map fun _ => state.scan, { state, consumed := s.consumed + 1 })

end HeadScanner

variable {m : Type → Type} {κ : Type} [Monad m] [Network m κ] [Log m]

/-- Reads on while at most `budget` bytes are taken. -/
def scanHead (link : Link κ) (scanner : HeadScanner) : Nat → m (Except Failure Head)
  | 0 => pure (.error (.malformedResponse .headTooLong))
  | budget + 1 => do
    match ← link.receive 1 with
    | .error fault => pure (.error (.transport fault))
    | .ok ⟨[], _⟩ =>
      pure (.error (.malformedResponse
        (if scanner.foundField then .headUnfinished else .noLength)))
    | .ok ⟨b :: _, _⟩ =>
      match scanner.push b with
      | (.error defect, _) => pure (.error (.malformedResponse defect))
      | (.ok .needMore, scanner) => scanHead link scanner budget
      | (.ok (.complete head), scanner) => do
        Log.debug
          s!"[header] content-length {head.contentLength} after {scanner.consumed} header bytes"
        pure (.ok head)

/-- Reads the head and nothing behind it. A link whose head cannot be read is closed. -/
def readHead (link : Link κ) : m (Except Failure Head × Link κ) := do
  match ← scanHead link .new maxHeadLength with
  | .error failure => pure (.error failure, ← link.close)
  | .ok head => pure (.ok head, link)

end CoreLocator.Response
