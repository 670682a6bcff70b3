import CoreLocator.Json.Container
import CoreLocator.Json.Path

/-! Finding a value in a document by its path. What is found is a slice of the document's own text,
with escapes as they are spelled. Each step walks to the end of its container, so a container that
is not well formed has nothing in it. -/
namespace CoreLocator.Json

/-- A piece of a document and the number of bytes before it. -/
structure Slice where
  start : Nat
  text : Bytes
  deriving DecidableEq, Repr

namespace Slice

def whole (document : Bytes) : Slice := ⟨0, document⟩

/-- The value at the start of `s`, blanks left out, where `after` is what follows it. -/
def value (container : Slice) (s after : Bytes) : Slice :=
  let inner := skipBlanks s
  ⟨container.start + (container.text.length - inner.length),
    inner.take (inner.length - after.length)⟩

def findMember (object : Slice) (key : Bytes) (found : Option Slice) (first : Bool) (s : Bytes) :
    Except Fault (Option Slice) :=
  match _h : nextKey first s with
  | .error fault => .error fault
  | .ok (none, _) => .ok found
  | .ok (some name, t) =>
    match _colon : skimColon t with
    | .error fault => .error fault
    | .ok u =>
      match _value : skim u with
      | .error fault => .error fault
      | .ok v =>
        let found := if found.isNone && name == key then some (object.value u v) else found
        findMember object key found false v
termination_by s.length
decreasing_by
  have := length_of_nextKey _h
  have := length_of_skimColon _colon
  have := length_of_skim _value
  omega

/-- The element at `index`, if it is found already or is left in `s`, which starts at `position`. -/
def findElement (list : Slice) (index : Nat) (found : Option Slice) (position : Nat) (s : Bytes) :
    Except Fault (Option Slice) :=
  match _h : nextElement (position == 0) s with
  | .error fault => .error fault
  | .ok (false, _) => .ok found
  | .ok (true, t) =>
    match _value : skim t with
    | .error fault => .error fault
    | .ok u =>
      let found := if position = index then some (list.value t u) else found
      findElement list index found (position + 1) u
termination_by s.length
decreasing_by
  have := length_of_nextElement _h
  have := length_of_skim _value
  omega

def step? (s : Slice) (step : Step) : Option Slice :=
  match skipBlanks s.text with
  | [] => none
  | b :: t =>
    match step with
    | .key name =>
      if b = 0x7B then (findMember s name none true t).toOption.join else none
    | .index n =>
      if b = 0x5B then (findElement s n none 0 t).toOption.join else none

/-- A string without its quotes, anything else as it is. -/
def unquote (s : Slice) : Slice :=
  match (Bytes.after? [0x22] s.text).bind (Bytes.before? [0x22]) with
  | none => s
  | some content => ⟨s.start + 1, content⟩

end Slice

def search? (document : Bytes) (path : Bytes) : Option Slice := do
  let steps ← Path.parse? path
  let found ← steps.foldlM Slice.step? (.whole document)
  return found.unquote

end CoreLocator.Json
