import CoreLocator.Response.Head

/-! The body of a response, streamed into a buffer of fixed size. How much has arrived is part of
the reception, so that it can be taken one read at a time. -/
namespace CoreLocator.Response

/-- `data` in place of as many bytes of `buffer` from `index` on. -/
def overwrite (buffer : Bytes) (index : Nat) (data : Bytes) : Bytes :=
  buffer.take index ++ data ++ buffer.drop (index + data.length)

/-- A body on its way over a link: the first `received` bytes of the buffer have arrived. -/
structure Reception (κ : Type) where
  link : Link κ
  buffer : Bytes
  received : Nat

namespace Reception

def capacity {κ : Type} (r : Reception κ) : Nat := r.buffer.length

def room {κ : Type} (r : Reception κ) : Nat := r.capacity - r.received

end Reception

/-- How one read ended. What is not finished has less room than before. -/
inductive Progress {κ : Type} (r : Reception κ)
  | incomplete (next : Reception κ) (less : next.room < r.room)
  | complete (next : Reception κ)
  | failed (failure : Failure) (next : Reception κ)

theorem length_overwrite {buffer data : Bytes} {index : Nat}
    (fits : index + data.length ≤ buffer.length) :
    (overwrite buffer index data).length = buffer.length := by
  simp only [overwrite, List.length_append, List.length_take, List.length_drop]
  omega

variable {m : Type → Type} {κ : Type} [Monad m] [Network m κ] [Log m]

/-- Reads once into the rest of the buffer. `documentSize` counts the body and a zero behind it,
which is written when the body is complete. -/
def Reception.pull (r : Reception κ) (documentSize : Nat) : m (Progress r) := do
  let expected := documentSize - 1
  if full : r.capacity ≤ r.received then
    Log.warn s!"[body] buffer of {r.capacity} bytes exhausted, document needs {documentSize}"
    pure (.failed (.bufferTooSmall r.capacity documentSize) r)
  else
    match ← r.link.receive r.room with
    | .error fault => pure (.failed (.transport fault) r)
    | .ok ⟨[], _⟩ => pure (.failed (.malformedResponse .bodyUnfinished) r)
    | .ok ⟨b :: data, fits⟩ =>
      let received := r.received + (b :: data).length
      let next := { r with buffer := overwrite r.buffer r.received (b :: data), received }
      if expected < received then
        Log.debug s!"[body] received {received} bytes, expected at most {expected}"
        pure (.failed (.malformedResponse .bodyTooLong) next)
      else if received < expected then
        Log.debug s!"[body] received {received} of {expected} bytes"
        pure (.incomplete next (by
          have same : next.capacity = r.capacity :=
            length_overwrite (by simp only [Reception.room, Reception.capacity] at *; omega)
          simp only [Reception.room, same]
          simp only [next, received, List.length_cons]
          omega))
      else if r.capacity ≤ expected then
        pure (.failed (.bufferTooSmall r.capacity documentSize) next)
      else
        Log.debug s!"[body] document complete ({expected} bytes)"
        pure (.complete { next with buffer := overwrite next.buffer expected [0] })

def Reception.fetch (r : Reception κ) (documentSize : Nat) : m (Progress r) := do
  match ← r.pull documentSize with
  | .incomplete next less => pure (.incomplete next less)
  | .complete next => pure (.complete { next with link := ← next.link.close })
  | .failed failure next => pure (.failed failure { next with link := ← next.link.close })

def Reception.finish (r : Reception κ) (documentSize : Nat) :
    m (Except Failure Nat × Reception κ) := do
  match ← r.fetch documentSize with
  | .incomplete next _less => next.finish documentSize
  | .complete next => pure (.ok next.received, next)
  | .failed failure next => pure (.error failure, next)
termination_by r.room

/-- Streams the body that `head` announces into `buffer`. Nothing is read unless all of it fits. -/
def receiveDocument (link : Link κ) (buffer : Bytes) (head : Head) :
    m (Except Failure Nat × Reception κ) := do
  let documentSize := head.documentSize
  if buffer.length < documentSize then
    let link ← link.close
    Log.warn (s!"[body] supplied buffer ({buffer.length} bytes) cannot hold the {documentSize} byte "
      ++ "discovery document; increase it")
    pure (.error (.bufferTooSmall buffer.length documentSize), ⟨link, buffer, 0⟩)
  else
    Reception.finish ⟨link, buffer, 0⟩ documentSize

end CoreLocator.Response
