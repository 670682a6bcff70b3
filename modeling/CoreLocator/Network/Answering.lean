import CoreLocator.Network

/-! A connection whose answers to `send` are given beforehand, each a count or a fault. It keeps
what it was offered and how much of that it took. -/
namespace CoreLocator.Network

structure Answering where
  /-- Once these are used up, everything offered is accepted. -/
  answers : List (Except Fault Nat)
  calls : List (Bytes × Nat) := []

/-- A count above what is offered means all of it. A call that fails is not kept. -/
def Answering.send (s : Answering) (data : Bytes) : Except Fault (Accepted data) × Answering :=
  let answer := s.answers.head?.getD (.ok data.length)
  let later := s.answers.tail
  match answer with
  | .error fault => (.error fault, { s with answers := later })
  | .ok n =>
    (.ok ⟨min n data.length, Nat.min_le_right _ _⟩,
      { answers := later, calls := s.calls ++ [(data, min n data.length)] })

instance : Network (StateM Answering) Unit where
  connect _ := pure (.ok ())
  send _ data := fun s => s.send data
  receive _ _ := pure (.ok ⟨[], Nat.zero_le _⟩)
  disconnect _ := pure ()

end CoreLocator.Network
