import CoreLocator.Proofs.Network.Simulation

/-! A network that is watched. Every call is kept together with the state that it is made in, and
answered as without the watch. -/
namespace CoreLocator.Network

inductive Call
  | connect (accepted : Bool)
  | send
  | receive
  | disconnect
  deriving DecidableEq, Repr

structure Watched (σ : Type) where
  state : σ
  calls : List (Call × σ) := []

variable {σ κ α : Type}

def watch (call : α → Call) (x : StateM σ α) : StateM (Watched σ) α := fun w =>
  let (answer, state) := x w.state
  (answer, { state, calls := w.calls ++ [(call answer, w.state)] })

instance [Network (StateM σ) κ] : Network (StateM (Watched σ)) κ where
  connect endpoint :=
    watch (fun answer => .connect answer.isOk) (Network.connect (m := StateM σ) endpoint)
  send c data := watch (fun _ => .send) (Network.send (m := StateM σ) c data)
  receive c room := watch (fun _ => .receive) (Network.receive (m := StateM σ) c room)
  disconnect c := watch (fun _ => .disconnect) (Network.disconnect (m := StateM σ) c)

/-- Records are no calls. -/
instance [Log (StateM σ)] : Log (StateM (Watched σ)) where
  record r := fun w => ((), { w with state := (Log.record (m := StateM σ) r w.state).2 })

/-- How many connects have come about. -/
def accepted (calls : List (Call × σ)) : Nat := calls.countP fun call => call.1 = .connect true

theorem accepted_append (calls : List (Call × σ)) (call : Call) (state : σ) :
    accepted (calls ++ [(call, state)]) =
      accepted calls + if call = .connect true then 1 else 0 := by
  simp only [accepted, List.countP_append, List.countP_singleton, decide_eq_true_eq]

/-- How often was read. -/
def readCount (calls : List (Call × σ)) : Nat := calls.countP fun call => call.1 = .receive

theorem readCount_append (calls : List (Call × σ)) (call : Call) (state : σ) :
    readCount (calls ++ [(call, state)]) = readCount calls + if call = .receive then 1 else 0 := by
  simp only [readCount, List.countP_append, List.countP_singleton, decide_eq_true_eq]

/-- Watching a network changes none of its answers. -/
theorem watching_simulation [Network (StateM σ) κ] [Log (StateM σ)] :
    Simulation (fun (watched : Watched σ) now => watched.state = now)
      (fun (c c' : κ) watched now => c = c' ∧ watched.state = now) where
  connect endpoint := by
    rintro watched _ rfl
    obtain ⟨answer, after, connected⟩ : ∃ answer after,
        Network.connect (m := StateM σ) endpoint watched.state = (answer, after) := ⟨_, _, rfl⟩
    change Dialled _ _ (Network.connect (m := StateM σ) endpoint watched.state).1 _ _ _
    rw [connected]
    cases answer with
    | error fault => exact .down (congrArg Prod.snd connected)
    | ok c => exact .up ⟨rfl, congrArg Prod.snd connected⟩
  send c c' data := by
    rintro watched _ ⟨rfl, rfl⟩
    exact ⟨rfl, rfl, rfl⟩
  receive c c' room := by
    rintro watched _ ⟨rfl, rfl⟩
    exact ⟨rfl, rfl, rfl⟩
  disconnect c c' := by
    rintro watched _ ⟨rfl, rfl⟩
    exact ⟨rfl, rfl⟩
  idle_record r := by
    rintro watched _ rfl
    exact ⟨rfl, rfl⟩
  busy_record c c' r := by
    rintro watched _ ⟨rfl, rfl⟩
    exact ⟨rfl, rfl, rfl⟩

end CoreLocator.Network
