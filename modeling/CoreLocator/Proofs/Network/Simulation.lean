import CoreLocator.Log
import CoreLocator.Network.Link

/-! Two networks whose calls answer alike. What is assumed of them tells states without a connection
from states with one: a connect is made where there is none, and everything else concerns the one
that there is. -/
namespace CoreLocator.Network

variable {σ τ κ κ' α α' β β' : Type}

/-- From states related by `P` the computations end in results and states related by `Q`. -/
def Matches (P : σ → τ → Prop) (Q : α → α' → σ → τ → Prop) (x : StateM σ α) (y : StateM τ α') :
    Prop :=
  ∀ s t, P s t → Q (x s).1 (y t).1 (x s).2 (y t).2

def Same (P : σ → τ → Prop) (a b : α) (s : σ) (t : τ) : Prop := a = b ∧ P s t

section Rules
variable {P : σ → τ → Prop} {Q : α → α' → σ → τ → Prop} {R : β → β' → σ → τ → Prop}
  {x : StateM σ α} {y : StateM τ α'}

theorem matches_pure {a : α} {b : α'} (related : ∀ s t, P s t → Q a b s t) :
    Matches P Q (pure a) (pure b) := related

theorem Matches.bind {f : α → StateM σ β} {g : α' → StateM τ β'} (first : Matches P Q x y)
    (second : ∀ a b, Matches (Q a b) R (f a) (g b)) : Matches P R (x >>= f) (y >>= g) := by
  intro s t related
  exact second _ _ _ _ (first s t related)

/-- Where the results are equal, one case is enough. -/
theorem Matches.bind_same {P' : σ → τ → Prop} {y : StateM τ α} {f : α → StateM σ β}
    {g : α → StateM τ β'} (first : Matches P (Same P') x y)
    (second : ∀ a, Matches P' R (f a) (g a)) : Matches P R (x >>= f) (y >>= g) := by
  refine first.bind fun a b s t same => ?_
  obtain ⟨rfl, related⟩ := same
  exact second a s t related

theorem Matches.weaken {P' : σ → τ → Prop} {Q' : α → α' → σ → τ → Prop} (given : Matches P Q x y)
    (before : ∀ s t, P' s t → P s t) (after : ∀ a b s t, Q a b s t → Q' a b s t) :
    Matches P' Q' x y :=
  fun s t related => after _ _ _ _ (given s t (before s t related))

theorem matches_of_imp {p : Prop} (given : p → Matches P Q x y) :
    Matches (fun s t => p ∧ P s t) Q x y :=
  fun s t related => given related.1 s t related.2

end Rules

variable [Network (StateM σ) κ] [Network (StateM τ) κ'] [Log (StateM σ)] [Log (StateM τ)]

/-- How two connects end alike. -/
inductive Dialled (Idle : σ → τ → Prop) (Busy : κ → κ' → σ → τ → Prop) :
    Except Fault κ → Except Fault κ' → σ → τ → Prop
  | up {c : κ} {c' : κ'} {s : σ} {t : τ} : Busy c c' s t → Dialled Idle Busy (.ok c) (.ok c') s t
  | down {fault : Fault} {s : σ} {t : τ} :
      Idle s t → Dialled Idle Busy (.error fault) (.error fault) s t

/-- `Idle` relates states without a connection, `Busy` states with one. -/
structure Simulation (Idle : σ → τ → Prop) (Busy : κ → κ' → σ → τ → Prop) : Prop where
  connect : ∀ endpoint, Matches Idle (Dialled Idle Busy)
    (Network.connect (m := StateM σ) endpoint) (Network.connect (m := StateM τ) endpoint)
  send : ∀ c c' data, Matches (Busy c c') (Same (Busy c c'))
    (Network.send (m := StateM σ) c data) (Network.send (m := StateM τ) c' data)
  receive : ∀ c c' room, Matches (Busy c c') (Same (Busy c c'))
    (Network.receive (m := StateM σ) c room) (Network.receive (m := StateM τ) c' room)
  disconnect : ∀ c c', Matches (Busy c c') (Same Idle)
    (Network.disconnect (m := StateM σ) c) (Network.disconnect (m := StateM τ) c')
  idle_record : ∀ r, Matches Idle (Same Idle)
    (Log.record (m := StateM σ) r) (Log.record (m := StateM τ) r)
  busy_record : ∀ c c' r, Matches (Busy c c') (Same (Busy c c'))
    (Log.record (m := StateM σ) r) (Log.record (m := StateM τ) r)

section Links
variable {Idle : σ → τ → Prop} {Busy : κ → κ' → σ → τ → Prop} (sim : Simulation Idle Busy)
  {c : κ} {c' : κ'}
include sim

theorem Simulation.sendOver (data : Bytes) : Matches (Busy c c') (Same (Busy c c'))
    (Link.sendOver (m := StateM σ) c data) (Link.sendOver (m := StateM τ) c' data) := by
  induction size : data.length using Nat.strongRecOn generalizing data with
  | ind size ih =>
    cases data with
    | nil =>
      rw [Link.sendOver, Link.sendOver]
      exact matches_pure fun _ _ busy => ⟨rfl, busy⟩
    | cons b data =>
      rw [Link.sendOver, Link.sendOver]
      refine (sim.send c c' (b :: data)).bind_same fun answer => ?_
      rcases answer with fault | ⟨_ | n, most⟩
      · exact matches_pure fun _ _ busy => ⟨rfl, busy⟩
      · exact matches_pure fun _ _ busy => ⟨rfl, busy⟩
      · refine ih (data.drop n).length ?_ _ rfl
        rw [← size, List.length_drop, List.length_cons]
        omega

theorem Simulation.close : Matches (Busy c c')
    (fun (link : Link κ) (link' : Link κ') s t =>
      link = ⟨none⟩ ∧ link' = ⟨none⟩ ∧ Idle s t)
    (Link.close (m := StateM σ) (.ofConnection c))
    (Link.close (m := StateM τ) (.ofConnection c')) :=
  (sim.disconnect c c').bind_same fun _ => matches_pure fun _ _ idle => ⟨rfl, rfl, idle⟩

end Links
end CoreLocator.Network
