import Lockspace.Manager.Locks

namespace Lockspace

/-- What a waiting operation does in one turn: it goes on, it asks the peer about a lock, it parks
with a bound on the time that it sleeps, or it returns. -/
inductive Turn (σ α : Type) where
  | goes (next : σ)
  | asks (lock : LockKey) (next : σ)
  | parks (bound : Duration) (next : σ)
  | returns (answer : α)

/-- The same turn of an operation that contains another one. -/
def Turn.map {σ τ α : Type} (f : σ → τ) : Turn σ α → Turn τ α
  | goes s => .goes (f s)
  | asks l s => .asks l (f s)
  | parks bound s => .parks bound (f s)
  | returns a => .returns a

namespace Act

/-- Asks the peer of a namespace to cancel a lock while so many other calls are in progress. -/
def askPeer (n : SpaceKey) (l : LockKey) (arg : LockFlags) (others : Nat) : Act Unit := do
  note (.peerCancel n l arg (← lock l).flags (others + 1))

end Act

end Lockspace
