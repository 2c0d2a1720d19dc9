import Lockspace.Manager.Resources

namespace Lockspace

/-- Where one stands who waits until no reference on a namespace is left. A watching waiter has
noted how many signals there were, but has not looked at the count yet; a parked one has seen
references and sleeps until there are more signals than it noted. -/
inductive Waiter where
  | outside
  | watching (seen : Nat)
  | parked (seen : Nat)
  | finished
deriving DecidableEq

namespace Waiter

/-- What a waiter does next. A parked waiter without a new signal, and one that has finished, do
nothing. -/
def step? (s : Namespace) : Waiter → Option Waiter
  | outside => some (watching s.signals)
  | watching seen => some (if s.table.bref = 0 then finished else parked seen)
  | parked seen => if s.signals = seen then none else some outside
  | finished => none

/-- What a waiter does until it sleeps or has finished, when nothing comes between. From outside
it watches and then looks; a signalled one comes back outside first. -/
def poll (s : Namespace) (w : Waiter) : Waiter :=
  let go := fun w => (step? s w).getD w
  go (go (go w))

def sleeps (s : Namespace) (w : Waiter) : Bool :=
  (step? s w).isNone && w != finished

end Waiter

end Lockspace
