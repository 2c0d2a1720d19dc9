import Lockspace.Text.Numeral

namespace Lockspace

/-- The flag word of a lock. -/
structure LockFlags where
  bits : UInt64
deriving DecidableEq, Inhabited

namespace LockFlags

def none : LockFlags := ⟨0⟩

/-- A drain has visited the lock. -/
def cleaned : LockFlags := ⟨1⟩

/-- A cancel is pending: the last holder drops the lock. -/
def cancelPending : LockFlags := ⟨2⟩

/-- The lock has failed and nobody should wait on it. -/
def failed : LockFlags := ⟨4⟩

/-- The peer must not hear of this cancel. -/
def localOnly : LockFlags := ⟨8⟩

/-- The lock is destroyed and must not be queued again. -/
def destroyed : LockFlags := ⟨16⟩

def union (a b : LockFlags) : LockFlags :=
  ⟨a.bits ||| b.bits⟩

instance : OrOp LockFlags := ⟨union⟩

/-- The flags of the first word that are not in the second. -/
def without (a b : LockFlags) : LockFlags :=
  ⟨a.bits &&& ~~~b.bits⟩

/-- Whether every flag of the second word is in the first. -/
def contains (a b : LockFlags) : Bool :=
  a.bits &&& b.bits == b.bits

def isEmpty (a : LockFlags) : Bool :=
  a.bits == 0

end LockFlags

/-- The handle by which peers name a lock. -/
structure LockHandle where
  cookie : UInt64
deriving DecidableEq

def LockHandle.text (h : LockHandle) : String :=
  hexText h.cookie.toNat

end Lockspace
