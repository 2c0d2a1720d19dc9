import Lockspace.Named

namespace Lockspace

/-- A lock mode, from exclusive to the group and commit modes. -/
inductive LockMode where
  | ex
  | pw
  | pr
  | cw
  | cr
  | nl
  | group
  | cos
deriving DecidableEq

namespace LockMode

/-- All modes in the order of their bits. -/
def all : List LockMode :=
  [ex, pw, pr, cw, cr, nl, group, cos]

/-- The place of a mode in the list of all modes, which is also its bit. -/
def index : LockMode → Nat
  | ex => 0
  | pw => 1
  | pr => 2
  | cw => 3
  | cr => 4
  | nl => 5
  | group => 6
  | cos => 7

def bit (m : LockMode) : Nat :=
  1 <<< m.index

def text : LockMode → String
  | ex => "EX"
  | pw => "PW"
  | pr => "PR"
  | cw => "CW"
  | cr => "CR"
  | nl => "NL"
  | group => "GROUP"
  | cos => "COS"

/-- Whether a hold in this mode counts as a reader. The other modes count as writers. -/
def reads : LockMode → Bool
  | nl | cr | pr => true
  | _ => false

instance : Named LockMode where
  all := all
  name
    | ex => "Ex"
    | pw => "Pw"
    | pr => "Pr"
    | cw => "Cw"
    | cr => "Cr"
    | nl => "Nl"
    | group => "Group"
    | cos => "Cos"

theorem getElem?_all_index (m : LockMode) : all[m.index]? = some m := by
  cases m <;> rfl

theorem index_inj {a b : LockMode} (same : a.index = b.index) : a = b := by
  have : some a = some b := by rw [← getElem?_all_index a, ← getElem?_all_index b, same]
  exact Option.some.inj this

end LockMode

/-- One value for each lock mode. -/
structure PerMode (α : Type) where
  ex : α
  pw : α
  pr : α
  cw : α
  cr : α
  nl : α
  group : α
  cos : α
deriving DecidableEq

namespace PerMode

variable {α : Type}

def const (a : α) : PerMode α :=
  ⟨a, a, a, a, a, a, a, a⟩

instance [Inhabited α] : Inhabited (PerMode α) := ⟨const default⟩

def get (p : PerMode α) : LockMode → α
  | .ex => p.ex
  | .pw => p.pw
  | .pr => p.pr
  | .cw => p.cw
  | .cr => p.cr
  | .nl => p.nl
  | .group => p.group
  | .cos => p.cos

def set (p : PerMode α) (m : LockMode) (a : α) : PerMode α :=
  match m with
  | .ex => { p with ex := a }
  | .pw => { p with pw := a }
  | .pr => { p with pr := a }
  | .cw => { p with cw := a }
  | .cr => { p with cr := a }
  | .nl => { p with nl := a }
  | .group => { p with group := a }
  | .cos => { p with cos := a }

theorem get_set (p : PerMode α) (m n : LockMode) (a : α) :
    (p.set m a).get n = if n = m then a else p.get n := by
  cases m <;> cases n <;> rfl

theorem get_const (a : α) (m : LockMode) : (const a).get m = a := by
  cases m <;> rfl

end PerMode

end Lockspace
