namespace Lockspace

/-- What a key names. -/
inductive Kind where
  | space
  | resource
  | lock
  | bucket
deriving DecidableEq

/-- The serial number of one object of a kind, given in order of creation. -/
structure Key (kind : Kind) where
  index : Nat
deriving DecidableEq

abbrev SpaceKey := Key .space
abbrev ResourceKey := Key .resource
abbrev LockKey := Key .lock
abbrev BucketKey := Key .bucket

/-- Objects of one kind by serial number. A number never given reads as the default object. -/
structure Store (kind : Kind) (α : Type) where
  cells : Array α := #[]

namespace Store

variable {kind : Kind} {α : Type} [Inhabited α]

instance : Inhabited (Store kind α) := ⟨{}⟩

/-- The first objects of a kind, all alike. -/
def replicate (n : Nat) (a : α) : Store kind α :=
  ⟨Array.replicate n a⟩

def size (s : Store kind α) : Nat :=
  s.cells.size

def get (s : Store kind α) (k : Key kind) : α :=
  s.cells.getD k.index default

def set (s : Store kind α) (k : Key kind) (a : α) : Store kind α :=
  if k.index < s.cells.size then ⟨s.cells.setIfInBounds k.index a⟩
  else ⟨(s.cells ++ Array.replicate (k.index - s.cells.size) default).push a⟩

def modify (s : Store kind α) (k : Key kind) (f : α → α) : Store kind α :=
  s.set k (f (s.get k))

def nextKey (s : Store kind α) : Key kind :=
  ⟨s.cells.size⟩

def alloc (s : Store kind α) (a : α) : Key kind × Store kind α :=
  (s.nextKey, s.set s.nextKey a)

/-- All keys that have been given, in order. -/
def keys (s : Store kind α) : List (Key kind) :=
  (List.range s.cells.size).map Key.mk

/-- All objects in order of their keys. -/
def toList (s : Store kind α) : List α :=
  s.cells.toList

def total (s : Store kind α) (count : α → Nat) : Nat :=
  s.toList.foldr (fun a n => count a + n) 0

theorem get_set (s : Store kind α) (k j : Key kind) (a : α) :
    (s.set k a).get j = if j = k then a else s.get j := by
  obtain ⟨k⟩ := k
  obtain ⟨j⟩ := j
  simp only [set, get, Key.mk.injEq]
  by_cases inside : k < s.cells.size
  · simp only [inside, if_true, Array.getD_eq_getD_getElem?, Array.getElem?_setIfInBounds]
    by_cases same : j = k
    · simp [same]
    · simp [same, Ne.symm same]
  · simp only [inside, if_false, Array.getD_eq_getD_getElem?, Array.getElem?_push, Array.size_append,
      Array.size_replicate, Array.getElem?_append, Array.getElem?_replicate]
    by_cases same : j = k
    · simp [same, show s.cells.size + (k - s.cells.size) = k by omega]
    · have off : ¬ j = s.cells.size + (k - s.cells.size) := by omega
      simp only [off, same, if_false]
      by_cases old : j < s.cells.size
      · simp [old]
      · by_cases pad : j - s.cells.size < k - s.cells.size <;> simp [old, pad]

theorem get_set_self (s : Store kind α) (k : Key kind) (a : α) : (s.set k a).get k = a := by
  simp [get_set]

theorem get_set_of_ne (s : Store kind α) {k j : Key kind} (ne : j ≠ k) (a : α) :
    (s.set k a).get j = s.get j := by
  simp [get_set, ne]

theorem get_modify (s : Store kind α) (k j : Key kind) (f : α → α) :
    (s.modify k f).get j = if j = k then f (s.get k) else s.get j := by
  simp [modify, get_set]

end Store

end Lockspace
