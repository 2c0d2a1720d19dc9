import Lockspace.Error
import Lockspace.Resource
import Mathlib.Data.Set.Function

namespace Lockspace

/-- What a caller does about the resource of an id: it asks for a reference, to have it under a
name, or it gives back the one that it has under a name. -/
inductive ResourceOp where
  | get (id : ResourceId) (name : Nat) (rtype : ResourceType) (create : Bool)
  | put (id : ResourceId) (name : Nat)
deriving DecidableEq

def ResourceOp.id : ResourceOp → ResourceId
  | get id .. | put id _ => id

/-- What comes of it: the object that a reference is on, a refusal, or whether the object is gone
with its reference. Nothing comes of giving back what the caller does not have. -/
inductive Upshot (α : Type) where
  | got (object : α)
  | refused (e : LockError)
  | dropped (gone : Bool)
  | skipped
deriving DecidableEq

/-- What a table has under an id: an object, its type and how many references there are on it. -/
structure Stored (α : Type) where
  object : α
  rtype : ResourceType
  refs : Nat
deriving DecidableEq

/-- One id as a caller sees it: what the table has under it, and the references that the caller has
by name, the latest first. -/
structure Slot (α : Type) where
  stored : Option (Stored α)
  handles : List (Nat × α)

variable {α β : Type}

namespace Upshot

def map (f : α → β) : Upshot α → Upshot β
  | got object => .got (f object)
  | refused e => .refused e
  | dropped gone => .dropped gone
  | skipped => .skipped

/-- All objects in it are from a set. -/
def Within (objects : Set α) : Upshot α → Prop
  | got object => object ∈ objects
  | refused _ | dropped _ | skipped => True

theorem Within.mono {u : Upshot α} {objects wider : Set α} (within : u.Within objects)
    (more : objects ⊆ wider) : u.Within wider := by
  cases u with
  | got object => exact more within
  | refused | dropped | skipped => trivial

theorem map_congr {u : Upshot α} {objects : Set α} {f g : α → β} (within : u.Within objects)
    (same : objects.EqOn f g) : u.map f = u.map g := by
  cases u with
  | got object => exact congrArg got (same within)
  | refused | dropped | skipped => rfl

theorem map_map {γ : Type} (u : Upshot α) (f : α → β) (g : β → γ) :
    (u.map f).map g = u.map (g ∘ f) := by
  cases u <;> rfl

end Upshot

def Stored.map (f : α → β) (o : Stored α) : Stored β :=
  ⟨f o.object, o.rtype, o.refs⟩

namespace Slot

def map (f : α → β) (s : Slot α) : Slot β :=
  ⟨s.stored.map (.map f), s.handles.map (Prod.map id f)⟩

/-- All objects in it are from a set. -/
structure Within (objects : Set α) (s : Slot α) : Prop where
  stored : ∀ o ∈ s.stored, o.object ∈ objects
  handles : ∀ h ∈ s.handles, h.2 ∈ objects

/-- Whether an operation makes a new object. -/
def creates (s : Slot α) : ResourceOp → Bool
  | .get _ _ _ create => create && s.stored.isNone
  | .put .. => false

/-- What an operation on the id does. If it makes an object, that is the fresh one. -/
def step (s : Slot α) (fresh : α) : ResourceOp → Upshot α × Slot α
  | .get id name rtype create =>
    match s.stored with
    | some o =>
      (.got o.object, ⟨some { o with refs := o.refs + 1 }, (name, o.object) :: s.handles⟩)
    | none =>
      if create then (.got fresh, ⟨some ⟨fresh, rtype, 1⟩, (name, fresh) :: s.handles⟩)
      else (.refused (.notFound id), s)
  | .put _ name =>
    match s.handles.lookup name, s.stored with
    | some _, some o =>
      let left := s.handles.eraseP (·.1 == name)
      if o.refs = 1 then (.dropped true, ⟨none, left⟩)
      else (.dropped false, ⟨some { o with refs := o.refs - 1 }, left⟩)
    | _, _ => (.skipped, s)

variable {s : Slot α} {objects : Set α} {fresh : α} {op : ResourceOp}

theorem creates_map (s : Slot α) (f : α → β) : (s.map f).creates op = s.creates op := by
  cases op with
  | get _ _ _ create => exact congrArg (create && ·) Option.isNone_map
  | put => rfl

/-- A new object is there with one reference. -/
theorem stored_step_of_creates (made : s.creates op = true) (fresh : α) :
    ∃ rtype, (s.step fresh op).2.stored = some ⟨fresh, rtype, 1⟩ := by
  cases op with
  | get id name rtype create =>
    obtain ⟨rfl, absent⟩ := Bool.and_eq_true_iff.mp made
    rw [Option.isNone_iff_eq_none] at absent
    exact ⟨rtype, by simp only [step, absent, if_true]⟩
  | put => cases made

theorem Within.mono {wider : Set α} (within : s.Within objects) (more : objects ⊆ wider) :
    s.Within wider :=
  ⟨fun o member => more (within.stored o member), fun h member => more (within.handles h member)⟩

theorem map_congr {f g : α → β} (within : s.Within objects) (same : objects.EqOn f g) :
    s.map f = s.map g := by
  unfold map
  congr 1
  · refine Option.map_congr fun o member => ?_
    exact congrArg (Stored.mk · o.rtype o.refs) (same (within.stored o member))
  · refine List.map_congr_left fun h member => ?_
    exact congrArg (Prod.mk h.1) (same (within.handles h member))

theorem map_id (s : Slot α) : s.map id = s := by
  have same : Stored.map (id : α → α) = id := rfl
  unfold map
  rw [same, Option.map_id, Prod.map_id, List.map_id]
  rfl

theorem map_map {γ : Type} (s : Slot α) (f : α → β) (g : β → γ) :
    (s.map f).map g = s.map (g ∘ f) := by
  unfold map
  rw [Option.map_map, List.map_map]
  rfl

theorem lookup_map (f : α → β) (name : Nat) (handles : List (Nat × α)) :
    (handles.map (Prod.map id f)).lookup name = (handles.lookup name).map f := by
  induction handles with
  | nil => rfl
  | cons h rest ih =>
    rw [List.map_cons, List.lookup_cons, List.lookup_cons, ih, Prod.map_fst, id]
    cases name == h.1 <;> rfl

/-- The reference that is found by its name is the one that is taken away. -/
theorem perm_of_lookup {handles : List (Nat × α)} {name : Nat} {object : α}
    (found : handles.lookup name = some object) :
    handles.Perm ((name, object) :: handles.eraseP (·.1 == name)) := by
  obtain ⟨before, after, rfl, others⟩ := List.lookup_eq_some_iff.mp found
  have left : (before ++ (name, object) :: after).eraseP (·.1 == name) = before ++ after := by
    rw [List.eraseP_append_right, List.eraseP_cons_of_pos]
    · exact beq_self_eq_true name
    · intro h member same
      have other := others h member
      simp_all
  rw [left]
  exact List.perm_middle

/-- An operation treats all objects alike. -/
theorem step_map (s : Slot α) (f : α → β) (fresh : α) (op : ResourceOp) :
    (s.map f).step (f fresh) op = ((s.step fresh op).1.map f, (s.step fresh op).2.map f) := by
  obtain ⟨stored, handles⟩ := s
  cases op with
  | get id name rtype create =>
    cases stored with
    | some o => rfl
    | none => cases create <;> rfl
  | put _ name =>
    have left : (handles.map (Prod.map id f)).eraseP (·.1 == name) =
        (handles.eraseP (·.1 == name)).map (Prod.map id f) := List.eraseP_map ..
    simp only [step, map, lookup_map, left]
    cases handles.lookup name with
    | none => rfl
    | some a =>
      cases stored with
      | none => rfl
      | some o =>
        simp only [Option.map_some, Stored.map]
        split <;> rfl

/-- Nothing comes out of an operation but what was there and the fresh object. -/
theorem Within.step (within : s.Within objects) (new : s.creates op = true → fresh ∈ objects) :
    (s.step fresh op).1.Within objects ∧ (s.step fresh op).2.Within objects := by
  obtain ⟨stored, handles⟩ := s
  cases op with
  | get id name rtype create =>
    cases stored with
    | some o =>
      have known := within.stored o rfl
      exact ⟨known, by rintro _ ⟨⟩; exact known, List.forall_mem_cons.mpr ⟨known, within.handles⟩⟩
    | none =>
      cases create with
      | false => exact ⟨trivial, within⟩
      | true =>
        have known := new rfl
        exact ⟨known, by rintro _ ⟨⟩; exact known, List.forall_mem_cons.mpr ⟨known, within.handles⟩⟩
  | put id name =>
    have left : ∀ h ∈ handles.eraseP (·.1 == name), h.2 ∈ objects :=
      fun h member => within.handles h (List.mem_of_mem_eraseP member)
    simp only [Slot.step]
    cases handles.lookup name with
    | none => exact ⟨trivial, within⟩
    | some a =>
      cases stored with
      | none => exact ⟨trivial, within⟩
      | some o =>
        dsimp only
        split
        · exact ⟨trivial, nofun, left⟩
        · exact ⟨trivial, by rintro _ ⟨⟩; exact within.stored o rfl, left⟩

end Slot

end Lockspace
