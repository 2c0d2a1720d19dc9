import Lockspace.Proofs.Commuting.Slots
import Lockspace.Table

namespace Lockspace

/-- The objects of a run: those that were there before, and those that it makes, each named by its
id and its number among the objects made under that id. -/
inductive Object where
  | old (key : ResourceKey)
  | made (id : ResourceId) (birth : Nat)
deriving DecidableEq

instance : Inhabited Object := ⟨.old ⟨0⟩⟩

/-- The resources that stand for the objects before a run. -/
def Object.start : Object → ResourceKey
  | old key => key
  | made _ birth => ⟨birth⟩

/-- The id of an object, in a run that begins with some table. -/
def Object.idFrom (t : Table) : Object → ResourceId
  | old key => (t.resource key).id
  | made id _ => id

/-- One id during a run, with the number of objects made under it so far. -/
structure Ledger where
  slot : Slot Object
  births : Nat := 0

namespace Ledger

def step (l : Ledger) (op : ResourceOp) : Upshot Object × Ledger :=
  let (upshot, slot) := l.slot.step (.made op.id l.births) op
  (upshot, ⟨slot, if l.slot.creates op then l.births + 1 else l.births⟩)

def run (l : Ledger) : List ResourceOp → List (ResourceOp × Upshot Object) × Ledger
  | [] => ([], l)
  | op :: rest =>
    let (upshot, l) := l.step op
    let (told, l) := l.run rest
    ((op, upshot) :: told, l)

/-- An operation on any of the ids. -/
def stepIn (ledgers : ResourceId → Ledger) (op : ResourceOp) :
    Upshot Object × (ResourceId → Ledger) :=
  let (upshot, l) := (ledgers op.id).step op
  (upshot, Function.update ledgers op.id l)

def runIn (ledgers : ResourceId → Ledger) :
    List ResourceOp → List (ResourceOp × Upshot Object) × (ResourceId → Ledger)
  | [] => ([], ledgers)
  | op :: rest =>
    let (upshot, ledgers) := stepIn ledgers op
    let (told, ledgers) := runIn ledgers rest
    ((op, upshot) :: told, ledgers)

/-- A run does to an id what the operations on that id alone do to it. -/
theorem runIn_filter (ledgers : ResourceId → Ledger) (ops : List ResourceOp) (id : ResourceId) :
    (ledgers id).run (ops.filter (·.id = id)) =
      ((runIn ledgers ops).1.filter (·.1.id = id), (runIn ledgers ops).2 id) := by
  induction ops generalizing ledgers with
  | nil => rfl
  | cons op rest ih =>
    have after := ih (stepIn ledgers op).2
    by_cases here : op.id = id
    · subst here
      have now : (stepIn ledgers op).2 op.id = ((ledgers op.id).step op).2 :=
        Function.update_self ..
      rw [now] at after
      simp only [runIn, List.filter_cons, decide_true, if_true, run, after]
      rfl
    · have same : (stepIn ledgers op).2 id = ledgers id := Function.update_of_ne (Ne.symm here) ..
      rw [same] at after
      simp only [runIn, List.filter_cons, here, decide_false, Bool.false_eq_true, if_false, after]

/-- Two runs of the same operations, in the same order on every id, have the same upshots and end
alike. -/
theorem runIn_of_same {ops ops' : List ResourceOp} (ledgers : ResourceId → Ledger)
    (same : ∀ id, ops'.filter (·.id = id) = ops.filter (·.id = id)) :
    (runIn ledgers ops').2 = (runIn ledgers ops).2 ∧
      ∀ id, (runIn ledgers ops').1.filter (·.1.id = id) =
        (runIn ledgers ops).1.filter (·.1.id = id) := by
  have each : ∀ id, ((runIn ledgers ops').1.filter (·.1.id = id), (runIn ledgers ops').2 id) =
      ((runIn ledgers ops).1.filter (·.1.id = id), (runIn ledgers ops).2 id) := by
    intro id
    rw [← runIn_filter, ← runIn_filter, same]
  exact ⟨funext fun id => congrArg Prod.snd (each id), fun id => congrArg Prod.fst (each id)⟩

/-- The objects that are known at a point of a run that began with so many resources. -/
def known (first : Nat) (ledgers : ResourceId → Ledger) : Set Object
  | .old key => key.index < first
  | .made id birth => birth < (ledgers id).births

/-- How the resources that a table has made stand for the objects of a run, and its slots for what
the run has under each id. -/
structure Places (first now : Nat) (slots : ResourceId → Slot ResourceKey)
    (ledgers : ResourceId → Ledger) (place : Object → ResourceKey) : Prop where
  bij : Set.BijOn place (known first ledgers) {key | key.index < now}
  old : ∀ key, place (.old key) = key
  within : ∀ id, (ledgers id).slot.Within (known first ledgers)
  slots : ∀ id, slots id = (ledgers id).slot.map place

variable {first now : Nat} {slots : ResourceId → Slot ResourceKey} {ledgers : ResourceId → Ledger}
  {place : Object → ResourceKey} {op : ResourceOp}

theorem births_stepIn (id : ResourceId) : ((stepIn ledgers op).2 id).births =
    (ledgers id).births + if id = op.id ∧ (ledgers id).slot.creates op = true then 1 else 0 := by
  by_cases here : id = op.id
  · subst here
    simp only [stepIn, step, Function.update_self, true_and]
    cases (ledgers op.id).slot.creates op <;> rfl
  · simp only [stepIn, Function.update_of_ne here, here, false_and, if_false, Nat.add_zero]

/-- An operation that makes no object leaves the known ones as they are. -/
theorem known_stepIn_of_kept (kept : (ledgers op.id).slot.creates op = false) :
    known first (stepIn ledgers op).2 = known first ledgers := by
  have births : ∀ id, ((stepIn ledgers op).2 id).births = (ledgers id).births := by
    intro id
    rw [births_stepIn, if_neg]
    · rfl
    · rintro ⟨rfl, made⟩
      rw [kept] at made
      cases made
  ext o
  cases o with
  | old key => rfl
  | made id birth =>
    show birth < _ ↔ birth < _
    rw [births]

/-- One that makes an object adds it to the known ones. -/
theorem known_stepIn_of_made (made : (ledgers op.id).slot.creates op = true) :
    known first (stepIn ledgers op).2 =
      insert (.made op.id (ledgers op.id).births) (known first ledgers) := by
  ext o
  cases o with
  | old key =>
    rw [Set.mem_insert_iff, or_iff_right nofun]
    rfl
  | made id birth =>
    rw [Set.mem_insert_iff, Object.made.injEq]
    show birth < _ ↔ _ ∨ birth < _
    rw [births_stepIn]
    by_cases here : id = op.id
    · subst here
      rw [if_pos ⟨rfl, made⟩, Nat.lt_succ_iff_lt_or_eq, or_comm]
      simp
    · rw [if_neg fun both => here both.1]
      simp [here]

theorem known_subset_stepIn (first : Nat) (ledgers : ResourceId → Ledger) (op : ResourceOp) :
    known first ledgers ⊆ known first (stepIn ledgers op).2 := by
  cases made : (ledgers op.id).slot.creates op with
  | false => rw [known_stepIn_of_kept made]
  | true =>
    rw [known_stepIn_of_made made]
    exact Set.subset_insert ..

/-- An object that an operation makes was not known before. -/
theorem fresh_notMem_known : .made op.id (ledgers op.id).births ∉ known first ledgers :=
  lt_irrefl (ledgers op.id).births

/-- What comes of an operation, and what is then under its id, is known. -/
theorem within_stepIn (op : ResourceOp)
    (within : ∀ id, (ledgers id).slot.Within (known first ledgers)) :
    (stepIn ledgers op).1.Within (known first (stepIn ledgers op).2) ∧
      ∀ id, ((stepIn ledgers op).2 id).slot.Within (known first (stepIn ledgers op).2) := by
  have wider := known_subset_stepIn first ledgers op
  have made : (ledgers op.id).slot.creates op = true →
      .made op.id (ledgers op.id).births ∈ known first (stepIn ledgers op).2 := by
    intro made
    rw [known_stepIn_of_made made]
    exact Set.mem_insert ..
  have here := ((within op.id).mono wider).step made
  refine ⟨here.1, fun id => ?_⟩
  by_cases same : id = op.id
  · subst same
    simp only [stepIn, step, Function.update_self]
    exact here.2
  · simp only [stepIn, Function.update_of_ne same]
    exact (within id).mono wider

theorem map_fst_runIn (ops : List ResourceOp) : (runIn ledgers ops).1.map Prod.fst = ops := by
  induction ops generalizing ledgers with
  | nil => rfl
  | cons op rest ih => exact congrArg (op :: ·) ih

/-- All that comes of a run is known at its end, and so is all that was known before. -/
theorem within_runIn (ops : List ResourceOp)
    (within : ∀ id, (ledgers id).slot.Within (known first ledgers)) :
    known first ledgers ⊆ known first (runIn ledgers ops).2 ∧
      ∀ e ∈ (runIn ledgers ops).1, e.2.Within (known first (runIn ledgers ops).2) := by
  induction ops generalizing ledgers with
  | nil => exact ⟨Set.Subset.rfl, nofun⟩
  | cons op rest ih =>
    obtain ⟨upshot, within⟩ := within_stepIn op within
    obtain ⟨wider, told⟩ := ih within
    exact ⟨(known_subset_stepIn first ledgers op).trans wider,
      List.forall_mem_cons.mpr ⟨upshot.mono wider, told⟩⟩

/-- Where the objects stand after an operation: for one that it makes, that is the next resource. -/
def placed (ledgers : ResourceId → Ledger) (place : Object → ResourceKey) (now : Nat)
    (op : ResourceOp) : Object → ResourceKey :=
  Function.update place (.made op.id (ledgers op.id).births) ⟨now⟩

theorem placed_made (ledgers : ResourceId → Ledger) (place : Object → ResourceKey) (now : Nat)
    (op : ResourceOp) :
    placed ledgers place now op (.made op.id (ledgers op.id).births) = ⟨now⟩ :=
  Function.update_self ..

theorem eqOn_placed (now : Nat) (op : ResourceOp) :
    (known first ledgers).EqOn place (placed ledgers place now op) := by
  intro o member
  refine (Function.update_of_ne ?_ ..).symm
  rintro rfl
  exact fresh_notMem_known member

namespace Places

variable (places : Places first now slots ledgers place) (op : ResourceOp)

include places

theorem step_eq : (slots op.id).step ⟨now⟩ op =
    ((stepIn ledgers op).1.map (placed ledgers place now op),
      ((stepIn ledgers op).2 op.id).slot.map (placed ledgers place now op)) := by
  rw [places.slots, Slot.map_congr (places.within op.id) (eqOn_placed now op),
    ← placed_made ledgers place now op, Slot.step_map]
  simp only [stepIn, step, Function.update_self]

theorem step : Places first (now + if (slots op.id).creates op then 1 else 0)
    (Function.update slots op.id ((slots op.id).step ⟨now⟩ op).2) (stepIn ledgers op).2
    (placed ledgers place now op) := by
  refine ⟨?_, fun key => ?_, (within_stepIn op places.within).2, fun id => ?_⟩
  · have before := places.bij.congr (eqOn_placed now op)
    rw [places.slots, Slot.creates_map]
    cases made : (ledgers op.id).slot.creates op with
    | false =>
      rw [known_stepIn_of_kept made]
      exact before
    | true =>
      have fresh := placed_made ledgers place now op
      have more : {key : ResourceKey | key.index < now + 1} =
          insert ⟨now⟩ {key : ResourceKey | key.index < now} := by
        ext ⟨i⟩
        rw [Set.mem_insert_iff, Key.mk.injEq]
        exact Nat.lt_succ_iff_lt_or_eq.trans or_comm
      rw [known_stepIn_of_made made, if_pos rfl, more, ← fresh]
      refine before.insert ?_
      rw [fresh]
      exact lt_irrefl now
  · have other : Object.old key ≠ .made op.id (ledgers op.id).births := nofun
    exact (Function.update_of_ne other ..).trans (places.old key)
  · by_cases here : id = op.id
    · subst here
      rw [Function.update_self, places.step_eq]
    · have same : (stepIn ledgers op).2 id = ledgers id := Function.update_of_ne here ..
      rw [Function.update_of_ne here, places.slots, same]
      exact Slot.map_congr (places.within id) (eqOn_placed now op)

end Places

end Ledger

end Lockspace
