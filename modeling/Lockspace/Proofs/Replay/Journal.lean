import Lockspace.Manager.Resources
import Mathlib.Data.Finset.Card
import Mathlib.Data.Finset.Image

namespace Lockspace

/-- What the policy of a namespace is told about a resource or its bucket, with the reference count
of the namespace and the number of its resources at that moment. -/
structure Report where
  event : ResourceEvent
  id : ResourceId
  bucket : BucketKey
  bref : Nat
  count : Nat
deriving DecidableEq

/-- What a call to a collaborator reports about the resources of a namespace. -/
def Callback.report? (n : SpaceKey) : Callback → Option Report
  | resource k event desc bucket bref count =>
    if k = n then some ⟨event, desc.id, bucket, bref, count⟩ else none
  | _ => none

/-- What the policy of a namespace was told about its resources, in order. -/
def Manager.reports (m : Manager) (n : SpaceKey) : List Report :=
  m.trace.toList.filterMap (·.report? n)

/-- Whether a report says that a bucket was occupied or emptied. -/
def Report.turns (b : BucketKey) (e : Report) : Bool :=
  e.bucket = b && (e.event = .bucketOccupied || e.event = .bucketEmptied)

/-- What reports say of a table: the ids that are in it, and the buckets that are occupied. -/
structure Journal where
  ids : Finset ResourceId := ∅
  buckets : Finset BucketKey := ∅

namespace Journal

def note (j : Journal) (e : Report) : Journal :=
  match e.event with
  | .created => { j with ids := insert e.id j.ids }
  | .freed => { j with ids := j.ids.erase e.id }
  | .bucketOccupied => { j with buckets := insert e.bucket j.buckets }
  | .bucketEmptied => { j with buckets := j.buckets.erase e.bucket }

def noteAll (j : Journal) (reports : List Report) : Journal :=
  reports.foldl note j

/-- The journal of all reports from the beginning. -/
def replay (reports : List Report) : Journal :=
  noteAll {} reports

/-- The number of buckets that the ids of a journal lie in. -/
def occupied (j : Journal) (bucketOf : ResourceId → BucketKey) : Nat :=
  (j.ids.image bucketOf).card

/-- A report makes sense after a journal: nothing is created or occupied twice, and what is freed or
emptied was there. -/
def Admits (j : Journal) (e : Report) : Prop :=
  match e.event with
  | .created => e.id ∉ j.ids
  | .freed => e.id ∈ j.ids
  | .bucketOccupied => e.bucket ∉ j.buckets
  | .bucketEmptied => e.bucket ∈ j.buckets

/-- A property of each report of a list, after the journal of all that came before it. -/
def Each (P : Journal → Report → Prop) (j : Journal) (reports : List Report) : Prop :=
  ∀ before e after, reports = before ++ e :: after → P (j.noteAll before) e

variable {P Q : Journal → Report → Prop} {j : Journal} {e : Report} {first second : List Report}

theorem noteAll_append : j.noteAll (first ++ second) = (j.noteAll first).noteAll second :=
  List.foldl_append

theorem replay_append : replay (first ++ second) = (replay first).noteAll second :=
  noteAll_append

theorem replay_concat : replay (first ++ [e]) = (replay first).note e :=
  replay_append

theorem Each.nil : Each P j [] := by
  intro before e after split
  exact absurd split.symm (by simp)

theorem each_append :
    Each P j (first ++ second) ↔ Each P j first ∧ Each P (j.noteAll first) second := by
  constructor
  · intro each
    refine ⟨fun before e after split => ?_, fun before e after split => ?_⟩
    · exact each before e (after ++ second) (by simp [split])
    · have there := each (first ++ before) e after (by simp [split])
      rwa [noteAll_append] at there
  · rintro ⟨early, late⟩ before e after split
    rcases List.append_eq_append_iff.mp split with ⟨more, rfl, rest⟩ | ⟨rest, rfl, more⟩
    · rw [noteAll_append]
      exact late more e after rest
    · cases rest with
      | nil =>
        have here := late [] e after more.symm
        rwa [List.append_nil] at here
      | cons next rest =>
        obtain ⟨rfl, -⟩ := List.cons.inj more
        exact early before e rest rfl

theorem each_singleton : Each P j [e] ↔ P j e := by
  constructor
  · exact fun each => each [] e [] rfl
  · intro holds before other after split
    obtain ⟨rfl, rfl, -⟩ := by simpa using (List.append_eq_singleton_iff.mp split.symm)
    exact holds

theorem Each.imp (each : Each P j first) (weaker : ∀ j e, P j e → Q j e) : Each Q j first :=
  fun before e after split => weaker _ e (each before e after split)

/-- As many ids are in the table as were created and not freed since. -/
theorem card_add_countP_freed {reports : List Report} (admitted : Each Admits {} reports) :
    (replay reports).ids.card + reports.countP (·.event = .freed) =
      reports.countP (·.event = .created) := by
  induction reports using List.reverseRecOn with
  | nil => rfl
  | append_singleton before e ih =>
    obtain ⟨early, last⟩ := each_append.mp admitted
    have admits : (replay before).Admits e := each_singleton.mp last
    specialize ih early
    rw [replay_concat, List.countP_append, List.countP_append, List.countP_singleton,
      List.countP_singleton]
    cases event : e.event with
    | created =>
      simp only [Admits, event] at admits
      simp only [note, event, Finset.card_insert_of_notMem admits]
      simp
      omega
    | freed =>
      simp only [Admits, event] at admits
      have some := Finset.card_pos.mpr ⟨_, admits⟩
      simp only [note, event, Finset.card_erase_of_mem admits]
      simp
      omega
    | bucketOccupied =>
      simp only [note, event]
      simpa using ih
    | bucketEmptied =>
      simp only [note, event]
      simpa using ih

theorem mem_buckets_note_of_still {b : BucketKey} (still : e.turns b = false) :
    b ∈ (j.note e).buckets ↔ b ∈ j.buckets := by
  have other : e.event = .bucketOccupied ∨ e.event = .bucketEmptied → b ≠ e.bucket := by
    rintro turns rfl
    have now : e.turns e.bucket = true := by simpa [Report.turns] using turns
    rw [now] at still
    cases still
  cases event : e.event with
  | created => simp only [note, event]
  | freed => simp only [note, event]
  | bucketOccupied => simp [note, event, other (Or.inl event)]
  | bucketEmptied => simp [note, event, other (Or.inr event)]

/-- A report about a bucket turns it to what it was not. -/
theorem mem_buckets_note_of_turns {b : BucketKey} (admits : j.Admits e) (turns : e.turns b = true) :
    (b ∈ (j.note e).buckets ↔ b ∉ j.buckets) ∧
      e.event = if b ∈ j.buckets then .bucketEmptied else .bucketOccupied := by
  simp only [Report.turns, Bool.and_eq_true, decide_eq_true_eq, Bool.or_eq_true] at turns
  obtain ⟨rfl, event | event⟩ := turns
  · simp only [Admits, event] at admits
    simp [note, event, admits]
  · simp only [Admits, event] at admits
    simp [note, event, admits]

/-- The reports about a bucket alternate, and an odd number of them leaves it occupied. -/
theorem turns_alternate {reports : List Report} (admitted : Each Admits {} reports)
    (b : BucketKey) :
    (b ∈ (replay reports).buckets ↔ (reports.filter (·.turns b)).length % 2 = 1) ∧
      ∀ i e, (reports.filter (·.turns b))[i]? = some e →
        e.event = if i % 2 = 0 then .bucketOccupied else .bucketEmptied := by
  induction reports using List.reverseRecOn with
  | nil => simp [replay, noteAll]
  | append_singleton before e ih =>
    obtain ⟨early, last⟩ := each_append.mp admitted
    obtain ⟨parity, old⟩ := ih early
    rw [replay_concat, List.filter_append]
    cases turns : e.turns b with
    | false =>
      have still : [e].filter (·.turns b) = [] := by simp [turns]
      rw [mem_buckets_note_of_still turns, still, List.append_nil]
      exact ⟨parity, old⟩
    | true =>
      have new : [e].filter (·.turns b) = [e] := by simp [turns]
      obtain ⟨turned, event⟩ := mem_buckets_note_of_turns (each_singleton.mp last) turns
      change (b ∈ ((replay before).note e).buckets ↔ b ∉ (replay before).buckets) at turned
      change e.event = if b ∈ (replay before).buckets then _ else _ at event
      rw [new, List.length_append, List.length_singleton]
      refine ⟨?_, fun i other found => ?_⟩
      · rw [turned, parity]
        omega
      · rcases Nat.lt_trichotomy i (before.filter (·.turns b)).length with inside | rfl | past
        · rw [List.getElem?_append_left inside] at found
          exact old i other found
        · rw [List.getElem?_concat_length] at found
          obtain rfl := Option.some.inj found
          rw [event]
          simp only [parity]
          split
          · rw [if_neg (by omega)]
          · rw [if_pos (by omega)]
        · rw [List.getElem?_eq_none (by rw [List.length_append, List.length_singleton]; omega)]
            at found
          cases found

end Journal

end Lockspace
