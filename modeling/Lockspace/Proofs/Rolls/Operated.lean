import Lockspace.Proofs.Queueing.Books
import Lockspace.Proofs.ResourceRuns
import Lockspace.Proofs.Rolls.Aloof
import Lockspace.Proofs.Rolls.Enrolled
import Lockspace.Proofs.TableListing

namespace Lockspace

open Manager Act

namespace Manager

/-- Every resource in a table is the one on which a handle was given out, or was there before with
as many references. -/
def HandsOut (m : Manager) (answer : Except Fault (Except LockError ResourceRef)) (m' : Manager) :
    Prop :=
  ∀ r, m'.Hashes r → answer = .ok (.ok r) ∧ (m'.resource r).refcount ≠ 0 ∨
    m.Hashes r ∧ (m'.resource r).refcount = (m.resource r).refcount

/-- A call for a resource would bring the first one into the table of a client that was freed. -/
structure Revives (m : Manager) (n : SpaceKey) (id : ResourceId) (create : Bool) : Prop where
  creates : create = true
  client : (m.space n).side = .client
  freed : (m.space n).freed = true
  unused : (m.space n).table.bref = 0
  empty : ((m.space n).table.bucket ((m.space n).table.bucketOf id)).entries = []

/-- A resource of an id comes into the table of a namespace, with one reference. It may be the first
one of its bucket. -/
structure Enters (m : Manager) (n : SpaceKey) (id : ResourceId) (r : ResourceRef) (first : Bool)
    (m' : Manager) : Prop where
  key : r = ⟨n, (m.space n).table.resources.nextKey⟩
  tables : ∃ candidate : Resource, candidate.id = id ∧ candidate.refcount = 1 ∧
    ∀ k, (m'.space k).table = if k = n
      then (m.space n).table.enter ((m.space n).table.bucketOf id) candidate
      else (m.space k).table
  first : first = true ↔ ((m.space n).table.bucket ((m.space n).table.bucketOf id)).entries = []
  roll : SameRoll m m'

variable {m m' : Manager} {n : SpaceKey} {t : Table}

theorem table_retabled (m : Manager) (n : SpaceKey) (t : Table) (k : SpaceKey) :
    ((m.setTable n t).space k).table = if k = n then t else (m.space k).table := by
  rw [setTable, space_modifySpace]
  split <;> rfl

/-- A table that gives out one resource, and keeps the others as they are. -/
theorem HandsOut.of_table {key : ResourceKey}
    (tables : ∀ k, (m'.space k).table = if k = n then t else (m.space k).table)
    (referenced : (t.resource key).refcount ≠ 0)
    (others : ∀ k, k ≠ key → t.resource k = (m.space n).table.resource k)
    (entries : ∀ b id k, k ≠ key → (id, k) ∈ (t.bucket b).entries →
      (id, k) ∈ ((m.space n).table.bucket b).entries) :
    m.HandsOut (.ok (.ok ⟨n, key⟩)) m' := by
  rintro ⟨home, k⟩ ⟨b, id, member⟩
  have table := tables home
  unfold Manager.resource
  rw [table] at member ⊢
  by_cases here : home = n
  · subst here
    rw [if_pos rfl] at member ⊢
    by_cases same : k = key
    · subst same
      exact Or.inl ⟨rfl, referenced⟩
    · exact Or.inr ⟨⟨b, id, entries b id k same member⟩, by rw [others k same]⟩
  · rw [if_neg here] at member ⊢
    exact Or.inr ⟨⟨b, id, member⟩, rfl⟩

/-- Where all tables stay as they are, nothing is given out. -/
theorem HandsOut.of_same (answer : Except Fault (Except LockError ResourceRef))
    (same : ∀ k, (m'.space k).table = (m.space k).table) : m.HandsOut answer m' := by
  rintro ⟨home, k⟩ ⟨b, id, member⟩
  unfold Manager.resource
  rw [same home] at member ⊢
  exact Or.inr ⟨⟨b, id, member⟩, rfl⟩

namespace Enters

variable {m₁ : Manager} {id : ResourceId} {r : ResourceRef} {first : Bool}

theorem handsOut (enters : m.Enters n id r first m₁)
    (absent : ((m.space n).table.bucket ((m.space n).table.bucketOf id)).find? id = none)
    (same : ∀ k, (m'.space k).table = (m₁.space k).table) : m.HandsOut (.ok (.ok r)) m' := by
  obtain ⟨rfl, ⟨candidate, rfl, once, tables⟩, -, -⟩ := enters
  refine .of_table (fun k => (same k).trans (tables k)) ?_ (fun k other => ?_)
    fun b id k other member => ?_
  · rw [Table.resource_enter, if_pos rfl, once]
    exact Nat.one_ne_zero
  · rw [Table.resource_enter, if_neg other]
  · rcases (Table.mem_bucket_enter absent).mp member with old | ⟨-, new⟩
    · exact old
    · cases new
      exact absurd rfl other

/-- The first resource of a bucket takes a reference of the table. -/
theorem bref (enters : m.Enters n id r true m₁) :
    (m₁.space n).table.bref = (m.space n).table.bref + 1 := by
  obtain ⟨-, ⟨candidate, rfl, -, tables⟩, first, -⟩ := enters
  have empty := first.mp rfl
  have one : (((m.space n).table.bucket ((m.space n).table.bucketOf candidate.id)).put candidate.id
      (m.space n).table.resources.nextKey).entries.length = 1 := by
    simp [Bucket.put, empty]
  rw [tables, if_pos rfl, Table.enter, if_pos one]

end Enters

end Manager

namespace Act

variable {m : Manager} {n : SpaceKey} {id : ResourceId} {rtype : ResourceType} {create : Bool}

/-- Where a bucket holds the id, the resource there is given out, unless it lost its references. -/
theorem leaves_getOrCreate_of_find? {key : ResourceKey} (named : id.seq ≠ 0)
    (found : ((m.space n).table.bucket ((m.space n).table.bucketOf id)).find? id = some key) :
    (getOrCreate n id rtype create).Leaves m fun answer m' =>
      Calm answer ∧ m.HandsOut answer m' := by
  by_cases lost : ((m.space n).table.resource key).refcount = 0
  · exact leaves_of_error (run_getOrCreate_of_lost named found lost)
      ⟨.error rfl, .of_same _ fun _ => rfl⟩
  · refine leaves_of_run (run_getOrCreate_of_find? named found (Nat.pos_of_ne_zero lost))
      ⟨.ok _, .of_table (m.table_retabled n _) ?_ (fun k other => ?_) fun b id k _ old => old⟩
    · rw [Table.resource_recount, if_pos rfl]
      exact Nat.succ_ne_zero _
    · rw [Table.resource_recount, if_neg other]

/-- An id that is missing is told to be, where it is not to be created. -/
theorem leaves_getOrCreate_of_missing (named : id.seq ≠ 0)
    (absent : ((m.space n).table.bucket ((m.space n).table.bucketOf id)).find? id = none) :
    (getOrCreate n id rtype false).Leaves m fun answer m' =>
      Calm answer ∧ m.HandsOut answer m' := by
  refine leaves_of_run (run_getOrCreate_of_missing named absent) ⟨.ok _, .of_same _ fun k => ?_⟩
  rw [table_retabled]
  split
  · rename_i here
    rw [here]
  · rfl

/-- An id that is missing is inserted and announced, where it may be created. -/
theorem run_getOrCreate_of_absent (rtype : ResourceType) (named : id.seq ≠ 0)
    (absent : ((m.space n).table.bucket ((m.space n).table.bucketOf id)).find? id = none) :
    ∃ r first m₁, m.Enters n id r first m₁ ∧ getOrCreate n id rtype true m = (do
      announce r first (m₁.space n).table.bref
      return .ok r : Act (Except LockError ResourceRef)) m₁ := by
  refine ⟨_, _, m.entered n id rtype, ⟨rfl, ⟨_, rfl, rfl, m.table_retabled n _⟩,
    List.isEmpty_iff, (sameRoll_setTable _ m).of_ok rfl⟩, ?_⟩
  exact run_getOrCreate_of_entered rtype named absent

/-- An announcement that moves no namespace only tells. -/
theorem run_announce_of_still (key : ResourceKey) {first : Bool} {bref : Nat}
    (still : first = true → bref = 1 → (m.space n).side ≠ .client) :
    ∃ m', announce ⟨n, key⟩ first bref m = .ok () m' := by
  unfold announce
  cases first with
  | false => exact ⟨_, rfl⟩
  | true =>
    obtain ⟨trace, told⟩ := run_emit ⟨n, key⟩ .created m
    obtain ⟨trace', told'⟩ := run_emit ⟨n, key⟩ .bucketOccupied { m with trace }
    rw [run_bind told, if_pos rfl, run_bind told', run_bind (run_space n _)]
    have stays : ¬ (decide (bref = 1) && (m.space n).isClient) = true := by
      intro moves
      obtain ⟨one, client⟩ := Bool.and_eq_true_iff.mp moves
      refine still rfl (of_decide_eq_true one) ?_
      unfold Namespace.isClient at client
      cases side : (m.space n).side with
      | client => rfl
      | server => rw [side] at client; cases client
    exact ⟨_, congrFun (if_neg stays) _⟩

/-- An announcement succeeds where a namespace is on a list, or need not get onto another. -/
theorem run_announce_of_listed (listed : m.Listed) (key : ResourceKey) {first : Bool} {bref : Nat}
    (still : first = true → bref = 1 → (m.space n).side = .client → (m.space n).link ≠ .detached) :
    ∃ m', announce ⟨n, key⟩ first bref m = .ok () m' ∧
      ∀ k, (m'.space k).table = (m.space k).table := by
  have runs : ∃ m', announce ⟨n, key⟩ first bref m = .ok () m' := by
    by_cases off : (m.space n).link = .detached
    · exact run_announce_of_still key fun occupies one client => still occupies one client off
    · obtain ⟨_, m', run, -⟩ := (ends_announce (listed.placed n) off key first bref).exists_run
      exact ⟨m', run⟩
  obtain ⟨m', run⟩ := runs
  exact ⟨m', run, fun k => ((quiet_announce first bref m).of_ok run : Agrees k m m').table⟩

/-- A call for a resource gives one out or changes no table, and no assertion of the registry fails,
unless it would revive a client that was freed. -/
theorem leaves_getOrCreate (listed : m.Listed)
    (linked : (m.space n).link = .detached → (m.space n).freed = true)
    (safe : ¬ m.Revives n id create) : (getOrCreate n id rtype create).Leaves m fun answer m' =>
      Calm answer ∧ m.HandsOut answer m' := by
  by_cases named : id.seq = 0
  · unfold getOrCreate
    rw [if_pos named]
    exact ⟨.error rfl, .of_same _ fun _ => rfl⟩
  cases found : ((m.space n).table.bucket ((m.space n).table.bucketOf id)).find? id with
  | some key => exact leaves_getOrCreate_of_find? named found
  | none =>
    cases create with
    | false => exact leaves_getOrCreate_of_missing named found
    | true =>
      obtain ⟨r, first, m₁, enters, onward⟩ := run_getOrCreate_of_absent rtype named found
      have stays : first = true → (m₁.space n).table.bref = 1 → (m₁.space n).side = .client →
          (m₁.space n).link ≠ .detached := by
        rintro rfl one client off
        rw [enters.roll.link] at off
        refine safe ⟨rfl, (enters.roll.side n).symm.trans client, linked off, ?_, enters.first.mp rfl⟩
        exact Nat.succ_injective (enters.bref.symm.trans one)
      obtain rfl := enters.key
      obtain ⟨m', announced, same⟩ :=
        run_announce_of_listed (enters.roll.shuffled.listed listed) _ stays
      refine leaves_of_run (onward.trans ((run_bind announced).trans rfl)) ⟨.ok _, ?_⟩
      exact enters.handsOut found same

/-- A client that is on no list does not get onto one for its first resource. -/
theorem run_announce_of_detached (key : ResourceKey) (client : (m.space n).side = .client)
    (off : (m.space n).link = .detached) :
    ∃ m', announce ⟨n, key⟩ true 1 m = .error (.notRegistered (m.space n).name) m' ∧
      ∀ k, (m'.space k).table = (m.space k).table := by
  obtain ⟨trace, told⟩ := run_emit ⟨n, key⟩ .created m
  obtain ⟨trace', told'⟩ := run_emit ⟨n, key⟩ .bucketOccupied { m with trace }
  have moves : (decide (1 = 1) && (m.space n).isClient) = true := by
    simp [Namespace.isClient, client, Side.isClient]
  refine ⟨{ m with trace := trace' }, ?_, fun _ => rfl⟩
  unfold announce
  rw [run_bind told, if_pos rfl, run_bind told', run_bind (run_space n _)]
  refine (congrFun (if_pos moves) _).trans ?_
  unfold moveTo
  rw [run_bind (run_space n _)]
  have side : (Manager.space { m with trace := trace' } n).side = .client := client
  have link : (Manager.space { m with trace := trace' } n).link = .detached := off
  simp only [side, link, ne_eq, not_true_eq_false, if_false, if_true]
  rfl

/-- A call that revives a client that was freed leaves its resource in the table, with a reference
that nobody has. -/
theorem run_getOrCreate_of_revives (rtype : ResourceType) (named : id.seq ≠ 0)
    (off : (m.space n).link = .detached) (revives : m.Revives n id create) :
    ∃ name m', getOrCreate n id rtype create m = .error (.notRegistered name) m' ∧
      ∃ r, m'.Hashes r ∧ (m'.resource r).refcount = 1 := by
  obtain ⟨rfl, client, -, unused, empty⟩ := revives
  have absent : ((m.space n).table.bucket ((m.space n).table.bucketOf id)).find? id = none := by
    rw [Bucket.find?, empty]
    rfl
  obtain ⟨r, first, m₁, enters, onward⟩ := run_getOrCreate_of_absent rtype named absent
  obtain rfl := enters.first.mpr empty
  obtain rfl := enters.key
  have one := enters.bref
  rw [unused] at one
  obtain ⟨m', failed, same⟩ := run_announce_of_detached (m.space n).table.resources.nextKey
    ((enters.roll.side n).trans client) ((enters.roll.link n).trans off)
  rw [one, run_bind_error failed] at onward
  obtain ⟨candidate, rfl, once, tables⟩ := enters.tables
  have table := (same n).trans ((tables n).trans (if_pos rfl))
  refine ⟨_, m', onward, ⟨n, (m.space n).table.resources.nextKey⟩,
    ⟨(m.space n).table.bucketOf candidate.id, candidate.id, ?_⟩, ?_⟩
  · rw [table]
    exact (Table.mem_bucket_enter absent).mpr (Or.inr ⟨rfl, rfl⟩)
  · show ((m'.space n).table.resource _).refcount = 1
    rw [table, Table.resource_enter, if_pos rfl, once]

end Act

/-- The namespaces that were set up are those that the registry has had. -/
def Manager.Enrols (m : Manager) (built : List SpaceKey) : Prop :=
  ∃ roll : Roll, roll.Matches m ∧ roll.built = built

variable {policy : LockPolicy} {m m' : Manager} {n : SpaceKey} {built : List SpaceKey}

theorem Manager.Enrols.listed (enrols : m.Enrols built) : m.Listed := by
  obtain ⟨_, matched, -⟩ := enrols
  exact matched.listed

theorem Manager.Enrols.detached (enrols : m.Enrols built) (known : n ∈ built) :
    (m.space n).link = .detached ↔ (m.space n).freed = true := by
  obtain ⟨_, matched, rfl⟩ := enrols
  rw [matched.detached]
  exact or_iff_right (not_not_intro known)

theorem Manager.Enrols.shuffled (enrols : m.Enrols built) (moves : Shuffled m m') :
    m'.Enrols built :=
  enrols.imp fun _ known => ⟨known.1.shuffled moves, known.2⟩

namespace Act

variable {α β : Type}

/-- An action that leaves a registry as one of its namespaces, and fails none of its assertions. -/
def Enrolling (act : Act α) (built : List SpaceKey) : Prop :=
  ∀ m : Manager, m.Enrols built → act.Leaves m fun answer m' => m'.Enrols built ∧ Calm answer

theorem Aloof.enrolling {act : Act α} (aloof : act.Aloof) : act.Enrolling built :=
  fun m enrols => (aloof m).imp fun _ _ leaves => ⟨enrols.shuffled leaves.1, leaves.2⟩

theorem Enrolling.bind {act : Act α} {next : α → Act β} (first : act.Enrolling built)
    (second : ∀ a, (next a).Enrolling built) : (act >>= next).Enrolling built := by
  intro m enrols
  refine (first m enrols).bind (fun a m₁ before => second a m₁ before.1) fun fault m₁ before => ?_
  exact ⟨before.1, .error (before.2 fault rfl)⟩

theorem Enrolling.discard {act : Act α} (enrolling : act.Enrolling built) :
    (discard act : Act Unit).Enrolling built := by
  show (act >>= fun _ => pure ()).Enrolling built
  exact enrolling.bind fun _ => (aloof_pure _).enrolling

theorem enrolling_freePost (known : n ∈ built) : (freePost n).Enrolling built := by
  rintro m ⟨roll, matched, rfl⟩
  rcases freePost_cases matched.listed (matched.alive_ne_zero known) with
    ⟨m', run, -⟩ | ⟨-, ⟨m', run, -⟩ | ⟨fault, m', run, ⟨-, m₁, final⟩, -⟩⟩
  · exact leaves_of_run run ⟨⟨_, matched.kept_of_run known run, rfl⟩, .ok _⟩
  · exact leaves_of_run run ⟨⟨_, matched.freed_of_run known run, rfl⟩, .ok _⟩
  · refine leaves_of_error run ⟨⟨_, matched.torn_of_run known run, rfl⟩, .error ?_⟩
    exact ((aloof_finalizeUnused m₁).of_error final).2 fault rfl

theorem enrolling_free (known : n ∈ built) : (Teardown.free n).Enrolling built := by
  refine (enrolling_freePost known).bind fun freed => Aloof.enrolling ?_
  cases freed with
  | true => exact aloof_pure _
  | false =>
    refine aloof_space.bind fun s => ?_
    show (if _ then _ else _ : Act _).Aloof
    split <;> exact aloof_pure _

end Act

namespace Task

variable {t : Task}

theorem enrolling_afterFree (known : n ∈ built) (turn : Turn Teardown (Except LockError Unit)) :
    (afterFree n turn).Enrolling built := by
  cases turn with
  | returns result =>
    cases result with
    | ok _ => exact (enrolling_free known).bind fun _ => (aloof_pure _).enrolling
    | error e => exact (aloof_pure _).enrolling
  | _ => exact (aloof_pure _).enrolling

theorem enrolling_turn (aloof : policy.Aloof) (known : t.space ∈ built) :
    (t.turn policy).Enrolling built := by
  cases t with
  | cleanup c =>
    exact ((Cleanup.aloof_turn aloof).bind fun turn => by cases turn <;> exact aloof_pure _).enrolling
  | waitIdle n w =>
    refine (aloof_space.bind fun s => ?_).enrolling
    cases w.poll s <;> exact aloof_pure _
  | prior t => exact ((Teardown.aloof_turn aloof).bind fun _ => aloof_pure _).enrolling
  | free t => exact (Teardown.aloof_turn aloof).enrolling.bind fun _ => enrolling_afterFree known _
  | cancel v last =>
    refine (VictimCancel.aloof_turn.bind fun turn => ?_).enrolling
    cases turn with
    | returns count => exact (aloof_endResize last).bind fun _ => aloof_pure _
    | _ => exact aloof_pure _

theorem enrolling_expired (known : t.space ∈ built) : t.expired.Enrolling built := by
  cases t with
  | prior t => exact (Teardown.aloof_expired.bind fun _ => aloof_pure _).enrolling
  | free t => exact Teardown.aloof_expired.enrolling.bind fun _ => enrolling_afterFree known _
  | _ => exact (aloof_pure _).enrolling

theorem aloof_answered (l : LockKey) (failure : Option LockError) : (t.answered l failure).Aloof := by
  cases t with
  | cleanup c => exact (Cleanup.aloof_answered failure).bind fun _ => aloof_pure _
  | waitIdle n w => exact aloof_pure _
  | prior t => exact (Teardown.aloof_answered failure).bind fun _ => aloof_pure _
  | free t => exact (Teardown.aloof_answered failure).bind fun _ => aloof_pure _
  | cancel v last => exact (VictimCancel.aloof_answered failure).bind fun _ => aloof_pure _

theorem aloof_pressed (step : Escalation) (failure : Option LockError) :
    (t.pressed step failure).Aloof := by
  cases t with
  | prior t => exact (Teardown.aloof_pressed step failure).bind fun _ => aloof_pure _
  | free t => exact (Teardown.aloof_pressed step failure).bind fun _ => aloof_pure _
  | _ => exact aloof_pure _

theorem aloof_abandon : t.abandon.Aloof := by
  cases t with
  | cleanup c => exact Cleanup.aloof_abandon
  | waitIdle n w => exact aloof_pure _
  | prior t => exact Teardown.aloof_abandon
  | free t => exact Teardown.aloof_abandon
  | cancel v last => exact VictimCancel.aloof_abandon

theorem enrolling_meet (aloof : policy.Aloof) (known : t.space ∈ built) (h : Happening) :
    (t.meet policy h).Enrolling built := by
  have goes {α : Type} (a : α) : (pure a : Act α).Enrolling built := (aloof_pure a).enrolling
  cases h with
  | turn => exact (enrolling_turn aloof known).bind fun _ => goes _
  | expired => exact (enrolling_expired known).bind fun _ => goes _
  | answered l failure => exact (aloof_answered l failure).enrolling.bind fun _ => goes _
  | pressed step failure => exact (aloof_pressed step failure).enrolling.bind fun _ => goes _
  | abandoned => exact aloof_abandon.enrolling.bind fun _ => goes _

end Task

namespace Undertaking

/-- The namespace on which a waiting operation is started. -/
def space : Undertaking → SpaceKey
  | cleanup n _ | freePrior n .. | free n .. | cancelLru n .. | setLruSize n _ => n

theorem aloof_begin (aloof : policy.Aloof) (u : Undertaking) : (u.begin policy).Aloof := by
  cases u with
  | cleanup n flags => exact (Cleanup.aloof_start flags).bind fun _ => aloof_pure _
  | freePrior n force hasImport => exact (Teardown.aloof_start _ _).bind fun _ => aloof_pure _
  | free n force hasImport => exact (Teardown.aloof_start _ _).bind fun _ => aloof_pure _
  | cancelLru n count flags => exact (aloof_cancelLru aloof count flags).bind fun _ => aloof_pure _
  | setLruSize n size => exact (aloof_setLruSize aloof size).bind fun _ => aloof_pure _

end Undertaking

/-- A call on a namespace that was set up, or a step of such a call that waits. -/
inductive SpaceCall where
  | get (n : SpaceKey) (id : ResourceId) (rtype : ResourceType) (create : Bool)
  | put (r : ResourceRef)
  | clone (n : SpaceKey)
  | drop (n : SpaceKey)
  | free (n : SpaceKey)
  | begin (u : Undertaking)
  | meet (t : Task) (h : Happening)

namespace SpaceCall

def space : SpaceCall → SpaceKey
  | get n .. | clone n | drop n | free n => n
  | put r => r.space
  | begin u => u.space
  | meet t _ => t.space

def run (policy : LockPolicy) : SpaceCall → Act Unit
  | get n id rtype create => discard (getOrCreate n id rtype create)
  | put r => discard (Act.put r)
  | clone n => ownSpace n
  | drop n => disownSpace n
  | free n => discard (freePost n)
  | begin u => discard (u.begin policy)
  | meet t h => discard (t.meet policy h)

/-- A call that would bring the first resource into the table of a client that was freed. -/
def Revives (m : Manager) : SpaceCall → Prop
  | get n id _ create => m.Revives n id create
  | _ => False

variable {c : SpaceCall}

/-- Whatever a call does, the registry has had the same namespaces. Only one that revives a client
may fail an assertion of it. -/
theorem leaves_run (aloof : policy.Aloof) (enrols : m.Enrols built) (known : c.space ∈ built) :
    (c.run policy).Leaves m fun answer m' => m'.Enrols built ∧ (Calm answer ∨ c.Revives m) := by
  have calm {act : Act Unit} (enrolling : act.Enrolling built) :
      act.Leaves m fun answer m' => m'.Enrols built ∧ (Calm answer ∨ c.Revives m) :=
    (enrolling m enrols).imp fun _ _ leaves => leaves.imp_right Or.inl
  cases c with
  | get n id rtype create =>
    have moves : (getOrCreate n id rtype create).Leaves m fun _ m' => m'.Enrols built :=
      (shuffled_getOrCreate id rtype create m).imp fun _ _ => enrols.shuffled
    by_cases revives : m.Revives n id create
    · exact leaves_discard.mpr (moves.imp fun _ _ later => ⟨later, Or.inr revives⟩)
    · have gives : (getOrCreate n id rtype create).Leaves m fun answer m' =>
          Calm answer ∧ m.HandsOut answer m' :=
        leaves_getOrCreate enrols.listed (enrols.detached known).mp revives
      exact leaves_discard.mpr ((moves.and gives).imp fun _ _ leaves =>
        ⟨leaves.1, Or.inl leaves.2.1.map⟩)
  | put r => exact calm aloof_put.discard.enrolling
  | clone n => exact calm aloof_ownSpace.enrolling
  | drop n => exact calm aloof_disownSpace.enrolling
  | free n => exact calm (enrolling_freePost known).discard
  | begin u => exact calm (u.aloof_begin aloof).discard.enrolling
  | meet t h => exact calm (Task.enrolling_meet aloof known h).discard

end SpaceCall

/-- The states of a registry with the namespaces that were set up in it. Their calls come in any
order, also while others wait, after a namespace was freed and after a call that ended in a fault.
What leaves the registry alone may come between. -/
inductive Operated (policy : LockPolicy) : Manager → List SpaceKey → Prop
  | empty : Operated policy {} []
  | build {m m' : Manager} {built : List SpaceKey} {setup : Setup}
      {answer : Except LockError SpaceKey} (reach : Operated policy m built)
      (run : Act.build setup m = .ok answer m') :
      Operated policy m' (answer.toOption.toList ++ built)
  | call {m : Manager} {built : List SpaceKey} (reach : Operated policy m built) (c : SpaceCall)
      (known : c.space ∈ built) : Operated policy ((c.run policy).left m) built
  | aside {m m' : Manager} {built : List SpaceKey} (reach : Operated policy m built)
      (same : SameRoll m m') : Operated policy m' built

namespace Operated

/-- Whatever is called, the registry goes on to know its namespaces. -/
theorem enrols (aloof : policy.Aloof) (reach : Operated policy m built) : m.Enrols built := by
  induction reach with
  | empty => exact ⟨{}, .empty, rfl⟩
  | @build m m' built setup answer _ run ih =>
    cases given : setup.preset with
    | error e =>
      cases (run_build_of_error given).symm.trans run
      exact ih
    | ok preset =>
      obtain ⟨roll, matched, rfl⟩ := ih
      obtain ⟨_, same, anew, spaces, alive⟩ := run_build_of_ok given matched.listed
      cases same.symm.trans run
      exact ⟨_, matched.built anew spaces alive, rfl⟩
  | call _ c known ih =>
    have leaves := SpaceCall.leaves_run aloof ih known
    unfold Act.left
    split
    · rename_i run
      exact (leaves.of_ok run).1
    · rename_i run
      exact (leaves.of_error run).1
  | aside _ same ih => exact ih.shuffled same.shuffled

/-- A setup never fails, and a call fails no assertion of the registry unless it would bring the
first resource into the table of a client that was freed. Any other call for a resource gives one out
or adds none. -/
theorem fails_only_reviving (aloof : policy.Aloof) (reach : Operated policy m built) :
    (∀ setup, ∃ answer m', Act.build setup m = .ok answer m') ∧
    (∀ c : SpaceCall, c.space ∈ built → ∀ fault m', c.run policy m = .error fault m' →
      fault.isRegistry = true → c.Revives m) ∧
    ∀ n ∈ built, ∀ id rtype create, ¬ m.Revives n id create →
      (getOrCreate n id rtype create).Leaves m m.HandsOut := by
  have enrols := reach.enrols aloof
  refine ⟨fun setup => ?_, fun c known fault m' run registry => ?_, fun n known id rtype create safe => ?_⟩
  · cases given : setup.preset with
    | error e => exact ⟨_, _, run_build_of_error given⟩
    | ok preset =>
      obtain ⟨m', run, -⟩ := run_build_of_ok given enrols.listed
      exact ⟨_, m', run⟩
  · rcases ((SpaceCall.leaves_run aloof enrols known).of_error run).2 with calm | revives
    · rw [calm fault rfl] at registry
      cases registry
    · exact revives
  · have gives : (getOrCreate n id rtype create).Leaves m fun answer m' =>
        Calm answer ∧ m.HandsOut answer m' :=
      leaves_getOrCreate enrols.listed (enrols.detached known).mp safe
    exact gives.imp fun _ _ leaves => leaves.2

/-- A server that was freed still gives resources out. -/
theorem hands_out_of_freed_server : ∃ m r m', Operated .default m [⟨0⟩] ∧
    (m.space ⟨0⟩).freed = true ∧
    getOrCreate ⟨0⟩ ⟨1, 0, 0, 0⟩ .plain true m = .ok (.ok r) m' ∧ m.HandsOut (.ok (.ok r)) m' := by
  obtain ⟨m₀, m, r, m', built, left, server, freed, run⟩ : ∃ m₀ m r m',
      Act.build .oneBucket {} = .ok (.ok ⟨0⟩) m₀ ∧
      ((SpaceCall.free ⟨0⟩).run .default).left m₀ = m ∧ (m.space ⟨0⟩).side = .server ∧
      (m.space ⟨0⟩).freed = true ∧ getOrCreate ⟨0⟩ ⟨1, 0, 0, 0⟩ .plain true m = .ok (.ok r) m' :=
    ⟨_, _, _, _, rfl, rfl, rfl, rfl, rfl⟩
  have reach : Operated .default m [⟨0⟩] :=
    left ▸ (Operated.empty.build built).call (.free ⟨0⟩) List.mem_cons_self
  obtain ⟨-, -, gives⟩ := reach.fails_only_reviving LockPolicy.aloof_default
  refine ⟨m, r, m', reach, freed, run, (gives ⟨0⟩ List.mem_cons_self _ _ _ fun revives => ?_).of_ok run⟩
  cases server.symm.trans revives.client

/-- A client that was freed fails the assertion that it is on a list. The resource stays in its table,
with a reference that nobody has. -/
theorem revives_freed_client : ∃ m, Operated .default m [⟨0⟩] ∧ ∃ name m',
    getOrCreate ⟨0⟩ ⟨1, 0, 0, 0⟩ .plain true m = .error (.notRegistered name) m' ∧
    ∃ r, m'.Hashes r ∧ (m'.resource r).refcount = 1 := by
  obtain ⟨m₀, m, built, left, client, freed, off, unused, empty⟩ : ∃ m₀ m,
      Act.build .peered {} = .ok (.ok ⟨0⟩) m₀ ∧ ((SpaceCall.free ⟨0⟩).run .default).left m₀ = m ∧
      (m.space ⟨0⟩).side = .client ∧ (m.space ⟨0⟩).freed = true ∧
      (m.space ⟨0⟩).link = .detached ∧ (m.space ⟨0⟩).table.bref = 0 ∧
      ((m.space ⟨0⟩).table.bucket ((m.space ⟨0⟩).table.bucketOf ⟨1, 0, 0, 0⟩)).entries = [] :=
    ⟨_, _, rfl, rfl, rfl, rfl, rfl, rfl, rfl⟩
  have reach : Operated .default m [⟨0⟩] :=
    left ▸ (Operated.empty.build built).call (.free ⟨0⟩) List.mem_cons_self
  exact ⟨m, reach, run_getOrCreate_of_revives .plain (by decide) off ⟨rfl, client, freed, unused, empty⟩⟩

end Operated

end Lockspace
