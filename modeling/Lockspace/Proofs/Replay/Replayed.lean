import Lockspace.Proofs.Replay.Calls

namespace Lockspace

open Manager Journal Act

/-- The runs of calls about resources and locks after the setup of a namespace, with the holds on it
that were taken and not dropped since. Nothing was told of its resources before. Whatever is called,
and even if it ends in a fault, others may follow. -/
inductive Chronicle (n : SpaceKey) : Nat → Manager → Prop
  | built {m m' : Manager} {setup : Setup} (untold : m.reports n = [])
      (run : build setup m = .ok (.ok n) m') : Chronicle n 0 m'
  | call {holds : Nat} {m m' : Manager} {c : QueueCall} {hands hands' : Multiset ResourceRef}
      (reach : Chronicle n holds m) (run : c.perform hands m = .ok hands' m') :
      Chronicle n holds m'
  | failed {holds : Nat} {m m' : Manager} {c : QueueCall} {hands : Multiset ResourceRef}
      {fault : Fault} (reach : Chronicle n holds m) (run : c.perform hands m = .error fault m') :
      Chronicle n holds m'
  | held {holds bref : Nat} {m m' : Manager} (reach : Chronicle n holds m)
      (run : takeHold n m = .ok bref m') : Chronicle n (holds + 1) m'
  | yielded {holds bref : Nat} {m m' : Manager} (reach : Chronicle n (holds + 1) m)
      (run : dropHold n m = .ok bref m') : Chronicle n holds m'

/-- The reports about a namespace replay its table. -/
structure Manager.Replays (n : SpaceKey) (holds : Nat) (m : Manager) : Prop where
  ids : ∀ id, id ∈ (replay (m.reports n)).ids ↔
    ∃ b key, (id, key) ∈ ((m.space n).table.bucket b).entries
  buckets : ∀ b, b ∈ (replay (m.reports n)).buckets ↔ ((m.space n).table.bucket b).entries ≠ []
  /-- Nothing was created that was there, and nothing freed that was not. -/
  admits : Each Admits {} (m.reports n)
  /-- What was told of a bucket alternates, and begins with its occupation. -/
  alternates : ∀ b i e, ((m.reports n).filter (·.turns b))[i]? = some e →
    e.event = if i % 2 = 0 then .bucketOccupied else .bucketEmptied
  /-- The number of resources that came with a report is that of the ids created so far, less those
  freed. -/
  counts : ∀ before e after, m.reports n = before ++ e :: after →
    e.count + (before ++ [e]).countP (·.event = .freed) =
      (before ++ [e]).countP (·.event = .created)
  /-- The reference count that comes with a report, during whatever is called next, is that of the
  occupied buckets and the holds. -/
  brefs : ∀ (c : QueueCall) (hands : Multiset ResourceRef),
    (c.perform hands).Leaves m fun _ m' => ∃ new, m'.reports n = m.reports n ++ new ∧
      Each (fun j e => e.bref = (j.note e).occupied (m.space n).table.bucketOf + holds)
        (replay (m.reports n)) new
  /-- A hold that is taken or dropped is not told of. -/
  silent : (takeHold n).Leaves m (fun _ m' => m'.reports n = m.reports n) ∧
    (dropHold n).Leaves m fun _ m' => m'.reports n = m.reports n

namespace Table

variable {t : Table} {holds : Nat}

theorem Filed.takeHold (filed : t.Filed holds) : t.takeHold.Filed (holds + 1) where
  shaped := ⟨filed.shaped.sized, filed.shaped.sound⟩
  distinct := filed.distinct
  entry := filed.entry
  held := congrArg (· + 1) filed.held

theorem Filed.dropHold (filed : t.Filed (holds + 1)) :
    ({ t with bref := t.bref - 1 } : Table).Filed holds where
  shaped := ⟨filed.shaped.sized, filed.shaped.sound⟩
  distinct := filed.distinct
  entry := filed.entry
  held := by
    have held := filed.held
    show t.bref - 1 = t.occupied + holds
    omega

end Table

namespace Act

variable {n : SpaceKey} {m : Manager}

/-- A hold that is dropped is not told of, and changes the count of the table. -/
theorem leaves_dropHold : (dropHold n).Leaves m fun answer m' =>
    m'.reports n = m.reports n ∧ m.spaces.size ≤ m'.spaces.size ∧ ∀ bref, answer = .ok bref →
      (m'.space n).table = { (m.space n).table with bref := (m.space n).table.bref - 1 } := by
  by_cases none : (m.space n).table.bref = 0
  · have refused : dropHoldCount n m = .error (.referenceUnderflow (m.space n).name) m := by
      unfold dropHoldCount
      rw [run_bind (run_space n m), Table.dropHold?, if_pos none]
      rfl
    refine leaves_bind.mpr (leaves_of_error refused ⟨rfl, le_rfl, fun _ answered => ?_⟩)
    cases answered
  · let t : Table := { (m.space n).table with bref := (m.space n).table.bref - 1 }
    have drops : dropHoldCount n m = .ok t.bref (m.setTable n t) := by
      unfold dropHoldCount
      rw [run_bind (run_space n m), Table.dropHold?, if_neg none]
      rfl
    have size : m.spaces.size ≤ (m.setTable n t).spaces.size := size_le_modifySpace _
    refine leaves_after drops ?_
    split
    · refine ⟨rfl, size.trans (size_le_modifySpace _), fun _ _ => ?_⟩
      rw [space_modifySpace, if_pos rfl]
      exact table_setTable m n t
    · exact ⟨rfl, size, fun _ _ => table_setTable m n t⟩

end Act

namespace Manager

variable {n : SpaceKey} {holds bref : Nat} {m m' : Manager}

theorem Reported.of_count {t : Table} {holds' : Nat} (reported : m.Reported n holds)
    (size : m.spaces.size ≤ m'.spaces.size) (table : (m'.space n).table = t)
    (silent : m'.reports n = m.reports n) (filed : t.Filed holds')
    (buckets : t.buckets = (m.space n).table.buckets) : m'.Reported n holds' := by
  subst table
  refine ⟨reported.built.trans_le size, filed, ?_⟩
  rw [silent]
  exact reported.shows.of_buckets buckets

theorem Reported.held (reported : m.Reported n holds) (run : takeHold n m = .ok bref m') :
    m'.Reported n (holds + 1) ∧ m'.reports n = m.reports n := by
  cases run
  refine ⟨reported.of_count (size_le_modifySpace _) ?_ rfl reported.filed.takeHold rfl, rfl⟩
  rw [space_modifySpace, if_pos rfl]

theorem Reported.yielded (reported : m.Reported n (holds + 1))
    (run : dropHold n m = .ok bref m') : m'.Reported n holds ∧ m'.reports n = m.reports n := by
  obtain ⟨silent, size, table⟩ := leaves_dropHold.of_ok run
  exact ⟨reported.of_count size (table bref rfl) silent reported.filed.dropHold rfl, silent⟩

/-- A new table holds nothing, and nothing was told of it. -/
theorem Reported.new {p : HashPreset} {salt : UInt64} {least : Duration} (sound : p.isSound)
    (built : n.index < m.spaces.size) (table : (m.space n).table = .new p salt least)
    (untold : m.reports n = []) : m.Reported n 0 := by
  have empty : ∀ b entry, entry ∉ ((m.space n).table.bucket b).entries := by
    rintro b ⟨id, key⟩ member
    rw [table] at member
    simpa using ((Table.Tallied.new sound salt least).filed b id key member).1
  refine ⟨built, table ▸ .new sound salt least, ?_⟩
  rw [untold]
  refine ⟨fun id => iff_of_false (Finset.notMem_empty id) ?_, fun b => ?_⟩
  · rintro ⟨b, key, member⟩
    exact empty b _ member
  · refine iff_of_false (Finset.notMem_empty b) (not_not_intro ?_)
    exact List.eq_nil_iff_forall_not_mem.mpr (empty b)

/-- A setup makes a new namespace, which is then registered. -/
theorem Reported.of_build {setup : Setup} (untold : m.reports n = [])
    (run : build setup m = .ok (.ok n) m') :
    ∃ m₁ : Manager, m₁.Reported n 0 ∧ m₁.reports n = [] ∧ KeepsReports n 0 m₁ m' := by
  unfold build at run
  cases given : setup.preset with
  | error e =>
    rw [given] at run
    cases run
  | ok preset =>
    rw [given] at run
    obtain ⟨_, m₁, taken, run⟩ := ok_of_bind run
    obtain ⟨k, m₂, made, run⟩ := ok_of_bind run
    obtain ⟨_, _, registered, ⟨⟩⟩ := ok_of_bind run
    have spaces : m₂.spaces = m.spaces.set n (setup.toNamespace preset) := by
      cases taken
      cases made
      rfl
    have silent : m₂.reports n = [] := by
      cases taken
      cases made
      exact untold
    have built : n.index < m₂.spaces.size := by
      rw [spaces, Store.size_set]
      exact lt_max_of_lt_right (Nat.lt_succ_self _)
    have table : (m₂.space n).table = .new preset setup.salt setup.config.enqueueMin := by
      rw [Manager.space, spaces, Store.get_set_self]
      rfl
    exact ⟨m₂, .new (Setup.isSound_of_preset given) built table silent, silent,
      (reports_register m₂).of_ok registered⟩

end Manager

/-- Whatever is called, the reports go on to replay the table. -/
theorem QueueCall.keepsReports {n : SpaceKey} {holds : Nat} {m : Manager} (c : QueueCall)
    (hands : Multiset ResourceRef) :
    (c.perform hands).Leaves m fun _ m' => KeepsReports n holds m m' := by
  refine reports_calls.perform c fun l f same => ?_
  exact keepsReports_of_spaces rfl rfl

namespace Chronicle

variable {n : SpaceKey} {holds bref : Nat} {m m' : Manager}

/-- At any time the reports replay the table, and each of them came at its time. -/
theorem reported (reach : Chronicle n holds m) :
    m.Reported n holds ∧ Each (fun j e => j.Admits e ∧ e.count = (j.note e).ids.card) {}
      (m.reports n) := by
  have goes : ∀ {m m' : Manager} {holds}, m.Reported n holds ∧
      Each (fun j e => j.Admits e ∧ e.count = (j.note e).ids.card) {} (m.reports n) →
      KeepsReports n holds m m' → m'.Reported n holds ∧
      Each (fun j e => j.Admits e ∧ e.count = (j.note e).ids.card) {} (m'.reports n) := by
    rintro m m' holds ⟨reported, each⟩ keeps
    obtain ⟨after, -, new, told, fits⟩ := keeps reported
    refine ⟨after, ?_⟩
    rw [told]
    exact each_append.mpr ⟨each, fits.imp fun _ _ fits => ⟨fits.admits, fits.count⟩⟩
  induction reach with
  | built untold run =>
    obtain ⟨m₁, reported, untold, keeps⟩ := Reported.of_build untold run
    exact goes ⟨reported, by rw [untold]; exact .nil⟩ keeps
  | call _ run ih => exact goes ih ((QueueCall.keepsReports _ _).of_ok run)
  | failed _ run ih => exact goes ih ((QueueCall.keepsReports _ _).of_error run)
  | held _ run ih =>
    obtain ⟨after, silent⟩ := ih.1.held run
    exact ⟨after, by rw [silent]; exact ih.2⟩
  | yielded _ run ih =>
    obtain ⟨after, silent⟩ := ih.1.yielded run
    exact ⟨after, by rw [silent]; exact ih.2⟩

/-- In every run of calls, the reports about a namespace replay its table. -/
theorem replays (reach : Chronicle n holds m) : m.Replays n holds := by
  obtain ⟨reported, each⟩ := reach.reported
  have admits : Each Admits {} (m.reports n) := each.imp fun _ _ => And.left
  refine ⟨reported.shows.ids, reported.shows.buckets, admits,
    fun b => (turns_alternate admits b).2, fun before e after split => ?_, fun c hands => ?_,
    rfl, leaves_dropHold.imp fun _ _ => And.left⟩
  · have early : Each Admits {} (before ++ [e]) := by
      rw [split, List.append_cons] at admits
      exact (each_append.mp admits).1
    have count := (each before e after split).2
    have total := card_add_countP_freed early
    rw [replay_concat] at total
    rw [count]
    exact total
  · have goes : (c.perform hands).Leaves m fun _ m' => KeepsReports n holds m m' :=
      c.keepsReports hands
    refine goes.imp fun _ m' keeps => ?_
    obtain ⟨-, -, new, told, fits⟩ := keeps reported
    exact ⟨new, told, fits.imp fun _ _ fits => fits.bref⟩

theorem all {calls : List QueueCall} {hands hands' : Multiset ResourceRef}
    (reach : Chronicle n holds m) (run : calls.foldlM QueueCall.perform hands m = .ok hands' m') :
    Chronicle n holds m' := by
  induction calls generalizing hands m with
  | nil =>
    cases run
    exact reach
  | cons c rest ih =>
    obtain ⟨given, m₁, once, more⟩ := ok_of_bind run
    exact ih (reach.call once) more

theorem exists_of_calls (n : SpaceKey) (setup : Setup) (calls : List QueueCall)
    (shows : Manager → Prop)
    (seen : (do
      let built ← build setup
      let _ ← takeHold n
      let _ ← calls.foldlM QueueCall.perform 0
      return built : Act (Except LockError SpaceKey)).Leaves {} fun answer m =>
        answer = .ok (.ok n) ∧ shows m) : ∃ m, Chronicle n 1 m ∧ shows m := by
  unfold Leaves at seen
  split at seen
  · rename_i built m run
    obtain ⟨made, found⟩ := seen
    obtain ⟨_, m₁, builds, run⟩ := ok_of_bind run
    obtain ⟨_, m₂, takes, run⟩ := ok_of_bind run
    obtain ⟨_, _, performs, ⟨⟩⟩ := ok_of_bind run
    cases made
    exact ⟨m, ((Chronicle.built rfl builds).held takes).all performs, found⟩
  · cases seen.1

/-- Of two resources in a bucket that is held, the first is dropped, and then the lock that owns the
other is destroyed. -/
theorem replays_of_two_resources : ∃ m, Chronicle ⟨0⟩ 1 m ∧
    (m.reports ⟨0⟩).map (fun e => (e.event, e.bref, e.count)) = [(.created, 2, 1),
      (.bucketOccupied, 2, 1), (.created, 2, 2), (.freed, 2, 1), (.freed, 1, 0),
      (.bucketEmptied, 1, 0)] ∧ m.Replays ⟨0⟩ 1 := by
  obtain ⟨m, reach, shows⟩ := exists_of_calls ⟨0⟩ .oneBucket
    [.get ⟨0⟩ ⟨1, 0, 0, 0⟩ .plain true, .get ⟨0⟩ ⟨2, 0, 0, 0⟩ .plain true,
      .put ⟨⟨0⟩, ⟨0⟩⟩, .newLock ⟨1⟩ .ex none, .bind ⟨0⟩ ⟨⟨0⟩, ⟨1⟩⟩, .destroy ⟨0⟩ ⟨0⟩]
    (fun m => (m.reports ⟨0⟩).map (fun e => (e.event, e.bref, e.count)) = [(.created, 2, 1),
      (.bucketOccupied, 2, 1), (.created, 2, 2), (.freed, 2, 1), (.freed, 1, 0),
      (.bucketEmptied, 1, 0)])
    (by decide +kernel)
  exact ⟨m, reach, shows, reach.replays⟩

end Chronicle

end Lockspace
