import Lockspace.Proofs.CallFrames
import Lockspace.Proofs.Replay.Filed
import Lockspace.Proofs.ResourceRuns

namespace Lockspace

open Manager

/-- What an event of a resource tells, with the counts of a table. -/
def Table.report (t : Table) (event : ResourceEvent) (res : Resource) : Report :=
  ⟨event, res.id, res.bucket, t.bref, t.size⟩

namespace Journal

/-- What a journal says of a table is what is in it. -/
structure Shows (j : Journal) (t : Table) : Prop where
  ids : ∀ id, id ∈ j.ids ↔ ∃ b key, (id, key) ∈ (t.bucket b).entries
  buckets : ∀ b, b ∈ j.buckets ↔ (t.bucket b).entries ≠ []

/-- A report that makes sense after a journal, with the number of ids that are now in the table, and
the reference count that their buckets and the holds from outside come to. -/
structure Fits (bucketOf : ResourceId → BucketKey) (holds : Nat) (j : Journal) (e : Report) :
    Prop where
  admits : j.Admits e
  count : e.count = (j.note e).ids.card
  bref : e.bref = (j.note e).occupied bucketOf + holds

variable {j : Journal} {t t' : Table} {holds : Nat} {e : Report}

theorem Shows.of_buckets (shows : j.Shows t) (same : t'.buckets = t.buckets) : j.Shows t' := by
  have bucket : ∀ b, t'.bucket b = t.bucket b := fun b => by rw [Table.bucket, same, Table.bucket]
  refine ⟨fun id => ?_, fun b => ?_⟩
  · rw [shows.ids]
    simp only [bucket]
  · rw [shows.buckets, bucket]

/-- The counts of a report are right if they are those of the table with the ids noted. -/
theorem fits_of_filed {res : Resource} {event : ResourceEvent} (filed : t.Filed holds)
    (admits : j.Admits (t.report event res))
    (ids : ∀ id, id ∈ (j.note (t.report event res)).ids ↔ ∃ b key, (id, key) ∈ (t.bucket b).entries) :
    Fits t.bucketOf holds j (t.report event res) :=
  ⟨admits, filed.size_eq_card ids, filed.bref_eq_card ids⟩

section Enters

variable {b : BucketKey} {candidate : Resource} (shows : j.Shows t)
  (absent : (t.bucket b).find? candidate.id = none)

include shows absent

theorem Shows.mem_insert (id : ResourceId) : id ∈ insert candidate.id j.ids ↔
    ∃ c key, (id, key) ∈ ((t.enter b candidate).bucket c).entries := by
  rw [Finset.mem_insert, shows.ids]
  simp only [Table.mem_bucket_enter absent, Prod.mk.injEq]
  constructor
  · rintro (rfl | ⟨c, key, member⟩)
    · exact ⟨b, _, Or.inr ⟨rfl, rfl, rfl⟩⟩
    · exact ⟨c, key, Or.inl member⟩
  · rintro ⟨c, key, member | ⟨-, same, -⟩⟩
    · exact Or.inr ⟨c, key, member⟩
    · exact Or.inl same

theorem Shows.enter :
    (Journal.mk (insert candidate.id j.ids) (insert b j.buckets)).Shows (t.enter b candidate) := by
  refine ⟨shows.mem_insert absent, fun c => ?_⟩
  rw [Finset.mem_insert, shows.buckets, Table.bucket_enter]
  by_cases here : c = b
  · subst here
    simp [Bucket.put]
  · simp [here]

/-- A resource that enters a table is told of, and with it its bucket if it is the first there. -/
theorem Shows.tells_enter (filed : t.Filed holds) (home : candidate.bucket = b)
    (own : t.bucketOf candidate.id = b) {first : Bool}
    (is : (t.bucket b).entries.isEmpty = first) {new : List Report}
    (told : new = (t.enter b candidate).report .created candidate ::
      if first then [(t.enter b candidate).report .bucketOccupied candidate] else []) :
    Each (Fits t.bucketOf holds) j new ∧ (j.noteAll new).Shows (t.enter b candidate) := by
  have homes := (filed.bucketOf_enter own).symm
  have filed' := filed.enter absent home own
  have ids := shows.mem_insert absent
  have after := shows.enter absent
  have created : Fits t.bucketOf holds j ((t.enter b candidate).report .created candidate) := by
    rw [homes]
    refine fits_of_filed filed' (fun member => ?_) ids
    obtain ⟨c, key, there⟩ := (shows.ids _).mp member
    obtain rfl : b = c := own.symm.trans (filed.entry c _ key there).2.2.2
    exact Bucket.not_mem_of_find?_eq_none absent key there
  subst told is home
  split
  · rename_i empty
    have none := List.isEmpty_iff.mp empty
    refine ⟨each_append.mpr ⟨each_singleton.mpr created, each_singleton.mpr ?_⟩, after⟩
    rw [homes]
    exact fits_of_filed filed' (fun member => (shows.buckets _).mp member none) ids
  · rename_i some
    refine ⟨each_singleton.mpr created, ?_⟩
    have old : candidate.bucket ∈ j.buckets :=
      (shows.buckets _).mpr fun empty => some (List.isEmpty_iff.mpr empty)
    rw [Finset.insert_eq_of_mem old] at after
    exact after

end Enters

section Strikes

variable {key : ResourceKey} (shows : j.Shows t) (filed : t.Filed holds)
  (member : ((t.resource key).id, key) ∈ (t.bucket (t.resource key).bucket).entries)

include shows filed member

theorem Shows.mem_erase (id : ResourceId) : id ∈ j.ids.erase (t.resource key).id ↔
    ∃ c k, (id, k) ∈ ((t.strike key).bucket c).entries := by
  rw [Finset.mem_erase, shows.ids]
  simp only [Table.mem_bucket_strike]
  constructor
  · rintro ⟨other, c, k, inside⟩
    exact ⟨c, k, inside, fun same => other same.2⟩
  · rintro ⟨c, k, inside, apart⟩
    refine ⟨?_, c, k, inside⟩
    -- An entry of the id in another bucket would be out of its place.
    rintro rfl
    refine apart ⟨?_, rfl⟩
    exact (filed.entry _ _ _ inside).2.2.2.symm.trans (filed.entry _ _ _ member).2.2.2

theorem Shows.strike :
    (Journal.mk (j.ids.erase (t.resource key).id)
      (if ((t.strike key).bucket (t.resource key).bucket).entries.isEmpty
        then j.buckets.erase (t.resource key).bucket else j.buckets)).Shows (t.strike key) := by
  refine ⟨shows.mem_erase filed member, fun c => ?_⟩
  by_cases here : c = (t.resource key).bucket
  · subst here
    split
    · rename_i empty
      simp [List.isEmpty_iff.mp empty]
    · rename_i some
      rw [shows.buckets]
      exact iff_of_true (List.ne_nil_of_mem member) fun empty => some (by simp [empty])
  · have still : (t.strike key).bucket c = t.bucket c := by rw [Table.bucket_strike, if_neg here]
    rw [still, ← shows.buckets]
    split
    · simp [here]
    · rfl

/-- A resource that leaves a table is told of, and with it its bucket if it was the last there. -/
theorem Shows.tells_strike {emptied : Bool}
    (is : ((t.strike key).bucket (t.resource key).bucket).entries.isEmpty = emptied)
    {new : List Report} (told : new = (t.strike key).report .freed (t.resource key) ::
      if emptied then [(t.strike key).report .bucketEmptied (t.resource key)] else []) :
    Each (Fits t.bucketOf holds) j new ∧ (j.noteAll new).Shows (t.strike key) := by
  have homes := (filed.bucketOf_strike member).symm
  have filed' := filed.strike member
  have ids := shows.mem_erase filed member
  have after := shows.strike filed member
  have freed : Fits t.bucketOf holds j ((t.strike key).report .freed (t.resource key)) := by
    rw [homes]
    exact fits_of_filed filed' ((shows.ids _).mpr ⟨_, _, member⟩) ids
  subst told is
  split
  · rename_i empty
    rw [if_pos empty] at after
    refine ⟨each_append.mpr ⟨each_singleton.mpr freed, each_singleton.mpr ?_⟩, after⟩
    rw [homes]
    exact fits_of_filed filed' ((shows.buckets _).mpr (List.ne_nil_of_mem member)) ids
  · rename_i some
    rw [if_neg some] at after
    exact ⟨each_singleton.mpr freed, after⟩

end Strikes

end Journal

open Journal

namespace Manager

/-- The reports about a namespace replay its table, which is in order. -/
structure Reported (n : SpaceKey) (holds : Nat) (m : Manager) : Prop where
  built : n.index < m.spaces.size
  filed : (m.space n).table.Filed holds
  shows : (replay (m.reports n)).Shows (m.space n).table

/-- From one state to a later one the reports about a namespace go on to replay its table, and each
of them fits. -/
structure Continues (n : SpaceKey) (holds : Nat) (m m' : Manager) : Prop where
  reported : m'.Reported n holds
  home : (m'.space n).table.bucketOf = (m.space n).table.bucketOf
  tells : ∃ new, m'.reports n = m.reports n ++ new ∧
    Each (Fits (m.space n).table.bucketOf holds) (replay (m.reports n)) new

/-- Where the reports replayed the table before, they go on to. -/
def KeepsReports (n : SpaceKey) (holds : Nat) (m m' : Manager) : Prop :=
  m.Reported n holds → m.Continues n holds m'

variable {n k : SpaceKey} {holds : Nat} {m m' : Manager} {r : ResourceRef} {event : ResourceEvent}

instance : IsPreorder Manager (KeepsReports n holds) where
  refl m reported := ⟨reported, rfl, [], (List.append_nil _).symm, .nil⟩
  trans a b c first second reported := by
    obtain ⟨mid, home, new, told, fits⟩ := first reported
    obtain ⟨last, again, more, toldMore, fitsMore⟩ := second mid
    refine ⟨last, again.trans home, new ++ more, ?_, each_append.mpr ⟨fits, ?_⟩⟩
    · rw [toldMore, told, List.append_assoc]
    · rwa [told, replay_append, home] at fitsMore

theorem reports_push (call : Callback) : ({ m with trace := m.trace.push call } : Manager).reports n =
    m.reports n ++ (call.report? n).toList := by
  rw [reports, Array.toList_push, List.filterMap_append]
  cases told : call.report? n <;> simp [reports, told]

theorem reports_told : (m.told r event).reports n =
    m.reports n ++ if r.space = n then [(m.space r.space).table.report event (m.resource r)]
      else [] := by
  rw [told, reports_push, Callback.report?]
  split <;> rfl

theorem reports_of_trace (same : m'.trace = m.trace) : m'.reports n = m.reports n := by
  rw [reports, same, reports]

/-- A new table whose changes were all told of. -/
theorem continues_of_tells {t : Table} {new : List Report} (reported : m.Reported n holds)
    (size : m.spaces.size ≤ m'.spaces.size) (table : (m'.space n).table = t)
    (filed : t.Filed holds) (home : t.bucketOf = (m.space n).table.bucketOf)
    (told : m'.reports n = m.reports n ++ new)
    (tells : Each (Fits (m.space n).table.bucketOf holds) (replay (m.reports n)) new ∧
      ((replay (m.reports n)).noteAll new).Shows t) : m.Continues n holds m' := by
  subst table
  refine ⟨⟨reported.built.trans_le size, filed, ?_⟩, home, new, told, tells.1⟩
  rw [told, replay_append]
  exact tells.2

/-- A table with the same entries, and no report. -/
theorem keepsReports_of_files (size : m.spaces.size ≤ m'.spaces.size)
    (files : (m.space n).table.SameFiles (m'.space n).table)
    (silent : m'.reports n = m.reports n) : KeepsReports n holds m m' := by
  intro reported
  refine ⟨⟨reported.built.trans_le size, reported.filed.of_sameFiles files, ?_⟩, files.bucketOf_eq,
    [], ?_, .nil⟩
  · rw [silent]
    exact reported.shows.of_buckets files.buckets
  · rw [silent, List.append_nil]

theorem keepsReports_of_spaces (spaces : m'.spaces = m.spaces)
    (silent : m'.reports n = m.reports n) : KeepsReports n holds m m' := by
  have space : m'.space n = m.space n := by rw [Manager.space, spaces, Manager.space]
  refine keepsReports_of_files (Nat.le_of_eq (congrArg Store.size spaces.symm)) ?_ silent
  rw [space]
  exact .rfl

theorem size_le_modifySpace (f : Namespace → Namespace) :
    m.spaces.size ≤ (m.modifySpace k f).spaces.size := by
  show _ ≤ (m.spaces.set k _).size
  rw [Store.size_set]
  exact le_max_left _ _

theorem keepsReports_modifySpace {f : Namespace → Namespace}
    (files : (m.space k).table.SameFiles (f (m.space k)).table) :
    KeepsReports n holds m (m.modifySpace k f) := by
  refine keepsReports_of_files (size_le_modifySpace f) ?_ rfl
  rw [space_modifySpace]
  split
  · rename_i here
    rw [here]
    exact files
  · exact .rfl

/-- What is told of another namespace is no report. -/
theorem keepsReports_told_elsewhere (elsewhere : r.space ≠ n) :
    KeepsReports n holds m (m.told r event) := by
  refine keepsReports_of_spaces rfl ?_
  rw [reports_told, if_neg elsewhere, List.append_nil]

theorem keepsReports_setTable_elsewhere (elsewhere : k ≠ n) (t : Table) :
    KeepsReports n holds m (m.setTable k t) := by
  refine keepsReports_of_files (size_le_modifySpace _) ?_ rfl
  rw [setTable, space_modifySpace, if_neg (Ne.symm elsewhere)]
  exact .rfl

end Manager

namespace Act

variable {n k : SpaceKey} {holds : Nat} {r : ResourceRef} {l : LockKey} {q : Queue} {m : Manager}

theorem reports_note {call : Callback} (other : call.isResource = false) :
    (note call).Preserves (KeepsReports n holds) := by
  have silent : call.report? n = none := by
    cases call with
    | resource => cases other
    | _ => rfl
  intro m
  refine keepsReports_of_spaces rfl ?_
  rw [reports_push, silent, Option.toList_none, List.append_nil]

theorem reports_of_table {f : Namespace → Namespace} (table : ∀ s, (f s).table = s.table) :
    (modifySpace k f).Preserves (KeepsReports n holds) := by
  intro m
  refine keepsReports_modifySpace ?_
  rw [table]
  exact .rfl

theorem reports_modifyLock (f : Lock → Lock) :
    (modifyLock l f).Preserves (KeepsReports n holds) :=
  fun _ => keepsReports_of_spaces rfl rfl

theorem reports_log (level : Level) (text : String) :
    (log level text).Preserves (KeepsReports n holds) :=
  fun _ => keepsReports_of_spaces rfl rfl

theorem reports_register : (register k).Preserves (KeepsReports n holds) :=
  preserves_register (fun _ _ => keepsReports_of_spaces rfl rfl) fun _ =>
    reports_of_table fun _ => rfl

theorem reports_moveTo (side : Side) (link : NamespaceLink) :
    (moveTo side k link).Preserves (KeepsReports n holds) :=
  preserves_moveTo (fun _ _ => keepsReports_of_spaces rfl rfl) fun _ =>
    reports_of_table fun _ => rfl

theorem reports_dumpResource (level : Level) :
    (dumpResource level r).Preserves (KeepsReports n holds) :=
  preserves_get.bind fun _ => preserves_forM fun line _ => reports_log level line.text

theorem reports_retain : (retain r).Preserves (KeepsReports n holds) :=
  preserves_retain fun _ _ run => keepsReports_modifySpace (Table.recounted_of_incref run).sameFiles

theorem reports_resources : (Act.resources k).Preserves (KeepsReports n holds) :=
  preserves_resources fun _ _ _ run =>
    keepsReports_modifySpace (Table.snapshotFrom_cases run).2.sameFiles

/-- A resource that keeps its id and its bucket. -/
theorem keepsReports_modifyResource {f : Resource → Resource}
    (id : (f (m.resource r)).id = (m.resource r).id)
    (home : (f (m.resource r)).bucket = (m.resource r).bucket) :
    KeepsReports n holds m (m.modifyResource r f) :=
  keepsReports_modifySpace (Table.sameFiles_modifyResource id home)

theorem reports_join (locks : List LockKey) :
    (join r l q locks).Preserves (KeepsReports n holds) := by
  refine preserves_lock.bind fun lk => Preserves.bind (fun m => ?_) fun _ =>
    (reports_modifyLock _).bind fun _ => reports_of_table fun _ => rfl
  obtain ⟨id, home, -⟩ := (m.resource r).joined_keeps l lk q locks
  exact keepsReports_modifyResource id home

theorem reports_claimLink : (claimLink r l q).Preserves (KeepsReports n holds) := by
  refine preserves_lock.bind fun lk => ?_
  split
  · exact preserves_pure _
  · split
    · exact (reports_dumpResource .error).bind fun _ => preserves_resource.bind fun _ =>
        preserves_throw _
    · exact (reports_modifyLock _).bind fun _ => preserves_pure _

theorem reports_enqueue (place : List LockKey → List LockKey) : (do
    if ← claimLink r l q then
      join r l q (place ((← resource r).queues.get q)) : Act Unit).Preserves
        (KeepsReports n holds) := by
  refine reports_claimLink.bind fun may => ?_
  cases may with
  | false => exact preserves_pure _
  | true => exact preserves_resource.bind fun _ => reports_join _

theorem reports_addLock : (addLock r q l).Preserves (KeepsReports n holds) :=
  reports_enqueue (· ++ [l])

theorem reports_insertAfter (anchor : LockKey) :
    (insertAfter r anchor l).Preserves (KeepsReports n holds) := by
  refine preserves_resource.bind fun res => preserves_lock.bind fun lk => ?_
  split
  · exact preserves_throw _
  · exact preserves_guard fun _ => reports_enqueue (insertBehind anchor l)

theorem reports_unlink : (unlink r l).Preserves (KeepsReports n holds) := by
  refine preserves_unlink (fun m q res left => ?_) (reports_modifyLock _)
    fun _ => reports_of_table fun _ => rfl
  obtain ⟨id, home, -⟩ := Resource.departed_keeps left
  exact keepsReports_modifyResource id home

end Act

end Lockspace
