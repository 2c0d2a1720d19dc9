import Lockspace.Proofs.Replay.Recorded

namespace Lockspace

open Manager Journal

namespace Act

variable {n k : SpaceKey} {holds : Nat} {r : ResourceRef} {id : ResourceId} {m : Manager}

/-- What an action leaves of reports that replayed the table. -/
theorem preserves_of_reported {α : Type} {act : Act α}
    (keeps : ∀ m : Manager, m.Reported n holds → act.Leaves m fun _ m' => m.Continues n holds m') :
    act.Preserves (KeepsReports n holds) := by
  intro m
  unfold Leaves
  cases run : act m with
  | ok a m' => exact fun reported => (keeps m reported).of_ok run
  | error fault m' => exact fun reported => (keeps m reported).of_error run

theorem reports_emit_elsewhere (elsewhere : r.space ≠ n) (event : ResourceEvent) :
    (emit r event).Preserves (KeepsReports n holds) :=
  fun _ => keepsReports_told_elsewhere elsewhere

/-- What happens to the resources of another namespace is no report. -/
theorem reports_getOrCreate_elsewhere (elsewhere : k ≠ n) (rtype : ResourceType) (create : Bool) :
    (getOrCreate k id rtype create).Preserves (KeepsReports n holds) := by
  refine preserves_getOrCreate (fun b => ?_) (fun b home limit seen => ?_)
    (fun key => preserves_announce (reports_emit_elsewhere elsewhere) (reports_moveTo _ _)) create
  · exact preserves_step (·.lookup b id) fun _ _ t _ => keepsReports_setTable_elsewhere elsewhere t
  · exact preserves_step (·.insert b (.new id rtype home limit) seen) fun _ _ t _ =>
      keepsReports_setTable_elsewhere elsewhere t

theorem reports_release_elsewhere (elsewhere : r.space ≠ n) :
    (release r).Preserves (KeepsReports n holds) := by
  refine Preserves.bind ?_ fun answer => ?_
  · exact preserves_releaseLocked (fun _ => keepsReports_setTable_elsewhere elsewhere _)
      (reports_dumpResource .error)
  · refine preserves_afterRelease (reports_emit_elsewhere elsewhere) ?_ answer
    exact reports_of_table fun _ => rfl

/-- A new resource is told of once it is in the table, and its bucket if it is the first there. -/
theorem leaves_announce_of_entered {rtype : ResourceType} (reported : m.Reported n holds)
    (absent : ((m.space n).table.bucket ((m.space n).table.bucketOf id)).find? id = none)
    (bref : Nat) :
    (announce ⟨n, (m.space n).table.resources.nextKey⟩
      ((m.space n).table.bucket ((m.space n).table.bucketOf id)).entries.isEmpty bref).Leaves
      (m.entered n id rtype) fun _ m' => m.Continues n holds m' := by
  let t := (m.space n).table
  let b := t.bucketOf id
  let candidate : Resource := .new id rtype b (m.space n).config.dumpGrantedMax.toNat
  let r : ResourceRef := ⟨n, t.resources.nextKey⟩
  let m₁ := m.entered n id rtype
  have table : (m₁.space n).table = t.enter b candidate := table_setTable ..
  have resource : m₁.resource r = candidate := by
    show (m₁.space n).table.resource _ = _
    rw [table, Table.resource_enter, if_pos rfl]
  have report : ∀ event, (m₁.space n).table.report event (m₁.resource r) =
      (t.enter b candidate).report event candidate := fun event => by rw [table, resource]
  have size : m.spaces.size ≤ m₁.spaces.size := size_le_modifySpace _
  have none : (t.bucket b).find? candidate.id = none := absent
  have own : t.bucketOf candidate.id = b := rfl
  have filed := reported.filed.enter none rfl own
  have home := reported.filed.bucketOf_enter own
  let m₂ := m₁.told r .created
  have created : m₂.reports n =
      m.reports n ++ [(t.enter b candidate).report .created candidate] := by
    rw [reports_told, if_pos rfl]
    exact congrArg (m.reports n ++ [·]) (report .created)
  show (announce r (t.bucket b).entries.isEmpty bref).Leaves m₁ _
  cases first : (t.bucket b).entries.isEmpty with
  | false =>
    refine leaves_of_run (run_announce_of_later r bref m₁) ?_
    exact continues_of_tells reported size table filed home created
      (reported.shows.tells_enter none reported.filed rfl own first rfl)
  | true =>
    let m₃ := m₂.told r .bucketOccupied
    have occupied : m₃.reports n = m.reports n ++
        [(t.enter b candidate).report .created candidate,
          (t.enter b candidate).report .bucketOccupied candidate] := by
      rw [reports_told, if_pos rfl, created, List.append_assoc]
      exact congrArg (m.reports n ++ [_, ·]) (report .bucketOccupied)
    have continues : m.Continues n holds m₃ :=
      continues_of_tells reported size table filed home occupied
        (reported.shows.tells_enter none reported.filed rfl own first rfl)
    have moves : (if bref = 1 && (m₁.space r.space).isClient then moveTo .client r.space .active
        else pure () : Act Unit).Preserves (KeepsReports n holds) := by
      split
      · exact reports_moveTo _ _
      · exact preserves_pure _
    rw [leaves_congr (run_announce_of_first r bref m₁)]
    refine (moves m₃).imp fun _ m' after => ?_
    exact trans_of (KeepsReports n holds) (fun _ => continues) after reported

theorem reports_getOrCreate (id : ResourceId) (rtype : ResourceType) (create : Bool) :
    (getOrCreate k id rtype create).Preserves (KeepsReports n holds) := by
  by_cases elsewhere : k = n
  swap
  · exact reports_getOrCreate_elsewhere elsewhere rtype create
  subst elsewhere
  refine preserves_of_reported fun m reported => ?_
  have still : m.Continues k holds m := refl_of (KeepsReports k holds) m reported
  have files : ∀ {t}, (m.space k).table.SameFiles t → m.Continues k holds (m.setTable k t) :=
    fun same => keepsReports_modifySpace same reported
  by_cases unnamed : id.seq = 0
  · unfold getOrCreate
    rw [if_pos unnamed]
    exact still
  cases found : ((m.space k).table.bucket ((m.space k).table.bucketOf id)).find? id with
  | some key =>
    by_cases lost : ((m.space k).table.resource key).refcount = 0
    · exact leaves_of_error (run_getOrCreate_of_lost unnamed found lost) still
    · refine leaves_of_run
        (run_getOrCreate_of_find? unnamed found (Nat.pos_of_ne_zero lost)) ?_
      exact files (Table.sameFiles_modifyResource rfl rfl)
  | none =>
    cases create with
    | false => exact leaves_of_run (run_getOrCreate_of_missing unnamed found) (files .rfl)
    | true =>
      rw [leaves_congr (run_getOrCreate_of_entered rtype unnamed found)]
      refine (leaves_announce_of_entered reported found _).bind (fun _ _ after => ?_)
        fun _ _ after => after
      exact leaves_pure.mpr after

/-- A resource that leaves its table is told of after that, with its bucket if it was the last
there. -/
theorem continues_of_freed {t : Table} {emptied : Bool} (table : (m.space r.space).table = t)
    (reported : m.Reported r.space holds)
    (member : ((t.resource r.key).id, r.key) ∈ (t.bucket (t.resource r.key).bucket).entries)
    (is : ((t.strike r.key).bucket (t.resource r.key).bucket).entries.isEmpty = emptied)
    (bref : Nat) :
    m.Continues r.space holds ((m.setTable r.space (t.strike r.key)).freed r emptied bref) := by
  subst table
  let t := (m.space r.space).table
  let m₁ : Manager :=
    if emptied && bref = 0 then
      (m.setTable r.space (t.strike r.key)).modifySpace r.space fun s =>
        { s with signals := s.signals + 1 }
    else m.setTable r.space (t.strike r.key)
  have size : m.spaces.size ≤ m₁.spaces.size := by
    unfold m₁
    split
    · exact (size_le_modifySpace _).trans (size_le_modifySpace _)
    · exact size_le_modifySpace _
  have table : (m₁.space r.space).table = t.strike r.key := by
    unfold m₁
    split
    · rw [space_modifySpace, if_pos rfl]
      exact table_setTable ..
    · exact table_setTable ..
  have before : m₁.reports r.space = m.reports r.space := by
    unfold m₁
    split
    · rfl
    · rfl
  have report : ∀ event, (m₁.space r.space).table.report event (m₁.resource r) =
      (t.strike r.key).report event (t.resource r.key) := by
    intro event
    rw [Manager.resource, table]
    rfl
  have filed := reported.filed.strike member
  have home := reported.filed.bucketOf_strike member
  let m₂ := m₁.told r .freed
  have freed : m₂.reports r.space =
      m.reports r.space ++ [(t.strike r.key).report .freed (t.resource r.key)] := by
    rw [reports_told, if_pos rfl, before]
    exact congrArg (m.reports r.space ++ [·]) (report .freed)
  cases emptied with
  | false =>
    exact continues_of_tells reported size table filed home freed
      (reported.shows.tells_strike reported.filed member is rfl)
  | true =>
    have both : (m₂.told r .bucketEmptied).reports r.space = m.reports r.space ++
        [(t.strike r.key).report .freed (t.resource r.key),
          (t.strike r.key).report .bucketEmptied (t.resource r.key)] := by
      rw [reports_told, if_pos rfl, freed, List.append_assoc]
      exact congrArg (m.reports r.space ++ [_, ·]) (report .bucketEmptied)
    exact continues_of_tells reported size table filed home both
      (reported.shows.tells_strike reported.filed member is rfl)

theorem reports_release : (release r).Preserves (KeepsReports n holds) := by
  by_cases elsewhere : r.space = n
  swap
  · exact reports_release_elsewhere elsewhere
  subst elsewhere
  refine preserves_of_reported fun m reported => ?_
  obtain ⟨t, same, how⟩ := reported.filed.release_cases r.key
  have dropped : KeepsReports r.space holds m (m.setTable r.space t) :=
    keepsReports_modifySpace same
  obtain ⟨fault, failed⟩ | kept | ⟨member, freed⟩ := how
  · obtain ⟨log, run⟩ := run_release_of_error failed
    have logged : KeepsReports r.space holds (m.setTable r.space t)
        { m.setTable r.space t with log } := keepsReports_of_spaces rfl rfl
    exact leaves_of_error run (trans_of (KeepsReports r.space holds) dropped logged reported)
  · exact leaves_of_run (run_release_of_kept kept) (dropped reported)
  · refine leaves_of_run (run_release_of_freed freed) ?_
    rw [← setTable_setTable m r.space t]
    refine trans_of (KeepsReports r.space holds) dropped (fun mid => ?_) reported
    exact continues_of_freed (table_setTable ..) mid member rfl _

/-- A new namespace is not the one that is reported on. -/
theorem reports_build (setup : Setup) : (build setup).Preserves (KeepsReports n holds) := by
  unfold build
  split
  · exact preserves_pure _
  · refine Preserves.bind (fun _ => keepsReports_of_spaces rfl rfl) fun _ =>
      Preserves.bind (fun m reported => ?_) fun _ => reports_register.bind fun _ => preserves_pure _
    have other : n ≠ m.spaces.nextKey := by
      rintro rfl
      exact lt_irrefl _ reported.built
    refine keepsReports_of_files ?_ ?_ rfl reported
    · show _ ≤ (m.spaces.set _ _).size
      rw [Store.size_set]
      exact le_max_left _ _
    · show (m.space n).table.SameFiles ((m.spaces.set m.spaces.nextKey _).get n).table
      rw [Store.get_set_of_ne _ other]
      exact .rfl

theorem reports_newLock (handle : LockHandle) (mode : LockMode) (extent : Option Extent) :
    (newLock handle mode extent).Preserves (KeepsReports n holds) :=
  fun _ => keepsReports_of_spaces rfl rfl

/-- Whatever is called about resources and locks, the reports go on to replay the table. -/
theorem reports_calls : CallsWithin (KeepsReports n holds) where
  others _ _ spaces _ trace := keepsReports_of_spaces spaces (reports_of_trace trace)
  spaced _ _ table := reports_of_table table
  relocked _ f _ := reports_modifyLock f
  noted _ := reports_note
  built := reports_build
  got _ := reports_getOrCreate
  cloned _ := reports_retain
  listed _ := reports_resources
  released _ := reports_release
  made := reports_newLock
  added _ _ _ := reports_addLock
  inserted _ anchor _ := reports_insertAfter anchor
  unlinked _ _ := reports_unlink

end Act

end Lockspace
