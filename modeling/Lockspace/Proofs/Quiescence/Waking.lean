import Lockspace.Proofs.LockFrames
import Lockspace.Proofs.Queueing.Books

namespace Lockspace

namespace Table

variable {t t' : Table} {key : ResourceKey} {b : BucketKey}

theorem le_bref_of_insert {candidate : Resource} {seen : Nat} {done : Insertion}
    (run : t.insert b candidate seen = .ok (done, t')) : t.bref ≤ t'.bref := by
  rcases recounted_or_entered_of_insert run with counted | rfl
  · exact counted.bref.ge
  · show t.bref ≤ if _ then _ else _
    split
    · exact Nat.le_succ _
    · exact le_rfl

theorem bref_evict : (t.evict key).1.bref = t.bref ∨
    (t.evict key).2 = .ok (.freed true (t.evict key).1.bref) := by
  simp only [evict]
  split
  · exact Or.inl rfl
  split
  · exact Or.inl rfl
  split
  · exact Or.inl rfl
  split
  · exact Or.inl rfl
  · exact Or.inr rfl

/-- A release that changes the count of a namespace has emptied a bucket, and says so. -/
theorem bref_release : (t.release key).1.bref = t.bref ∨
    (t.release key).2 = .ok (.freed true (t.release key).1.bref) := by
  rcases t.release_cases key with run | run | run <;> rw [run]
  · exact Or.inl rfl
  · exact Or.inl rfl
  · exact bref_evict.imp_left (·.trans rfl)

theorem bref_clearFrom (buckets : List BucketKey) : (t.clearFrom buckets).2.bref = t.bref := by
  induction buckets generalizing t with
  | nil => rfl
  | cons b rest ih => exact ih

end Table

/-- A namespace that loses its last reference tells so. -/
structure Namespace.Wakes (s s' : Namespace) : Prop where
  signals : s.signals ≤ s'.signals
  woken : s'.signals = s.signals → s.table.bref ≠ 0 → s'.table.bref ≠ 0

namespace Namespace.Wakes

variable {s s' s'' : Namespace}

theorem rfl : s.Wakes s :=
  ⟨le_rfl, fun _ used => used⟩

theorem trans (first : s.Wakes s') (second : s'.Wakes s'') : s.Wakes s'' where
  signals := first.signals.trans second.signals
  woken same used := by
    have before := first.signals
    have after := second.signals
    exact second.woken (by omega) (first.woken (by omega) used)

/-- More references wake nobody. -/
theorem of_le (signals : s'.signals = s.signals) (bref : s.table.bref ≤ s'.table.bref) :
    s.Wakes s' :=
  ⟨signals.ge, fun _ used => by omega⟩

end Namespace.Wakes

namespace Manager

/-- No namespace loses its last reference without a signal to those who wait for it. -/
def Wakes (m m' : Manager) : Prop :=
  ∀ n, (m.space n).Wakes (m'.space n)

namespace Wakes

variable {m m' m'' : Manager}

instance : IsPreorder Manager Wakes where
  refl _ _ := .rfl
  trans _ _ _ first second n := (first n).trans (second n)

theorem of_spaces (same : m'.spaces = m.spaces) : Wakes m m' := by
  intro n
  simp only [Manager.space, same]
  exact .rfl

theorem modifySpace {n : SpaceKey} {f : Namespace → Namespace}
    (wakes : (m.space n).Wakes (f (m.space n))) : Wakes m (m.modifySpace n f) := by
  intro k
  rw [space_modifySpace]
  split
  · rename_i same
    rw [same]
    exact wakes
  · exact .rfl

/-- Another table of a namespace, with no fewer references. -/
theorem setTable {n : SpaceKey} {t : Table} (bref : (m.space n).table.bref ≤ t.bref) :
    Wakes m (m.setTable n t) :=
  modifySpace (.of_le (Eq.refl _) bref)

theorem setTable_of_used {n : SpaceKey} {t : Table} (used : t.bref ≠ 0) :
    Wakes m (m.setTable n t) :=
  modifySpace ⟨le_rfl, fun _ _ => used⟩

/-- With a signal, whatever reference may go. -/
theorem setTable_signalled (m : Manager) (n : SpaceKey) (t : Table) :
    Wakes m ((m.setTable n t).modifySpace n fun s => { s with signals := s.signals + 1 }) := by
  intro k
  simp only [Manager.setTable, space_modifySpace, if_true]
  split
  · rename_i here
    rw [here]
    exact ⟨Nat.le_succ _, fun same => absurd same (Nat.succ_ne_self _)⟩
  · exact .rfl

/-- A new namespace takes the place of none that is referenced. -/
theorem added {fresh : Namespace} (spaces : m'.spaces = m.spaces.set m.spaces.nextKey fresh) :
    Wakes m m' := by
  intro k
  rw [space_added spaces]
  split
  · rename_i new
    have absent : m.space k = default := Store.get_of_size_le _ (new ▸ Nat.le_refl _)
    rw [absent]
    exact ⟨Nat.zero_le _, fun _ used => absurd (Eq.refl _) used⟩
  · exact .rfl

end Wakes

end Manager

open Manager Table

namespace Act

variable {n : SpaceKey} {l : LockKey} {r : ResourceRef}

theorem wakes_note (call : Callback) : (note call).Preserves Wakes :=
  fun _ => .of_spaces rfl

theorem wakes_log (level : Level) (text : String) : (log level text).Preserves Wakes :=
  fun _ => .of_spaces rfl

theorem wakes_modifyLock (f : Lock → Lock) : (modifyLock l f).Preserves Wakes :=
  fun _ => .of_spaces rfl

/-- What changes of a namespace besides its count and its signals wakes nobody. -/
theorem wakes_modifySpace {f : Namespace → Namespace} (signals : ∀ s, (f s).signals = s.signals)
    (bref : ∀ s, (f s).table.bref = s.table.bref) : (modifySpace n f).Preserves Wakes :=
  fun _ => Wakes.modifySpace (.of_le (signals _) (bref _).ge)

theorem wakes_locks : LocksWithin Wakes where
  lock _ _ := wakes_modifyLock _
  resource _ _ _ := Wakes.modifySpace (.of_le rfl le_rfl)
  stats _ _ := wakes_modifySpace (fun _ => rfl) fun _ => rfl
  logged := wakes_log

theorem wakes_emit (event : ResourceEvent) : (emit r event).Preserves Wakes :=
  preserves_space.bind fun _ => preserves_resource.bind fun _ => wakes_note _

theorem wakes_signal : (signal n).Preserves Wakes :=
  fun _ => Wakes.modifySpace ⟨Nat.le_succ _, fun same => absurd same (Nat.succ_ne_self _)⟩

/-- A release may only take the last reference of a namespace where it empties a bucket. -/
theorem leaves_releaseLocked (m : Manager) :
    (releaseLocked r).Leaves m fun answer m' => Wakes m m' ∨
      ∃ t, m' = m.setTable r.space t ∧ answer = .ok (.freed true t.bref) := by
  unfold releaseLocked
  simp only [leaves_bind, leaves_space, leaves_setTable]
  have changed := @Table.bref_release (m.space r.space).table r.key
  generalize (m.space r.space).table.release r.key = released at changed
  obtain ⟨t, answer⟩ := released
  rcases changed with same | emptied
  · have kept : Wakes m (m.setTable r.space t) := .setTable same.ge
    cases answer with
    | ok answer => exact Or.inl kept
    | error fault =>
      have onward {act : Act Release} (still : act.Preserves Wakes) :
          act.Leaves (m.setTable r.space t) fun answer m' => Wakes m m' ∨
            ∃ t, m' = m.setTable r.space t ∧ answer = .ok (.freed true t.bref) :=
        (still _).imp fun _ _ after => Or.inl (trans_of Wakes kept after)
      apply onward
      dsimp only
      split
      · exact Preserves.bind (wakes_locks.dumpResource .error r) fun _ => preserves_throw _
      · exact preserves_throw fault
  · obtain rfl : answer = .ok (.freed true t.bref) := emptied
    exact Or.inr ⟨t, rfl, rfl⟩

/-- Who drops the last reference of a namespace signals that before anything else. -/
theorem wakes_release : (release r).Preserves Wakes := by
  intro m
  unfold release
  rw [leaves_bind]
  refine (leaves_releaseLocked m).imp fun answer m₁ released => ?_
  rcases released with kept | ⟨t, rfl, rfl⟩
  · cases answer with
    | ok answer =>
      have onward : (afterRelease r answer).Preserves Wakes :=
        preserves_afterRelease wakes_emit wakes_signal answer
      exact (onward m₁).imp fun _ _ => trans_of Wakes kept
    | error fault => exact kept
  · show (if _ then _ else _ : Act Bool).Leaves _ _
    split
    · rw [leaves_bind]
      have signalled := Wakes.setTable_signalled m r.space t
      exact (preserves_told wakes_emit true _).imp fun _ _ => trans_of Wakes signalled
    · rename_i more
      have kept : Wakes m (m.setTable r.space t) := .setTable_of_used (by simpa using more)
      exact (preserves_told wakes_emit true _).imp fun _ _ => trans_of Wakes kept

theorem wakes_drops : DropsWithin Wakes where
  release _ := wakes_release
  unbound _ := wakes_modifyLock _
  owners _ _ := wakes_modifyLock _
  unused _ _ := wakes_modifySpace (fun _ => rfl) fun _ => rfl

/-- A step of a table that takes no reference from the namespace. -/
theorem wakes_step {α : Type} (step : Table → Except Fault (α × Table))
    (bref : ∀ t a t', step t = .ok (a, t') → t.bref ≤ t'.bref) :
    (do
      let (a, t) ← ofExcept (step (← space n).table)
      setTable n t
      return a : Act α).Preserves Wakes :=
  preserves_step step fun _ _ _ run => .setTable (bref _ _ _ run)

theorem wakes_retain : (retain r).Preserves Wakes :=
  preserves_retain fun _ _ run => .setTable (recounted_of_incref run).bref.ge

theorem wakes_resources : (Act.resources n).Preserves Wakes :=
  preserves_resources fun _ _ _ run => .setTable (snapshotFrom_cases run).2.bref.ge

theorem wakes_moveTo (side : Side) (link : NamespaceLink) :
    (moveTo side n link).Preserves Wakes :=
  preserves_moveTo (fun _ _ => .of_spaces rfl) fun _ =>
    wakes_modifySpace (fun _ => rfl) fun _ => rfl

theorem wakes_getOrCreate (id : ResourceId) (rtype : ResourceType) (create : Bool) :
    (getOrCreate n id rtype create).Preserves Wakes :=
  preserves_getOrCreate
    (fun b => wakes_step (·.lookup b id) fun _ _ _ run => (recounted_of_lookup run).bref.ge)
    (fun b _ _ seen => wakes_step (·.insert b _ seen) fun _ _ _ => le_bref_of_insert)
    (fun _ => preserves_announce wakes_emit (wakes_moveTo _ _)) create

theorem wakes_takeHold : (takeHold n).Preserves Wakes := by
  intro m
  have more : Wakes m (m.modifySpace n fun s => { s with table := s.table.takeHold }) :=
    Wakes.modifySpace (.of_le rfl (Nat.le_succ _))
  exact more

/-- Who gives back the last hold signals that. -/
theorem wakes_dropHold : (dropHold n).Preserves Wakes := by
  intro m
  unfold dropHold dropHoldCount
  simp only [leaves_bind, leaves_space]
  cases (m.space n).table.dropHold? with
  | none => exact refl_of Wakes m
  | some t =>
    simp only [leaves_bind, leaves_setTable, leaves_pure]
    split
    · exact Wakes.setTable_signalled m n t
    · rename_i used
      exact Wakes.setTable_of_used used

theorem wakes_disownSpace : (disownSpace n).Preserves Wakes := by
  refine Preserves.bind ?_ fun _ => wakes_drops.dropIfDeserted n
  exact wakes_modifySpace (fun _ => rfl) fun _ => rfl

theorem wakes_register : (register n).Preserves Wakes :=
  preserves_register (fun _ _ => .of_spaces rfl) fun _ =>
    wakes_modifySpace (fun _ => rfl) fun _ => rfl

/-- To free a namespace changes no count but by the references that its unused locks own. -/
theorem wakes_freePost : (freePost n).Preserves Wakes := by
  refine wakes_drops.freePost n (fun _ _ => .of_spaces) (fun f table signals _ => ?_) fun m => ?_
  · exact wakes_modifySpace signals fun s => by rw [table]
  · exact Wakes.setTable ((m.space n).table.bref_clearFrom _).ge

theorem wakes_build (setup : Setup) : (build setup).Preserves Wakes := by
  unfold build
  split
  · exact preserves_pure _
  · exact Preserves.bind (fun m => .of_spaces rfl) fun _ => Preserves.bind (fun m => .added rfl)
      fun n => wakes_register.bind fun _ => preserves_pure _

end Act

end Lockspace
