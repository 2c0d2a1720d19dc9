import Lockspace.Proofs.LockFrames
import Lockspace.Proofs.Steady

namespace Lockspace

/-- What the registry knows of a namespace: its side, the list that it is on, and whether it was
freed. -/
def Namespace.place (s : Namespace) : Side × NamespaceLink × Bool :=
  (s.side, s.link, s.freed)

namespace Manager

/-- The second state has the same registry as the first, and every namespace has its place in it.
Nothing is said about what else changes. -/
structure SameRoll (m m' : Manager) : Prop where
  registry : m'.registry = m.registry
  spaces : m.spaces.size ≤ m'.spaces.size
  place : ∀ n, (m'.space n).place = (m.space n).place

namespace SameRoll

variable {m m' m'' : Manager}

theorem rfl : SameRoll m m :=
  ⟨Eq.refl _, le_rfl, fun _ => Eq.refl _⟩

theorem trans (first : SameRoll m m') (second : SameRoll m' m'') : SameRoll m m'' where
  registry := second.registry.trans first.registry
  spaces := first.spaces.trans second.spaces
  place n := (second.place n).trans (first.place n)

instance : IsPreorder Manager SameRoll where
  refl _ := .rfl
  trans _ _ _ := .trans

theorem side (same : SameRoll m m') (n : SpaceKey) : (m'.space n).side = (m.space n).side :=
  congrArg (·.1) (same.place n)

theorem link (same : SameRoll m m') (n : SpaceKey) : (m'.space n).link = (m.space n).link :=
  congrArg (·.2.1) (same.place n)

theorem freed (same : SameRoll m m') (n : SpaceKey) : (m'.space n).freed = (m.space n).freed :=
  congrArg (·.2.2) (same.place n)

/-- Nothing but namespaces and lists counts. -/
theorem of_eq (spaces : m'.spaces = m.spaces) (registry : m'.registry = m.registry) :
    SameRoll m m' := by
  refine ⟨registry, by rw [spaces], fun n => ?_⟩
  simp only [Manager.space, spaces]

end SameRoll

theorem size_modifySpace (m : Manager) (n : SpaceKey) (f : Namespace → Namespace) :
    (m.modifySpace n f).spaces.size = max m.spaces.size (n.index + 1) :=
  Store.size_set ..

theorem sameRoll_modifySpace {m : Manager} (n : SpaceKey) {f : Namespace → Namespace}
    (keeps : (f (m.space n)).place = (m.space n).place) : SameRoll m (m.modifySpace n f) := by
  refine ⟨rfl, ?_, fun k => ?_⟩
  · rw [size_modifySpace]
    exact le_max_left ..
  · exact view_modifySpace (·.place) keeps k

end Manager

open Manager

namespace Act

variable {α : Type} {n : SpaceKey} {l : LockKey} {r : ResourceRef}

theorem sameRoll_note (call : Callback) : (note call).Preserves SameRoll :=
  fun _ => .of_eq rfl rfl

theorem sameRoll_log (level : Level) (text : String) : (log level text).Preserves SameRoll :=
  fun _ => .of_eq rfl rfl

theorem sameRoll_modifyLock (f : Lock → Lock) : (modifyLock l f).Preserves SameRoll :=
  fun _ => .of_eq rfl rfl

theorem sameRoll_modifySpace {f : Namespace → Namespace} (keeps : ∀ s, (f s).place = s.place) :
    (modifySpace n f).Preserves SameRoll :=
  fun _ => Manager.sameRoll_modifySpace n (keeps _)

theorem sameRoll_setTable (t : Table) : (setTable n t).Preserves SameRoll :=
  fun _ => Manager.sameRoll_modifySpace n rfl

theorem sameRoll_dumpResource (level : Level) : (dumpResource level r).Preserves SameRoll :=
  preserves_get.bind fun _ => preserves_forM fun line _ => sameRoll_log level line.text

theorem sameRoll_emit (event : ResourceEvent) : (emit r event).Preserves SameRoll :=
  preserves_space.bind fun _ => preserves_resource.bind fun _ => sameRoll_note _

theorem sameRoll_signal : (signal n).Preserves SameRoll :=
  sameRoll_modifySpace fun _ => rfl

/-- A step of a table is no concern of the registry. -/
theorem sameRoll_step (step : Table → Except Fault (α × Table)) :
    (do
      let (a, t) ← ofExcept (step (← space n).table)
      setTable n t
      return a : Act α).Preserves SameRoll :=
  preserves_step step fun m _ t _ => sameRoll_setTable t m

theorem sameRoll_retain : (retain r).Preserves SameRoll :=
  preserves_retain fun m t _ => sameRoll_setTable t m

theorem sameRoll_resources : (Act.resources n).Preserves SameRoll :=
  preserves_resources fun m _ t _ => sameRoll_setTable t m

theorem sameRoll_releaseLocked : (releaseLocked r).Preserves SameRoll :=
  preserves_releaseLocked (fun m => sameRoll_setTable _ m) (sameRoll_dumpResource .error)

theorem sameRoll_afterRelease (answer : Release) : (afterRelease r answer).Preserves SameRoll :=
  preserves_afterRelease sameRoll_emit sameRoll_signal answer

theorem sameRoll_release : (release r).Preserves SameRoll :=
  sameRoll_releaseLocked.bind fun answer => sameRoll_afterRelease answer

theorem sameRoll_dropHold : (dropHold n).Preserves SameRoll := by
  refine Preserves.bind (preserves_space.bind fun s => ?_) fun count => ?_
  · split
    · exact preserves_throw _
    · exact (sameRoll_setTable _).bind fun _ => preserves_pure _
  · split
    · exact sameRoll_signal.bind fun _ => preserves_pure _
    · exact preserves_pure _

theorem sameRoll_drops : DropsWithin SameRoll where
  release _ := sameRoll_release
  unbound _ := sameRoll_modifyLock _
  owners _ _ := sameRoll_modifyLock _
  unused _ _ := sameRoll_modifySpace fun _ => rfl

theorem sameRoll_locks : LocksWithin SameRoll where
  lock _ _ := sameRoll_modifyLock _
  resource _ _ _ := Manager.sameRoll_modifySpace _ rfl
  stats _ _ := sameRoll_modifySpace fun _ => rfl
  logged := sameRoll_log

theorem sameRoll_put : (put r).Preserves SameRoll :=
  sameRoll_drops.put r

theorem sameRoll_disown : (disown l).Preserves SameRoll :=
  sameRoll_drops.disown l

theorem sameRoll_ownSpace : (ownSpace n).Preserves SameRoll :=
  sameRoll_modifySpace fun _ => rfl

theorem sameRoll_disownSpace : (disownSpace n).Preserves SameRoll := by
  refine (sameRoll_modifySpace ?_).bind fun _ => sameRoll_drops.dropIfDeserted n
  exact fun _ => rfl

theorem sameRoll_finalizeUnused : (finalizeUnused n).Preserves SameRoll :=
  sameRoll_drops.finalizeUnused n

theorem sameRoll_retireStats : (retireStats n).Preserves SameRoll := by
  refine preserves_space.bind fun s => Preserves.bind ?_ fun _ => sameRoll_modifySpace ?_
  · exact fun _ => .of_eq rfl rfl
  · exact fun _ => rfl

theorem sameRoll_clearTable : (clearTable n).Preserves SameRoll :=
  preserves_space.bind fun _ => (sameRoll_setTable _).bind fun _ => preserves_pure _

end Act

end Lockspace
