import Lockspace.Manager.Locks
import Lockspace.Proofs.Lined
import Lockspace.Proofs.Outcomes

namespace Lockspace

/-- Whether a call is one that asks a peer to cancel a lock. -/
def Callback.isPeerCall : Callback → Bool
  | peerCancel .. => true
  | _ => false

namespace Manager

/-- The calls so far that asked a peer to cancel a lock, in order. -/
def peerCalls (m : Manager) : Array Callback :=
  m.trace.filter (·.isPeerCall)

/-- The second state comes from the first without any lock getting onto a queue or off one, or being
destroyed. Locks on queues keep their homes, queues that were in order still are, and the counts of
queued locks stay. -/
structure Unmoved (m m' : Manager) : Prop where
  link : ∀ l, (m'.lock l).link = (m.lock l).link
  mode : ∀ l, (m'.lock l).mode = (m.lock l).mode
  home : ∀ l, (m.lock l).link ≠ none → (m'.lock l).home = (m.lock l).home
  destroyed : ∀ l, (m'.lock l).isDestroyed = (m.lock l).isDestroyed
  queues : ∀ r, (m'.resource r).queues = (m.resource r).queues
  queued : ∀ r, (m'.resource r).queued = (m.resource r).queued
  lined : ∀ r, (m.resource r).Lined m.lock → (m'.resource r).Lined m'.lock
  locks : ∀ n, (m'.space n).stats.locks = (m.space n).stats.locks
  granted : ∀ n, (m'.space n).stats.granted = (m.space n).stats.granted

/-- No peer is asked, and no namespace changes its side. -/
structure Unheard (m m' : Manager) : Prop where
  side : ∀ n, (m'.space n).side = (m.space n).side
  calls : m'.peerCalls = m.peerCalls

/-- No peer hears anything, and every namespace keeps its owners and stays on its list. -/
structure Inward (m m' : Manager) : Prop extends Unheard m m' where
  owners : ∀ n, (m'.space n).owners = (m.space n).owners
  listed : ∀ n, (m'.space n).link = (m.space n).link
  registry : m'.registry = m.registry

/-- Neither a lock moves nor is anything noticed outside. -/
structure Steady (m m' : Manager) : Prop extends Unmoved m m', Inward m m'

variable {m m' m'' : Manager}

theorem Unmoved.rfl : Unmoved m m :=
  ⟨fun _ => Eq.refl _, fun _ => Eq.refl _, fun _ _ => Eq.refl _, fun _ => Eq.refl _,
    fun _ => Eq.refl _, fun _ => Eq.refl _, fun _ => id, fun _ => Eq.refl _, fun _ => Eq.refl _⟩

theorem Unmoved.trans (first : Unmoved m m') (second : Unmoved m' m'') : Unmoved m m'' where
  link l := (second.link l).trans (first.link l)
  mode l := (second.mode l).trans (first.mode l)
  home l on := by
    have still : (m'.lock l).link ≠ none := by
      rw [first.link]
      exact on
    exact (second.home l still).trans (first.home l on)
  destroyed l := (second.destroyed l).trans (first.destroyed l)
  queues r := (second.queues r).trans (first.queues r)
  queued r := (second.queued r).trans (first.queued r)
  lined r := fun lined => second.lined r (first.lined r lined)
  locks n := (second.locks n).trans (first.locks n)
  granted n := (second.granted n).trans (first.granted n)

instance : IsPreorder Manager Unmoved where
  refl _ := .rfl
  trans _ _ _ := .trans

theorem Unheard.rfl : Unheard m m :=
  ⟨fun _ => Eq.refl _, Eq.refl _⟩

theorem Unheard.trans (first : Unheard m m') (second : Unheard m' m'') : Unheard m m'' where
  side n := (second.side n).trans (first.side n)
  calls := second.calls.trans first.calls

instance : IsPreorder Manager Unheard where
  refl _ := .rfl
  trans _ _ _ := .trans

theorem Inward.rfl : Inward m m :=
  ⟨.rfl, fun _ => Eq.refl _, fun _ => Eq.refl _, Eq.refl _⟩

theorem Inward.trans (first : Inward m m') (second : Inward m' m'') : Inward m m'' where
  toUnheard := first.toUnheard.trans second.toUnheard
  owners n := (second.owners n).trans (first.owners n)
  listed n := (second.listed n).trans (first.listed n)
  registry := second.registry.trans first.registry

instance : IsPreorder Manager Inward where
  refl _ := .rfl
  trans _ _ _ := .trans

theorem Steady.rfl : Steady m m :=
  ⟨.rfl, .rfl⟩

theorem Steady.trans (first : Steady m m') (second : Steady m' m'') : Steady m m'' :=
  ⟨first.toUnmoved.trans second.toUnmoved, first.toInward.trans second.toInward⟩

instance : IsPreorder Manager Steady where
  refl _ := .rfl
  trans _ _ _ := .trans

/-- No lock moves where neither locks nor resources nor counts change. -/
theorem Unmoved.of_eq (locks : m'.locks = m.locks) (resource : ∀ r, m'.resource r = m.resource r)
    (total : ∀ n, (m'.space n).stats.locks = (m.space n).stats.locks)
    (granted : ∀ n, (m'.space n).stats.granted = (m.space n).stats.granted) : Unmoved m m' := by
  have lock : m'.lock = m.lock := by
    funext l
    simp only [Manager.lock, locks]
  constructor <;> simp only [lock, resource, total, granted, implies_true, imp_self]

/-- States with the same namespaces and lists, in which the peers heard the same. -/
theorem Inward.of_eq (spaces : m'.spaces = m.spaces) (registry : m'.registry = m.registry)
    (calls : m'.peerCalls = m.peerCalls) : Inward m m' := by
  have space : ∀ n, m'.space n = m.space n := fun n => by simp only [Manager.space, spaces]
  refine ⟨⟨fun n => ?_, calls⟩, fun n => ?_, fun n => ?_, registry⟩
  all_goals rw [space]

theorem Steady.of_eq (spaces : m'.spaces = m.spaces) (locks : m'.locks = m.locks)
    (registry : m'.registry = m.registry) (calls : m'.peerCalls = m.peerCalls) : Steady m m' := by
  have space : ∀ n, m'.space n = m.space n := fun n => by simp only [Manager.space, spaces]
  refine ⟨.of_eq locks (fun r => ?_) (fun n => ?_) fun n => ?_, .of_eq spaces registry calls⟩
  · simp only [Manager.resource, space]
  all_goals rw [space]

/-- What a change of one lock keeps of that lock, it keeps of all. -/
theorem view_modifyLock {β : Type} (view : Lock → β) {l : LockKey} {f : Lock → Lock}
    (keeps : view (f (m.lock l)) = view (m.lock l)) (k : LockKey) :
    view ((m.modifyLock l f).lock k) = view (m.lock k) := by
  rw [lock_modifyLock]
  split
  · rename_i same
    rw [keeps, same]
  · rfl

/-- What a change of one namespace keeps of that namespace, it keeps of all. -/
theorem view_modifySpace {β : Type} (view : Namespace → β) {n : SpaceKey}
    {f : Namespace → Namespace} (keeps : view (f (m.space n)) = view (m.space n)) (k : SpaceKey) :
    view ((m.modifySpace n f).space k) = view (m.space k) := by
  rw [space_modifySpace]
  split
  · rename_i same
    rw [keeps, same]
  · rfl

theorem view_setTable {β : Type} (view : Namespace → β) {n : SpaceKey} {t : Table}
    (keeps : view { m.space n with table := t } = view (m.space n)) (k : SpaceKey) :
    view ((m.setTable n t).space k) = view (m.space k) :=
  view_modifySpace view keeps k

theorem steady_modifyLock (l : LockKey) {f : Lock → Lock}
    (link : (f (m.lock l)).link = (m.lock l).link) (mode : (f (m.lock l)).mode = (m.lock l).mode)
    (home : (m.lock l).link ≠ none → (f (m.lock l)).home = (m.lock l).home)
    (destroyed : (f (m.lock l)).isDestroyed = (m.lock l).isDestroyed) :
    Steady m (m.modifyLock l f) := by
  have links := view_modifyLock (·.link) link
  have modes := view_modifyLock (·.mode) mode
  refine ⟨⟨links, modes, ?_, view_modifyLock (·.isDestroyed) destroyed, fun _ => rfl, fun _ => rfl,
    ?_, fun _ => rfl, fun _ => rfl⟩, .of_eq rfl rfl rfl⟩
  · intro k on
    rw [lock_modifyLock]
    split
    · rename_i same
      subst same
      exact home on
    · rfl
  · exact fun r lined => lined.others fun _ k _ => ⟨links k, modes k⟩

theorem unmoved_modifySpace (n : SpaceKey) {f : Namespace → Namespace}
    (table : (f (m.space n)).table = (m.space n).table)
    (stats : (f (m.space n)).stats = (m.space n).stats) : Unmoved m (m.modifySpace n f) := by
  refine .of_eq rfl (fun r => ?_) (fun k => ?_) fun k => ?_
  · exact congrArg (·.resource r.key) (view_modifySpace (·.table) table r.space)
  · rw [view_modifySpace (·.stats) stats]
  · rw [view_modifySpace (·.stats) stats]

theorem inward_modifySpace (n : SpaceKey) {f : Namespace → Namespace}
    (side : (f (m.space n)).side = (m.space n).side)
    (owners : (f (m.space n)).owners = (m.space n).owners)
    (link : (f (m.space n)).link = (m.space n).link) : Inward m (m.modifySpace n f) :=
  ⟨⟨view_modifySpace (·.side) side, rfl⟩, view_modifySpace (·.owners) owners,
    view_modifySpace (·.link) link, rfl⟩

theorem steady_modifySpace (n : SpaceKey) {f : Namespace → Namespace}
    (table : (f (m.space n)).table = (m.space n).table)
    (stats : (f (m.space n)).stats = (m.space n).stats)
    (side : (f (m.space n)).side = (m.space n).side)
    (owners : (f (m.space n)).owners = (m.space n).owners)
    (link : (f (m.space n)).link = (m.space n).link) : Steady m (m.modifySpace n f) :=
  ⟨unmoved_modifySpace n table stats, inward_modifySpace n side owners link⟩

theorem resource_setTable (n : SpaceKey) (t : Table) (r : ResourceRef) :
    (m.setTable n t).resource r = if r.space = n then t.resource r.key else m.resource r := by
  unfold Manager.resource setTable
  rw [space_modifySpace]
  split
  · rfl
  · rfl

/-- Another table whose resources have the same locks. -/
theorem steady_setTable (n : SpaceKey) {t : Table}
    (queues : ∀ key, (t.resource key).queues = ((m.space n).table.resource key).queues)
    (queued : ∀ key, (t.resource key).queued = ((m.space n).table.resource key).queued)
    (lined : ∀ key, ((m.space n).table.resource key).Lined m.lock →
      (t.resource key).Lined m.lock) : Steady m (m.setTable n t) := by
  have stats := view_setTable (m := m) (n := n) (t := t) (·.stats) rfl
  refine ⟨⟨fun _ => rfl, fun _ => rfl, fun _ _ => rfl, fun _ => rfl, ?_, ?_, ?_, ?_, ?_⟩,
    inward_modifySpace n rfl rfl rfl⟩
  · intro r
    rw [resource_setTable]
    split
    · rename_i here
      rw [queues, Manager.resource, here]
    · rfl
  · intro r
    rw [resource_setTable]
    split
    · rename_i here
      rw [queued, Manager.resource, here]
    · rfl
  · intro r
    rw [resource_setTable]
    split
    · rename_i here
      rw [Manager.resource, here]
      exact lined r.key
    · exact id
  · exact fun k => by rw [stats]
  · exact fun k => by rw [stats]

theorem steady_of_alike (n : SpaceKey) {t : Table} (alike : (m.space n).table.Alike t) :
    Steady m (m.setTable n t) := by
  refine steady_setTable n (fun key => ?_) (fun key => ?_) fun key lined => ?_
  · obtain ⟨count, same⟩ := alike key
    rw [same]
  · obtain ⟨count, same⟩ := alike key
    rw [same]
  · obtain ⟨count, same⟩ := alike key
    rw [same]
    exact lined.recounted count

end Manager

end Lockspace
