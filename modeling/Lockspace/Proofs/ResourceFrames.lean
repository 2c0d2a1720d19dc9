import Lockspace.Manager.Spaces
import Lockspace.Proofs.Outcomes

namespace Lockspace

namespace Act

variable {R : Manager → Manager → Prop} [IsPreorder Manager R] {n : SpaceKey} {r : ResourceRef}

/-- A step on the table of a namespace changes that table, unless it ends in a fault. -/
theorem preserves_step {α : Type} (step : Table → Except Fault (α × Table))
    (steps : ∀ m a t, step (m.space n).table = .ok (a, t) → R m (m.setTable n t)) :
    (do
      let (a, t) ← ofExcept (step (← space n).table)
      setTable n t
      return a : Act α).Preserves R := by
  intro m
  simp only [leaves_bind, leaves_space, leaves_ofExcept]
  cases run : step (m.space n).table with
  | error fault => exact refl_of R m
  | ok answer => exact steps m answer.1 answer.2 run

theorem preserves_retain
    (steps : ∀ m t, (m.space r.space).table.incref r.key = .ok t → R m (m.setTable r.space t)) :
    (retain r).Preserves R := by
  intro m
  unfold retain
  simp only [leaves_bind, leaves_space, leaves_ofExcept]
  cases run : (m.space r.space).table.incref r.key with
  | error fault => exact refl_of R m
  | ok t => exact steps m t run

theorem preserves_resources
    (steps : ∀ m keys t, (m.space n).table.snapshot = .ok (keys, t) → R m (m.setTable n t)) :
    (resources n).Preserves R := by
  intro m
  unfold resources
  simp only [leaves_bind, leaves_space, leaves_ofExcept]
  cases run : (m.space n).table.snapshot with
  | error fault => exact refl_of R m
  | ok answer => exact steps m answer.1 answer.2 run

/-- A namespace that gets onto a list changes the lists and its link. -/
theorem preserves_register (lists : ∀ (m : Manager) registry, R m { m with registry })
    (links : ∀ link, (modifySpace n fun s => { s with link }).Preserves R) :
    (register n).Preserves R :=
  preserves_space.bind fun _ => preserves_guard fun _ =>
    (preserves_modify fun m => lists m _).bind fun _ => links .inactive

theorem preserves_moveTo {side : Side} {link : NamespaceLink}
    (lists : ∀ (m : Manager) registry, R m { m with registry })
    (links : ∀ link, (modifySpace n fun s => { s with link }).Preserves R) :
    (moveTo side n link).Preserves R := by
  refine preserves_space.bind fun s => preserves_guard fun _ => preserves_guard fun _ => ?_
  refine preserves_get.bind fun m => ?_
  split
  · exact preserves_throw _
  · exact (preserves_modify fun m => lists m _).bind fun _ => links link

/-- An announcement tells the policy, and may move the namespace to the active list. -/
theorem preserves_announce (emits : ∀ event, (emit r event).Preserves R)
    (moves : (moveTo .client r.space .active).Preserves R) (first : Bool) (bref : Nat) :
    (announce r first bref).Preserves R := by
  refine (emits _).bind fun _ => ?_
  split
  · refine (emits _).bind fun _ => preserves_space.bind fun s => ?_
    split
    · exact moves
    · exact preserves_pure _
  · exact preserves_pure _

/-- To get or create a resource is a lookup, and where that finds nothing an insertion that is
announced. -/
theorem preserves_getOrCreate {id : ResourceId} {rtype : ResourceType}
    (looks : ∀ b, (lookupLocked n b id).Preserves R)
    (inserts : ∀ b home limit seen,
      (insertLocked n b (.new id rtype home limit) seen).Preserves R)
    (tells : ∀ key first bref, (announce ⟨n, key⟩ first bref).Preserves R) (create : Bool) :
    (getOrCreate n id rtype create).Preserves R := by
  unfold getOrCreate
  refine preserves_guard fun _ => preserves_space.bind fun s => (looks _).bind fun looked => ?_
  cases looked with
  | found key => exact preserves_pure _
  | missing version =>
    cases create with
    | false => exact preserves_pure _
    | true =>
      intro m
      unfold newResource
      simp only [Bool.not_true, Bool.false_eq_true, if_false]
      rw [leaves_bind, leaves_bind, leaves_space]
      refine (inserts _ _ _ version).bind (fun done => ?_) m
      cases done with
      | raceLost winner => exact preserves_pure _
      | inserted key first bref => exact (tells key first bref).bind fun _ => preserves_pure _

/-- A release in a table changes that table, and logs where it ends in a fault. -/
theorem preserves_releaseLocked
    (tables : ∀ m : Manager,
      R m (m.setTable r.space ((m.space r.space).table.release r.key).1))
    (dumps : (dumpResource .error r).Preserves R) : (releaseLocked r).Preserves R := by
  intro m
  unfold releaseLocked
  simp only [leaves_bind, leaves_space, leaves_setTable]
  have dropped := tables m
  cases ((m.space r.space).table.release r.key).2 with
  | ok answer => exact dropped
  | error fault =>
    have onward (act : Act Release) (still : act.Preserves R) :
        act.Leaves (m.setTable r.space ((m.space r.space).table.release r.key).1) fun _ m' =>
          R m m' :=
      (still _).imp fun _ _ after => trans_of R dropped after
    apply onward
    dsimp only
    split
    · exact Preserves.bind dumps fun _ => preserves_throw _
    · exact preserves_throw _

/-- A resource that is gone is told of. -/
theorem preserves_told (emits : ∀ event, (emit r event).Preserves R) (emptied : Bool) : (do
    emit r .freed
    if emptied then emit r .bucketEmptied
    return true : Act Bool).Preserves R := by
  refine (emits _).bind fun _ => ?_
  split
  · exact (emits _).bind fun _ => preserves_pure _
  · exact preserves_pure _

/-- What follows a release signals and tells. -/
theorem preserves_afterRelease (emits : ∀ event, (emit r event).Preserves R)
    (signals : (signal r.space).Preserves R) (answer : Release) :
    (afterRelease r answer).Preserves R := by
  cases answer with
  | kept => exact preserves_pure _
  | freed emptied bref =>
    show (if _ then _ else _ : Act Bool).Preserves R
    split
    · exact signals.bind fun _ => preserves_told emits emptied
    · exact preserves_told emits emptied

/-- The freeing of a namespace drops its unused locks and the entries of its table, next to marks on
the namespace and changes of what is neither a namespace nor a lock. -/
theorem preserves_freePost {n : SpaceKey}
    (others : ∀ m m' : Manager, m'.spaces = m.spaces → m'.locks = m.locks → R m m')
    (marks : ∀ f : Namespace → Namespace, (∀ s, (f s).table = s.table) →
      (∀ s, (f s).signals = s.signals) → (∀ s, (f s).stats.locks = s.stats.locks) →
      (∀ s, (f s).lru = s.lru) → (modifySpace n f).Preserves R)
    (finalizes : (finalizeUnused n).Preserves R) (clears : (clearTable n).Preserves R) :
    (freePost n).Preserves R := by
  have logs : ∀ level text, (log level text).Preserves R := fun _ _ _ => others _ _ rfl rfl
  have uncounts : dropGate.Preserves R := by
    refine preserves_get.bind fun m => preserves_guard fun _ => ?_
    exact Preserves.bind (fun _ => others _ _ rfl rfl) fun _ => preserves_pure _
  have uncounted : ∀ s : Namespace, (do
      if s.link ≠ .detached then throw (.stillLinked s.name)
      discard dropGate : Act Unit).Preserves R :=
    fun s => preserves_guard fun _ => uncounts.discard
  have claims : (claimFreed n).Preserves R := by
    refine preserves_space.bind fun _ => Preserves.bind ?_ fun _ => preserves_pure _
    exact marks _ (fun _ => rfl) (fun _ => rfl) (fun _ => rfl) fun _ => rfl
  have leaves : (unregister n).Preserves R := by
    refine preserves_space.bind fun s => Preserves.bind (preserves_modify fun m => ?_) fun _ => ?_
    · split <;> exact others _ _ rfl rfl
    · exact marks _ (fun _ => rfl) (fun _ => rfl) (fun _ => rfl) fun _ => rfl
  have retires : (retireStats n).Preserves R := by
    refine preserves_space.bind fun s => Preserves.bind (fun _ => others _ _ rfl rfl) fun _ => ?_
    exact marks _ (fun _ => rfl) (fun _ => rfl) (fun _ => rfl) fun _ => rfl
  have dismantles : (dismantle n).Preserves R := by
    refine leaves.bind fun _ => finalizes.bind fun _ => retires.bind fun _ => ?_
    refine clears.bind fun left => preserves_space.bind fun s => ?_
    show (if left ≠ 0 then log _ _ >>= _ else _ : Act Unit).Preserves R
    split
    · exact (logs _ _).bind fun _ => uncounted s
    · exact uncounted s
  refine preserves_space.bind fun s => ?_
  split
  · exact (logs _ _).bind fun _ => preserves_pure _
  · refine claims.bind fun already => ?_
    split
    · exact (logs _ _).bind fun _ => preserves_pure _
    · exact dismantles.bind fun _ => preserves_pure _

/-- The parts of a drop of references keep to a relation between states. Then so does every drop,
with all that goes with it. -/
structure DropsWithin (R : Manager → Manager → Prop) : Prop where
  release : ∀ r, (release r).Preserves R
  unbound : ∀ l, (modifyLock l fun lk => { lk with bound := none }).Preserves R
  owners : ∀ l (count : Nat → Nat),
    (modifyLock l fun lk => { lk with owners := count lk.owners }).Preserves R
  unused : ∀ n (rest : UnusedLru → UnusedLru),
    (modifySpace n fun s => { s with lru := rest s.lru }).Preserves R

namespace DropsWithin

omit [IsPreorder Manager R] in
theorem mono {S : Manager → Manager → Prop} (within : DropsWithin S)
    (weaker : ∀ m m', S m m' → R m m') : DropsWithin R where
  release r := (within.release r).mono weaker
  unbound l := (within.unbound l).mono weaker
  owners l count := (within.owners l count).mono weaker
  unused n rest := (within.unused n rest).mono weaker

theorem dropUnused (within : DropsWithin R) (l : LockKey) : (dropUnused l).Preserves R := by
  refine preserves_get.bind fun m => ?_
  split
  · exact preserves_pure _
  split
  · exact preserves_pure _
  · exact (within.unbound l).bind fun _ =>
      (within.release _).discard.bind fun _ => preserves_pure _

theorem dropDesertedUpTo (within : DropsWithin R) (depth : Nat) (n : SpaceKey) :
    (dropDesertedUpTo depth n).Preserves R := by
  induction depth generalizing n with
  | zero => exact preserves_pure _
  | succ depth ih =>
    refine preserves_space.bind fun s => ?_
    split
    · exact preserves_pure _
    refine preserves_forM fun l _ => (within.unused n fun lru => (lru.remove l).2).bind fun _ => ?_
    refine (within.dropUnused l).bind fun next => ?_
    cases next with
    | none => exact preserves_pure _
    | some next => exact ih next

theorem dropIfDeserted (within : DropsWithin R) (n : SpaceKey) : (dropIfDeserted n).Preserves R :=
  preserves_get.bind fun _ => within.dropDesertedUpTo _ n

theorem put (within : DropsWithin R) (r : ResourceRef) : (put r).Preserves R :=
  (within.release r).bind fun _ => (within.dropIfDeserted _).bind fun _ => preserves_pure _

theorem putAll (within : DropsWithin R) (refs : List ResourceRef) : (putAll refs).Preserves R :=
  preserves_forM fun r _ => (within.put r).discard

omit [IsPreorder Manager R] in
theorem own (within : DropsWithin R) (l : LockKey) : (own l).Preserves R :=
  within.owners l (· + 1)

theorem dropBound (within : DropsWithin R) (l : LockKey) : (dropBound l).Preserves R := by
  refine preserves_lock.bind fun lk => ?_
  split
  · exact preserves_pure _
  · exact (within.unbound l).bind fun _ => (within.put _).discard

theorem dropIfUnheld (within : DropsWithin R) (l : LockKey) : (dropIfUnheld l).Preserves R := by
  refine preserves_get.bind fun m => ?_
  split
  · exact within.dropBound l
  · exact preserves_pure _

theorem disown (within : DropsWithin R) (l : LockKey) : (disown l).Preserves R :=
  (within.owners l (· - 1)).bind fun _ => within.dropIfUnheld l

theorem unbind (within : DropsWithin R) (l : LockKey) : (unbind l).Preserves R :=
  preserves_lock.bind fun _ => (within.unbound l).bind fun _ => preserves_pure _

theorem lockReused (within : DropsWithin R) (n : SpaceKey) (l : LockKey) :
    (lockReused n l).Preserves R :=
  preserves_space.bind fun s =>
    (within.unused n fun _ => (s.lru.remove l).2).bind fun _ => preserves_pure _

theorem finalizeUnused (within : DropsWithin R) (n : SpaceKey) :
    (finalizeUnused n).Preserves R := by
  refine preserves_space.bind fun s => ?_
  refine (preserves_forM fun l _ => within.own l).bind fun _ => ?_
  exact (within.unused n fun _ => s.lru.finalize.2).bind fun _ =>
    preserves_forM fun l _ => within.disown l

theorem freePost (within : DropsWithin R) (n : SpaceKey)
    (others : ∀ m m' : Manager, m'.spaces = m.spaces → R m m')
    (marks : ∀ f : Namespace → Namespace, (∀ s, (f s).table = s.table) →
      (∀ s, (f s).signals = s.signals) → (∀ s, (f s).stats.locks = s.stats.locks) →
      (modifySpace n f).Preserves R)
    (clears : (clearTable n).Preserves R) : (freePost n).Preserves R :=
  preserves_freePost (fun m m' spaces _ => others m m' spaces)
    (fun f table signals locks _ => marks f table signals locks) (within.finalizeUnused n) clears

end DropsWithin

end Act

end Lockspace
