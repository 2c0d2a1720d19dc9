import Lockspace.Proofs.Draining.Releases
import Lockspace.Proofs.Migration.Placement
import Lockspace.Proofs.UnusedOrder

namespace Lockspace

open Manager Act

namespace UnusedLru

/-- Some locks were taken out of the unused ones, one after another. -/
def Thins (among : LockKey → Prop) (u u' : UnusedLru) : Prop :=
  ∃ gone : List LockKey, (∀ l ∈ gone, among l) ∧ u' = gone.foldl erase u

variable {among : LockKey → Prop} {u u' u'' : UnusedLru} {l : LockKey}

theorem snd_remove (u : UnusedLru) (l : LockKey) : (u.remove l).2 = u.erase l := by
  unfold remove erase
  cases u.index.lookup l <;> rfl

namespace Thins

theorem rfl : Thins among u u :=
  ⟨[], nofun, Eq.refl _⟩

theorem trans (first : Thins among u u') (second : Thins among u' u'') : Thins among u u'' := by
  obtain ⟨gone, each, same⟩ := first
  obtain ⟨also, others, later⟩ := second
  refine ⟨gone ++ also, fun l member => ?_, ?_⟩
  · exact (List.mem_append.mp member).elim (each l) (others l)
  · rw [later, same, List.foldl_append]

theorem remove (may : among l) : Thins among u (u.remove l).2 := by
  refine ⟨[l], fun k member => ?_, snd_remove u l⟩
  rwa [List.mem_singleton.mp member]

theorem eq_of_none (thins : Thins (fun _ => False) u u') : u' = u := by
  obtain ⟨gone, each, same⟩ := thins
  cases gone with
  | nil => exact same
  | cons l rest => exact (each l (List.mem_cons_self ..)).elim

theorem takeVictims (limits : VictimLimits) (age : LockKey → Nat) :
    Thins (fun _ => True) u (u.takeVictims limits age).2 :=
  ⟨_, fun _ _ => trivial, Eq.refl _⟩

end Thins

/-- Locks that are taken out one after another are taken out together. -/
theorem Sound.foldl_erase (sound : u.Sound) (gone : List LockKey) :
    gone.foldl erase u = u.without gone := by
  induction gone generalizing u with
  | nil => rw [without_nil, List.foldl_nil]
  | cons l rest ih => rw [List.foldl_cons, sound.erase_eq, ih (sound.without [l]), ← without_cons]

theorem Sound.thins (sound : u.Sound) (thins : Thins among u u') :
    ∃ gone : List LockKey, (∀ l ∈ gone, among l) ∧ u' = u.without gone := by
  obtain ⟨gone, each, same⟩ := thins
  exact ⟨gone, each, same.trans (sound.foldl_erase gone)⟩

theorem Sound.of_thins (sound : u.Sound) (thins : Thins among u u') : u'.Sound := by
  obtain ⟨gone, -, rfl⟩ := sound.thins thins
  exact sound.without gone

theorem Sound.remove (sound : u.Sound) (l : LockKey) : (u.remove l).2.Sound := by
  rw [sound.remove_eq]
  exact sound.without [l]

/-- A lock that becomes unused again gets to the young end. -/
theorem Sound.append_erase (sound : u.Sound) (l : LockKey) : ((u.erase l).append l).Sound := by
  rw [sound.erase_eq]
  exact (sound.without [l]).append fun member =>
    (mem_without.mp member).2 (List.mem_singleton_self l)

theorem toList_without (u : UnusedLru) (gone : List LockKey) :
    (u.without gone).toList = u.toList.filter (!gone.contains ·) := by
  unfold toList without
  rw [List.filter_map]
  exact congrArg _ (List.filter_congr fun _ _ => rfl)

/-- Nothing changes where the locks to take out are not there. -/
theorem Sound.thins_of_absent (sound : u.Sound) (thins : Thins among u u')
    (absent : ∀ l, among l → l ∉ u.toList) : u' = u := by
  obtain ⟨gone, each, same⟩ := thins
  subst same
  induction gone with
  | nil => rfl
  | cons l rest ih =>
    have outside : u.index.lookup l = none := by
      cases found : u.index.lookup l with
      | none => rfl
      | some seq =>
        have entry := sound.lookup_eq_some.mp found
        exact absurd (List.mem_map.mpr ⟨_, entry, rfl⟩) (absent l (each l (List.mem_cons_self ..)))
    have same : u.erase l = u := by
      unfold erase
      rw [outside]
    rw [List.foldl_cons, same]
    exact ih fun k member => each k (List.mem_cons_of_mem l member)

theorem Sound.contains_iff (sound : u.Sound) : u.contains l ↔ l ∈ u.toList := by
  unfold contains toList
  rw [Option.isSome_iff_exists, List.mem_map]
  constructor
  · rintro ⟨seq, found⟩
    exact ⟨_, sound.lookup_eq_some.mp found, rfl⟩
  · rintro ⟨⟨seq, _⟩, entry, rfl⟩
    exact ⟨seq, sound.lookup_eq_some.mpr entry⟩

end UnusedLru

/-- What decides about the unused locks of a namespace, next to the list itself. -/
def Namespace.settings (s : Namespace) : Nat × NamespaceConfig × UInt64 × UInt64 :=
  (s.owners, s.config, s.connectFlags, s.origConnectFlags)

namespace Manager

/-- References went, and with them what nobody held any more. Only a lock without owners loses its
own reference on the way, and only a namespace without holders loses unused locks. -/
structure Lightens (m m' : Manager) : Prop where
  lock : ∀ l, m'.lock l = m.lock l ∨
    (m.lock l).owners = 0 ∧ m'.lock l = { m.lock l with bound := none }
  settings : ∀ n, (m'.space n).settings = (m.space n).settings
  unused : ∀ n, UnusedLru.Thins (fun _ => True) (m.space n).lru (m'.space n).lru
  kept : ∀ n, 0 < (m.space n).owners → (m'.space n).lru = (m.space n).lru
  clock : m'.clock = m.clock

variable {m m' m'' : Manager} {n : SpaceKey} {l : LockKey}

theorem Lightens.owners (lightens : Lightens m m') (n : SpaceKey) :
    (m'.space n).owners = (m.space n).owners :=
  congrArg (·.1) (lightens.settings n)

theorem Lightens.rfl : Lightens m m :=
  ⟨fun _ => Or.inl (Eq.refl _), fun _ => Eq.refl _, fun _ => .rfl, fun _ _ => Eq.refl _, Eq.refl _⟩

theorem Lightens.trans (first : Lightens m m') (second : Lightens m' m'') : Lightens m m'' where
  lock l := by
    rcases first.lock l with same | ⟨deserted, loses⟩
    · rw [← same]
      exact second.lock l
    · rcases second.lock l with same | ⟨-, again⟩
      · exact Or.inr ⟨deserted, same.trans loses⟩
      · exact Or.inr ⟨deserted, by rw [again, loses]⟩
  settings n := (second.settings n).trans (first.settings n)
  unused n := (first.unused n).trans (second.unused n)
  kept n held := by
    rw [second.kept n (by rwa [first.owners]), first.kept n held]
  clock := second.clock.trans first.clock

instance : IsPreorder Manager Lightens where
  refl _ := .rfl
  trans _ _ _ := .trans

/-- A namespace may change in what has nothing to do with its unused locks. -/
theorem lightens_modifySpace {f : Namespace → Namespace}
    (settings : (f (m.space n)).settings = (m.space n).settings)
    (lru : (f (m.space n)).lru = (m.space n).lru) : Lightens m (m.modifySpace n f) where
  lock _ := Or.inl rfl
  settings := view_modifySpace (·.settings) settings
  unused k := by
    rw [view_modifySpace (·.lru) lru]
    exact .rfl
  kept k _ := view_modifySpace (·.lru) lru k
  clock := rfl

theorem Lightens.of_same (spaces : m'.spaces = m.spaces) (locks : m'.locks = m.locks)
    (clock : m'.clock = m.clock) : Lightens m m' := by
  have space : ∀ n, m'.space n = m.space n := fun n => by rw [Manager.space, spaces]; rfl
  refine ⟨fun l => Or.inl (by rw [Manager.lock, locks]; rfl), fun n => ?_, fun n => ?_, fun n _ => ?_,
    clock⟩
  · rw [space]
  · rw [space]
    exact .rfl
  · rw [space]

/-- The same where nobody but resources holds one namespace to start with. -/
def LightensDeserted (n : SpaceKey) (m m' : Manager) : Prop :=
  (m.space n).owners = 0 → Lightens m m'

instance : IsPreorder Manager (LightensDeserted n) where
  refl _ _ := .rfl
  trans _ _ _ first second deserted :=
    (first deserted).trans (second (((first deserted).owners n).trans deserted))

end Manager

namespace Act

variable {n : SpaceKey} {l : LockKey} {r : ResourceRef}

theorem lightens_log (level : Level) (text : String) : (log level text).Preserves Lightens :=
  fun _ => .of_same rfl rfl rfl

theorem lightens_note (call : Callback) : (note call).Preserves Lightens :=
  fun _ => .of_same rfl rfl rfl

theorem lightens_dumpResource (level : Level) : (dumpResource level r).Preserves Lightens :=
  preserves_get.bind fun _ => preserves_forM fun line _ => lightens_log level line.text

theorem lightens_emit (event : ResourceEvent) : (emit r event).Preserves Lightens :=
  preserves_space.bind fun _ => preserves_resource.bind fun _ => lightens_note _

theorem lightens_setTable (t : Table) : (setTable n t).Preserves Lightens :=
  fun _ => Manager.lightens_modifySpace rfl rfl

theorem lightens_release : (release r).Preserves Lightens := by
  refine (preserves_releaseLocked (fun _ => Manager.lightens_modifySpace rfl rfl)
    (lightens_dumpResource .error)).bind (preserves_afterRelease lightens_emit fun _ => ?_)
  exact Manager.lightens_modifySpace rfl rfl

theorem lightens_dropUnused : (dropUnused l).Preserves Lightens := by
  intro m
  unfold dropUnused
  refine leaves_after (show (get : Act Manager) m = .ok m m from rfl) ?_
  split
  · exact leaves_pure.mpr .rfl
  rename_i free
  split
  · exact leaves_pure.mpr .rfl
  rename_i r bound
  have deserted : (m.lock l).owners = 0 := by
    by_contra held
    exact free (by simp [isHeld, Nat.pos_of_ne_zero held])
  have unbound : Lightens m (m.modifyLock l fun lk => { lk with bound := none }) := by
    refine ⟨fun k => ?_, fun _ => rfl, fun _ => .rfl, fun _ _ => rfl, rfl⟩
    rw [lock_modifyLock]
    split
    · rename_i same
      rw [same]
      exact Or.inr ⟨deserted, rfl⟩
    · exact Or.inl rfl
  refine leaves_after (a := ()) rfl ?_
  refine (((lightens_release (r := r)).discard.bind fun _ => preserves_pure (some r.space)) _).imp
    fun _ m' later => unbound.trans later

theorem lightens_dropDesertedUpTo (depth : Nat) (n : SpaceKey) :
    (dropDesertedUpTo depth n).Preserves Lightens := by
  induction depth generalizing n with
  | zero => exact preserves_pure _
  | succ depth ih =>
    intro m
    unfold dropDesertedUpTo
    refine leaves_after (run_space n m) ?_
    split
    · exact leaves_pure.mpr .rfl
    rename_i gone
    have deserted : (m.space n).owners = 0 := by
      by_contra held
      exact gone (by simp [Namespace.isAlive, Nat.pos_of_ne_zero held])
    have within {α : Type} {act : Act α} (keeps : act.Preserves Lightens) :
        act.Preserves (LightensDeserted n) := keeps.mono fun _ _ lightens _ => lightens
    refine (preserves_forM (R := LightensDeserted n) (fun l _ => ?_) m).imp
      fun _ m' after => after deserted
    refine Preserves.bind (fun m₁ empty => ?_) fun _ =>
      (within lightens_dropUnused).bind fun next => ?_
    · refine ⟨fun _ => Or.inl rfl, view_modifySpace (·.settings) rfl, fun k => ?_, fun k held => ?_,
        rfl⟩
      · rw [space_modifySpace]
        split
        · rename_i here
          rw [here]
          exact .remove trivial
        · exact .rfl
      · rw [space_modifySpace, if_neg]
        rintro rfl
        omega
    · cases next with
      | none => exact preserves_pure _
      | some next => exact within (ih next)

theorem lightens_put : (put r).Preserves Lightens :=
  lightens_release.bind fun _ =>
    (preserves_get.bind fun _ => lightens_dropDesertedUpTo _ _).bind fun _ => preserves_pure _

theorem lightens_retain : (retain r).Preserves Lightens :=
  preserves_retain fun m t _ => lightens_setTable t m

theorem lightens_resources : (Act.resources n).Preserves Lightens :=
  preserves_resources fun m _ t _ => lightens_setTable t m

theorem lightens_moveTo (side : Side) (link : NamespaceLink) :
    (moveTo side n link).Preserves Lightens :=
  preserves_moveTo (fun _ _ => .of_same rfl rfl rfl) fun _ _ => Manager.lightens_modifySpace rfl rfl

theorem lightens_register : (register n).Preserves Lightens :=
  preserves_register (fun _ _ => .of_same rfl rfl rfl) fun _ _ =>
    Manager.lightens_modifySpace rfl rfl

/-- A new namespace has the settings of its setup and no unused lock. -/
theorem settings_of_build {setup : Setup} {m₀ m : Manager} (run : build setup m₀ = .ok (.ok n) m) :
    ∃ preset, setup.preset = .ok preset ∧
      (m.space n).settings = (setup.toNamespace preset).settings ∧ (m.space n).lru = {} := by
  obtain ⟨preset, m₁, given, made, -, joined⟩ := exists_register_of_build run
  have lightens := (lightens_register m₁).of_ok joined
  have held : 0 < (m₁.space n).owners := by
    rw [made]
    exact Nat.one_pos
  refine ⟨preset, given, (lightens.settings n).trans (by rw [made]), ?_⟩
  rw [lightens.kept n held, made, Setup.toNamespace]

theorem lightens_getOrCreate (id : ResourceId) (rtype : ResourceType) (create : Bool) :
    (getOrCreate n id rtype create).Preserves Lightens :=
  preserves_getOrCreate (fun b => preserves_step (·.lookup b id) fun m _ t _ => lightens_setTable t m)
    (fun b _ _ seen => preserves_step (·.insert b _ seen) fun m _ t _ => lightens_setTable t m)
    (fun _ => preserves_announce lightens_emit (lightens_moveTo _ _)) create

end Act

end Lockspace
