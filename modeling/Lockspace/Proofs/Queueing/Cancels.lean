import Lockspace.Proofs.Queueing.Settled
import Lockspace.Waiting.Cleanup
import Lockspace.Waiting.Victims

namespace Lockspace

open Manager Act

namespace Manager

/-- No lock has changed in what queues and references depend on, and at most one was marked
destroyed. -/
structure Marked (l : LockKey) (m m' : Manager) : Prop where
  spaces : m'.spaces = m.spaces
  standing : ∀ k, (m'.lock k).standing = (m.lock k).standing
  destroyed : ∀ k, k ≠ l → (m'.lock k).isDestroyed = (m.lock k).isDestroyed

/-- All of some locks are destroyed and on no queue any more, and nobody else has moved. -/
structure AllTakenOff (locks : List LockKey) (m m' : Manager) : Prop where
  free : ∀ l ∈ locks, (m'.lock l).link = none
  destroyed : ∀ l ∈ locks, (m'.lock l).isDestroyed
  queue : ∀ r q, m'.queue r q = (m.queue r q).diff locks
  others : ∀ k, k ∉ locks → (m'.lock k).link = (m.lock k).link ∧
    (m'.lock k).isDestroyed = (m.lock k).isDestroyed

variable {α : Type} {m m' m'' : Manager} {hands : Multiset ResourceRef} {n : SpaceKey}
  {l k : LockKey} {r : ResourceRef} {q : Queue} {locks rest : List LockKey}

namespace Marked

theorem trans (first : Marked l m m') (second : Marked l m' m'') : Marked l m m'' where
  spaces := second.spaces.trans first.spaces
  standing k := (second.standing k).trans (first.standing k)
  destroyed k other := (second.destroyed k other).trans (first.destroyed k other)

theorem of_same (spaces : m'.spaces = m.spaces) (locks : m'.locks = m.locks) : Marked l m m' := by
  have lock : ∀ k, m'.lock k = m.lock k := fun k => by simp only [Manager.lock, locks]
  exact ⟨spaces, fun k => by rw [lock], fun k _ => by rw [lock]⟩

theorem modifyLock {f : Lock → Lock} (standing : (f (m.lock l)).standing = (m.lock l).standing) :
    Marked l m (m.modifyLock l f) where
  spaces := rfl
  standing := view_modifyLock Lock.standing standing
  destroyed k other := by rw [lock_modifyLock, if_neg other]

variable (marked : Marked l m m')

include marked

theorem link (k : LockKey) : (m'.lock k).link = (m.lock k).link :=
  congrArg (·.1) (marked.standing k)

theorem space (n : SpaceKey) : m'.space n = m.space n := by
  simp only [Manager.space, marked.spaces]

theorem resource (r : ResourceRef) : m'.resource r = m.resource r := by
  unfold Manager.resource
  rw [marked.space]

theorem queue (r : ResourceRef) (q : Queue) : m'.queue r q = m.queue r q := by
  unfold Manager.queue
  rw [marked.resource]

theorem seated (seated : Seated m) : Seated m' where
  home r q l member := by
    rw [marked.queue] at member
    rw [← seated.home r q l member]
    exact congrArg (·.2.1) (marked.standing l)
  linked l q on := by
    rw [marked.link] at on
    obtain ⟨r, member⟩ := seated.linked l q on
    exact ⟨r, by rw [marked.queue]; exact member⟩
  lined r := by
    rw [marked.resource]
    refine (seated.lined r).others fun _ k _ => ⟨marked.link k, ?_⟩
    exact congrArg (·.2.2.2) (marked.standing k)
  locks n := by
    rw [marked.space]
    exact seated.locks n
  granted n := by
    rw [marked.space]
    exact seated.granted n

theorem booked (booked : Booked m hands) : Booked m' hands := by
  refine booked.same (fun n => by rw [marked.space]) (fun n => by rw [marked.space]) ?_
  rw [boundRefs_congr fun k => congrArg (·.2.2.1) (marked.standing k)]

/-- It makes no difference to who is taken off whether the lock was marked before. -/
theorem takenOff (taken : TakenOff l m' m'') : TakenOff l m m'' where
  free := taken.free
  destroyed := taken.destroyed
  queue r q := by
    rw [taken.queue, marked.queue]
  others k other := by
    rw [(taken.others k other).1, (taken.others k other).2]
    exact ⟨marked.link k, marked.destroyed k other⟩

end Marked

namespace AllTakenOff

theorem nil : AllTakenOff [] m m where
  free := by simp
  destroyed := by simp
  queue _ _ := rfl
  others _ _ := ⟨rfl, rfl⟩

/-- One lock and then others. A lock that is off stays off. -/
theorem cons (first : TakenOff l m m') (later : AllTakenOff rest m' m'') :
    AllTakenOff (l :: rest) m m'' := by
  have own : (m''.lock l).link = none ∧ (m''.lock l).isDestroyed := by
    by_cases again : l ∈ rest
    · exact ⟨later.free l again, later.destroyed l again⟩
    · rw [(later.others l again).1, (later.others l again).2]
      exact ⟨first.free, first.destroyed⟩
  refine ⟨fun k member => ?_, fun k member => ?_, fun r q => ?_, fun k other => ?_⟩
  · rcases List.mem_cons.mp member with rfl | inside
    · exact own.1
    · exact later.free k inside
  · rcases List.mem_cons.mp member with rfl | inside
    · exact own.2
    · exact later.destroyed k inside
  · rw [later.queue, first.queue, List.diff_cons]
  · obtain ⟨differs, outside⟩ := not_or.mp (mt List.mem_cons.mpr other)
    rw [(later.others k outside).1, (later.others k outside).2]
    exact first.others k differs

theorem of_unmoved (still : Unmoved m m') (taken : AllTakenOff locks m' m'') :
    AllTakenOff locks m m'' where
  free := taken.free
  destroyed := taken.destroyed
  queue r q := by
    rw [taken.queue]
    exact congrArg (fun queues => (LockQueues.get queues q).diff locks) (still.queues r)
  others k other := by
    rw [(taken.others k other).1, (taken.others k other).2]
    exact ⟨still.link k, still.destroyed k⟩

end AllTakenOff

namespace Settled

/-- A lock is destroyed after it was marked, or was not. -/
theorem leaves_destroy (settled : Settled m hands) (marked : Marked l m m') (n : SpaceKey) :
    (destroyLock n l).Leaves m' fun answer m'' => TakenOff l m m'' ∧ Settles hands answer m'' := by
  have destroys := leaves_destroyLock (marked.seated settled.seated)
    (marked.booked settled.booked) n l
  refine destroys.imp fun answer m'' after => ?_
  obtain ⟨taken, seated, how⟩ := after
  replace taken := marked.takenOff taken
  have discharged := taken.discharged settled.discharged
  refine ⟨taken, ?_⟩
  cases answer with
  | ok _ => exact ⟨seated, discharged, how.1⟩
  | error fault =>
    obtain ⟨-, r, ⟨-, -, q, k, member, other⟩, rfl⟩ := how
    rw [marked.queue] at member
    have stays : k ∈ m''.queue r q := by
      rw [taken.queue]
      exact (List.mem_erase_of_ne other).mpr member
    exact ⟨seated, discharged, r, _, rfl, (seated.lined r).queued_ne_zero.mpr ⟨q, k, stays⟩⟩

theorem leaves_cancelLocal (settled : Settled m hands) (marked : Marked l m m') (n : SpaceKey) :
    (cancelLocal .default n l).Leaves m' fun answer m'' =>
      TakenOff l m m'' ∧ Settles hands answer m'' := by
  simp only [cancelLocal, leaves_bind, leaves_lock, leaves_note]
  have noted : Marked l m
      { m' with trace := m'.trace.push (.cancelLocal n l (m'.lock l).flags) } :=
    marked.trans (.of_same rfl rfl)
  exact settled.leaves_destroy noted n

/-- A lock that fails is destroyed as well. -/
theorem leaves_complete (settled : Settled m hands) (marked : Marked l m m') (n : SpaceKey) :
    (complete .default n l .failed).Leaves m' fun answer m'' =>
      TakenOff l m m'' ∧ Settles hands answer m'' := by
  simp only [complete, leaves_bind, leaves_lock, leaves_note]
  have noted : Marked l m
      { m' with trace := m'.trace.push (.completion n l .failed (m'.lock l).flags) } :=
    marked.trans (.of_same rfl rfl)
  exact settled.leaves_destroy noted n

/-- References are dropped one after another. -/
theorem leaves_putAll {refs : List ResourceRef} (settled : Settled m (↑refs + hands)) :
    (putAll refs).Leaves m fun answer m' => Unmoved m m' ∧ Settles hands answer m' := by
  induction refs generalizing m with
  | nil =>
    rw [Multiset.coe_nil, zero_add] at settled
    exact ⟨.rfl, settled⟩
  | cons r rest ih =>
    have first : Settled m (r ::ₘ (↑rest + hands)) := by
      rwa [← Multiset.cons_add, Multiset.cons_coe]
    have dropped : (discard (put r) : Act Unit).Leaves m fun answer m' =>
        Unmoved m m' ∧ Settles (↑rest + hands) answer m' := by
      refine leaves_discard.mpr (first.leaves_put.imp fun answer m' after => ?_)
      cases answer <;> exact after
    refine dropped.bind (fun _ m' after => ?_) fun _ m' after => after
    exact (ih after.2).imp fun answer m'' last => ⟨after.1.trans last.1, last.2⟩

end Settled

end Manager

namespace Cleanup

variable {m m' : Manager} {hands : Multiset ResourceRef} {n : SpaceKey} {l : LockKey}
  {r : ResourceRef} {q : Queue} {c : Cleanup}

theorem leaves_treat (settled : Settled m hands) (marked : Marked l m m') (flags : LockFlags) :
    (treat .default n flags l).Leaves m' fun answer m'' =>
      TakenOff l m m'' ∧ Settles hands answer m'' := by
  unfold treat
  simp only [leaves_bind, leaves_lock]
  split
  · exact (settled.leaves_complete marked n).bind (fun _ _ after => after) fun _ _ after => after
  · exact (settled.leaves_cancelLocal marked n).bind (fun _ _ after => after) fun _ _ after => after

theorem run_pick? (flags : LockFlags) (m : Manager) : pick? r q flags m =
    match (m.resource r).firstUncleaned m.lock q with
    | none => .ok none m
    | some l => .ok (some l) (m.modifyLock l (·.setFlags (visitFlags flags))) := by
  unfold pick?
  rw [run_bind (show (get : Act Manager) m = .ok m m from rfl)]
  cases (m.resource r).firstUncleaned m.lock q <;> rfl

/-- The lock that a drain visits gets off its queue, and the drain goes on. -/
theorem leaves_visit (settled : Settled m hands) {rest : List (ResourceRef × Queue)}
    (todo : c.todo = (r, q) :: rest)
    (first : (m.resource r).firstUncleaned m.lock q = some l) :
    (c.turn .default).Leaves m fun answer m' => (TakenOff l m m' ∧ Settles hands answer m') ∧
      ∀ cleaned, answer ≠ .ok (.returns cleaned) := by
  have picked := run_pick? (r := r) (q := q) c.flags m
  rw [first] at picked
  have flagged : Marked l m (m.modifyLock l (·.setFlags (visitFlags c.flags))) := .modifyLock rfl
  have owned := flagged.trans (.modifyLock (f := fun lk => { lk with owners := lk.owners + 1 }) rfl)
  unfold turn
  rw [todo]
  refine leaves_after picked (leaves_after (a := ()) rfl ?_)
  refine (leaves_treat settled owned c.flags).bind (fun asks m' after => ?_)
    fun _ _ after => ⟨after, nofun⟩
  obtain ⟨taken, still⟩ := after
  cases asks with
  | true =>
    refine leaves_after (a := ()) rfl ⟨⟨taken.unmoved (.of_eq rfl ?_ ?_ ?_), ?_⟩, nofun⟩
    · exact fun _ => rfl
    · exact fun _ => rfl
    · exact fun _ => rfl
    · exact Settled.of_same still rfl rfl
  | false =>
    refine (Settled.leaves_disown still).bind (fun _ m'' last => ?_) fun _ m'' last => ?_
    · exact ⟨⟨taken.unmoved last.1, last.2⟩, nofun⟩
    · exact ⟨⟨taken.unmoved last.1, last.2⟩, nofun⟩

theorem run_complain (n : SpaceKey) (r : ResourceRef) (m : Manager) :
    ∃ log, complain n r m = .ok () { m with log } := by
  unfold complain
  rw [run_bind (run_resource r m)]
  split
  · rw [run_bind (run_space n m), run_bind (run_log _ _ m)]
    exact run_dumpResource .error r _
  · exact ⟨m.log, rfl⟩

theorem run_complaints (n : SpaceKey) (refs : List ResourceRef) (m : Manager) :
    ∃ log, refs.forM (complain n) m = .ok () { m with log } := by
  induction refs generalizing m with
  | nil => exact ⟨m.log, rfl⟩
  | cons r rest ih =>
    obtain ⟨log, run⟩ := run_complain n r m
    obtain ⟨last, later⟩ := ih { m with log }
    exact ⟨last, (run_bind run).trans later⟩

/-- A drain has its references until it is done, and then drops all of them. -/
theorem leaves_turn (settled : Settled m (↑c.held + hands)) :
    (c.turn .default).Leaves m fun answer m' =>
      match answer with
      | .ok (.returns _) => Settled m' hands
      | _ => Settles (↑c.held + hands) answer m' := by
  cases todo : c.todo with
  | nil =>
    obtain ⟨log, run⟩ := run_complaints c.space c.held m
    unfold turn
    rw [todo]
    have still : Settled { m with log } (↑c.held + hands) := settled.of_same rfl rfl
    refine leaves_after run (still.leaves_putAll.bind ?_ ?_)
    · exact fun _ m' last => last.2
    · exact fun fault m' last => last.2
  | cons next rest =>
    obtain ⟨r, q⟩ := next
    have picked := run_pick? (r := r) (q := q) c.flags m
    cases first : (m.resource r).firstUncleaned m.lock q with
    | none =>
      rw [first] at picked
      unfold turn
      rw [todo]
      exact leaves_after picked settled
    | some l =>
      refine (leaves_visit settled todo first).imp fun answer m' after => ?_
      split
      · exact absurd rfl (after.2 _)
      · exact after.1.2

/-- A drain starts with references on all resources. -/
theorem ends_snapshot (settled : Settled m hands) (held : 0 < (m.space n).owners)
    (flags : LockFlags) : (start n flags).Ends m (fun _ => False) fun c m' =>
      Settled m' (↑c.held + hands) := by
  unfold start
  rw [ends_bind]
  exact ((settled.booked.ends_resources held).and_leaves (steady_resources m)).imp
    fun refs m' after => ends_pure.mpr (settled.unmoved after.2.toUnmoved after.1)

/-- The answer of the peer gives the lock back. -/
theorem leaves_answered (settled : Settled m hands) (failure : Option LockError) :
    (c.answered l failure).Leaves m fun answer m' => Settles hands answer m' := by
  have rest : ∀ m₁, Settled m₁ hands →
      (do disown l; return { c with asking := none } : Act Cleanup).Leaves m₁
        fun answer m' => Settles hands answer m' := by
    intro m₁ still
    exact still.leaves_disown.bind (fun _ _ after => after.2) fun _ _ after => after.2
  unfold answered
  cases failure with
  | none => exact rest m settled
  | some e =>
    refine leaves_after (run_lock l m) (leaves_after (run_space c.space m) ?_)
    exact leaves_after (run_log _ _ m) (rest _ (settled.of_same rfl rfl))

theorem leaves_abandon (settled : Settled m (↑c.held + hands)) :
    c.abandon.Leaves m fun answer m' => Settles hands answer m' := by
  unfold abandon
  cases c.asking with
  | none => exact settled.leaves_putAll.imp fun _ _ after => after.2
  | some l =>
    refine settled.leaves_disown.bind (fun _ m' after => ?_) fun _ _ after => after.2
    exact (Settled.leaves_putAll after.2).imp fun _ _ last => last.2

end Cleanup

namespace Act

variable {m m' : Manager} {hands : Multiset ResourceRef} {n : SpaceKey}

/-- Several locks are flagged and cancelled one after another. -/
theorem leaves_cancelAll (settled : Settled m hands) (victims : List LockKey) (flags : LockFlags) :
    (victims.forM fun l => do
      modifyLock l (·.setFlags flags)
      cancelLocal .default n l : Act Unit).Leaves m fun answer m' => Settles hands answer m' ∧
        ∀ done, answer = .ok done → AllTakenOff victims m m' := by
  induction victims generalizing m with
  | nil => exact ⟨settled, fun _ _ => .nil⟩
  | cons l rest ih =>
    have cancels : (do
        modifyLock l (·.setFlags flags)
        cancelLocal .default n l : Act Unit).Leaves m fun answer m' =>
          TakenOff l m m' ∧ Settles hands answer m' := by
      exact leaves_after (a := ()) rfl (settled.leaves_cancelLocal (.modifyLock rfl) n)
    refine cancels.bind (fun _ m' after => ?_) fun _ m' after => ⟨after.2, nofun⟩
    refine (ih after.2).imp fun answer m'' last => ⟨last.1, fun done ok => ?_⟩
    exact .cons after.1 (last.2 done ok)

/-- The victims are held before anything happens to them. -/
theorem run_owns (settled : Settled m hands) (victims : List LockKey) :
    ∃ m', victims.forM own m = .ok () m' ∧ Unmoved m m' ∧ Settled m' hands := by
  induction victims generalizing m with
  | nil => exact ⟨m, rfl, .rfl, settled⟩
  | cons l rest ih =>
    have owned : Steady m (m.modifyLock l fun lk => { lk with owners := lk.owners + 1 }) :=
      Manager.steady_modifyLock l rfl rfl (fun _ => rfl) rfl
    have still := settled.unmoved owned.toUnmoved (settled.booked.relock rfl)
    obtain ⟨m', run, unmoved, after⟩ := ih still
    exact ⟨m', run, owned.toUnmoved.trans unmoved, after⟩

theorem leaves_disowns (settled : Settled m hands) (victims : List LockKey) :
    (victims.forM disown).Leaves m fun answer m' => Settles hands answer m' := by
  induction victims generalizing m with
  | nil => exact settled
  | cons l rest ih =>
    exact settled.leaves_disown.bind (fun _ m' after => ih after.2) fun _ _ after => after.2

theorem run_takeVictims (settled : Settled m hands) (n : SpaceKey) (limits : VictimLimits) :
    ∃ victims m', takeVictims n limits m = .ok victims m' ∧ Unmoved m m' ∧ Settled m' hands := by
  obtain ⟨victims, lru, run⟩ : ∃ victims lru, takeVictims n limits m = .ok victims
      ({ m with clock := m.clock + 1 }.modifySpace n fun s => { s with lru }) := ⟨_, _, rfl⟩
  have ticked : Steady m { m with clock := m.clock + 1 } := .of_eq rfl rfl rfl rfl
  have taken : Steady { m with clock := m.clock + 1 }
      ({ m with clock := m.clock + 1 }.modifySpace n fun s => { s with lru }) :=
    Manager.steady_modifySpace n rfl rfl rfl rfl rfl
  have unmoved := (ticked.trans taken).toUnmoved
  have booked : Booked { m with clock := m.clock + 1 } hands :=
    settled.booked.same (fun _ => rfl) (fun _ => rfl) rfl
  refine ⟨victims, _, run, unmoved, settled.unmoved unmoved ?_⟩
  exact booked.agrees fun _ => agrees_modifySpace n rfl

end Act

namespace VictimCancel

variable {m : Manager} {hands : Multiset ResourceRef} {n : SpaceKey} {l : LockKey}

theorem leaves_start (settled : Settled m hands) (victims : List LockKey) (flags : LockFlags) :
    (start .default n victims flags).Leaves m fun answer m' => Settles hands answer m' ∧
      ∀ v, answer = .ok v → v.victims = victims ∧ AllTakenOff victims m m' := by
  obtain ⟨m₁, run, unmoved, still⟩ := run_owns settled victims
  refine leaves_after run ?_
  refine (leaves_cancelAll still victims _).bind (fun _ m' after => ?_)
    fun _ m' after => ⟨after.1, nofun⟩
  refine leaves_after (run_space n m') ⟨after.1, fun v made => ?_⟩
  cases made
  exact ⟨rfl, .of_unmoved unmoved (after.2 _ rfl)⟩

/-- A cancellation of unused locks leaves none of its victims on a queue. -/
theorem leaves_cancelLru (settled : Settled m hands) (count : Nat) (flags : LockFlags) :
    (cancelLru .default n count flags).Leaves m fun answer m' => Settles hands answer m' ∧
      ∀ v, answer = .ok v → AllTakenOff v.victims m m' := by
  unfold cancelLru
  refine leaves_after (run_space n m) ?_
  obtain ⟨victims, m₁, run, unmoved, still⟩ := run_takeVictims settled n
    ((m.space n).victimLimits count)
  refine leaves_after run ((leaves_start still victims flags).imp fun answer m' after => ?_)
  refine ⟨after.1, fun v made => ?_⟩
  obtain ⟨rfl, taken⟩ := after.2 v made
  exact .of_unmoved unmoved taken

theorem leaves_turn (settled : Settled m hands) (v : VictimCancel) :
    v.turn.Leaves m fun answer m' => Settles hands answer m' := by
  unfold turn
  split
  · split
    · exact leaves_after (a := ()) rfl (settled.of_same rfl rfl)
    · exact settled
  · split
    · exact (leaves_disowns settled v.victims).bind (fun _ _ after => after) fun _ _ after => after
    · exact settled

theorem leaves_answered (settled : Settled m hands) (v : VictimCancel)
    (failure : Option LockError) :
    (v.answered l failure).Leaves m fun answer m' => Settles hands answer m' := by
  unfold answered
  cases failure with
  | none => exact settled
  | some e =>
    refine leaves_after (run_lock l m) (leaves_after (run_space v.space m) ?_)
    exact leaves_after (run_log _ _ m) (settled.of_same rfl rfl)

end VictimCancel

end Lockspace
