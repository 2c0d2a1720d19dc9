import Lockspace.Manager.Resources
import Lockspace.Proofs.Endings
import Mathlib.Order.Defs.Unbundled

namespace Lockspace

def DumpLine.logged (line : DumpLine) (level : Level) : LogLine :=
  ⟨level, line.text⟩

namespace Act

variable {α β : Type} {m : Manager} {post : Except Fault α → Manager → Prop}

theorem run_bind {act : Act α} {next : α → Act β} {a : α} {m' : Manager} (run : act m = .ok a m') :
    (act >>= next) m = next a m' := by
  show EStateM.bind act next m = _
  rw [EStateM.bind, run]

theorem run_discard {act : Act α} {a : α} {m' : Manager} (run : act m = .ok a m') :
    (discard act : Act Unit) m = .ok () m' := by
  show EStateM.map _ act m = _
  rw [EStateM.map, run]

theorem ok_of_bind {act : Act α} {next : α → Act β} {b : β} {m' : Manager}
    (run : (act >>= next) m = .ok b m') : ∃ a m₁, act m = .ok a m₁ ∧ next a m₁ = .ok b m' := by
  change EStateM.bind act next m = _ at run
  unfold EStateM.bind at run
  split at run
  · exact ⟨_, _, ‹_›, run⟩
  · cases run

theorem run_space (n : SpaceKey) (m : Manager) : space n m = .ok (m.space n) m :=
  rfl

theorem run_lock (l : LockKey) (m : Manager) : lock l m = .ok (m.lock l) m :=
  rfl

theorem run_resource (r : ResourceRef) (m : Manager) : resource r m = .ok (m.resource r) m :=
  rfl

theorem run_log (level : Level) (text : String) (m : Manager) :
    log level text m = .ok () { m with log := m.log.push ⟨level, text⟩ } :=
  rfl

/-- Lines are logged one by one, at one level. -/
theorem run_dump_eq (level : Level) (lines : List DumpLine) (m : Manager) :
    dump level lines m = .ok () { m with log := m.log ++ lines.map (·.logged level) } := by
  induction lines generalizing m with
  | nil =>
    show EStateM.Result.ok () m = _
    simp
  | cons line rest ih =>
    refine (run_bind (run_log level line.text m)).trans ((ih _).trans ?_)
    simp [DumpLine.logged]

theorem run_dump (level : Level) (lines : List DumpLine) (m : Manager) :
    ∃ log, dump level lines m = .ok () { m with log } :=
  ⟨_, run_dump_eq level lines m⟩

/-- A listing only logs. -/
theorem run_dumpResource (level : Level) (r : ResourceRef) (m : Manager) :
    ∃ log, dumpResource level r m = .ok () { m with log } :=
  run_dump level ((m.resource r).dumpLines m.lock level) m

theorem ends_of_run {act : Act α} {a : α} {m' : Manager} {excused : Fault → Prop}
    {ok : α → Manager → Prop} (run : act m = .ok a m') (holds : ok a m') :
    act.Ends m excused ok := by
  unfold Ends
  rw [run]
  exact holds

/-- An action that has no fault to end in has a run. -/
theorem Ends.exists_run {act : Act α} {ok : α → Manager → Prop}
    (ends : act.Ends m (fun _ => False) ok) : ∃ a m', act m = .ok a m' ∧ ok a m' := by
  cases run : act m with
  | ok a m' => exact ⟨a, m', rfl, ends.of_ok run⟩
  | error fault m' => exact (ends.of_error run).elim

/-- An action that has no answer to return has a run that fails. -/
theorem Ends.exists_error {act : Act α} {excused : Fault → Prop}
    (ends : act.Ends m excused fun _ _ => False) :
    ∃ fault m', act m = .error fault m' ∧ excused fault := by
  cases run : act m with
  | ok a m' => exact (ends.of_ok run).elim
  | error fault m' => exact ⟨fault, m', rfl, ends.of_error run⟩

/-- An action returns from a state, with an answer and a state of which `told` holds. -/
def Returns (act : Act α) (m : Manager) (told : α → Manager → Prop) : Prop :=
  ∃ a m', act m = .ok a m' ∧ told a m'

instance {told : α → Manager → Prop} [∀ a m', Decidable (told a m')] (act : Act α) :
    Decidable (act.Returns m told) :=
  match run : act m with
  | .ok a m' => decidable_of_iff (told a m') <| by
    refine ⟨fun holds => ⟨a, m', run, holds⟩, ?_⟩
    rintro ⟨b, m₁, again, holds⟩
    cases run.symm.trans again
    exact holds
  | .error fault m' => isFalse <| by
    rintro ⟨b, m₁, again, -⟩
    cases run.symm.trans again

/-- What an action leaves behind from a state, be it with an answer or in a fault. -/
def Leaves (act : Act α) (m : Manager) (post : Except Fault α → Manager → Prop) : Prop :=
  match act m with
  | .ok a m' => post (.ok a) m'
  | .error fault m' => post (.error fault) m'

instance [∀ answer m', Decidable (post answer m')] (act : Act α) : Decidable (act.Leaves m post) := by
  unfold Leaves
  cases act m with
  | ok a m' => exact inferInstanceAs (Decidable (post (.ok a) m'))
  | error fault m' => exact inferInstanceAs (Decidable (post (.error fault) m'))

theorem ends_iff_leaves {act : Act α} {excused : Fault → Prop} {ok : α → Manager → Prop} :
    act.Ends m excused ok ↔ act.Leaves m fun answer m' =>
      match answer with
      | .ok a => ok a m'
      | .error fault => excused fault := by
  unfold Ends Leaves
  cases act m <;> rfl

instance {excused : Fault → Prop} {ok : α → Manager → Prop} [∀ fault, Decidable (excused fault)]
    [∀ a m', Decidable (ok a m')] (act : Act α) : Decidable (act.Ends m excused ok) := by
  refine @decidable_of_iff _ _ ends_iff_leaves.symm
    (@instDecidableLeaves _ _ _ (fun answer m' => ?_) act)
  cases answer with
  | ok a => exact inferInstanceAs (Decidable (ok a m'))
  | error fault => exact inferInstanceAs (Decidable (excused fault))

theorem Leaves.of_ok {act : Act α} {a : α} {m' : Manager} (leaves : act.Leaves m post)
    (run : act m = .ok a m') : post (.ok a) m' := by
  simpa only [Leaves, run] using leaves

theorem Leaves.of_error {act : Act α} {fault : Fault} {m' : Manager} (leaves : act.Leaves m post)
    (run : act m = .error fault m') : post (.error fault) m' := by
  simpa only [Leaves, run] using leaves

/-- An action that is known to return has a run. -/
theorem Leaves.exists_run {act : Act α} {holds : Manager → Prop}
    (leaves : act.Leaves m fun answer m' => answer.isOk ∧ holds m') :
    ∃ a m', act m = .ok a m' ∧ holds m' := by
  unfold Leaves at leaves
  cases run : act m with
  | ok a m' =>
    rw [run] at leaves
    exact ⟨a, m', rfl, leaves.2⟩
  | error fault m' =>
    rw [run] at leaves
    exact absurd leaves.1 nofun

/-- One whose answer is known returns that. -/
theorem Leaves.exists_run_eq {act : Act α} {a : α} {holds : Manager → Prop}
    (leaves : act.Leaves m fun answer m' => answer = .ok a ∧ holds m') :
    ∃ m', act m = .ok a m' ∧ holds m' := by
  unfold Leaves at leaves
  cases run : act m with
  | ok b m' =>
    rw [run] at leaves
    obtain ⟨same, holds⟩ := leaves
    exact ⟨m', congrArg (EStateM.Result.ok · m') (Except.ok.inj same), holds⟩
  | error fault m' =>
    rw [run] at leaves
    exact absurd leaves.1 nofun

theorem Leaves.imp {act : Act α} {weaker : Except Fault α → Manager → Prop}
    (leaves : act.Leaves m post) (each : ∀ answer m', post answer m' → weaker answer m') :
    act.Leaves m weaker := by
  unfold Leaves at leaves ⊢
  cases run : act m with
  | ok a m' =>
    rw [run] at leaves
    exact each _ _ leaves
  | error fault m' =>
    rw [run] at leaves
    exact each _ _ leaves

theorem Leaves.and {act : Act α} {also : Except Fault α → Manager → Prop}
    (leaves : act.Leaves m post) (more : act.Leaves m also) :
    act.Leaves m fun answer m' => post answer m' ∧ also answer m' := by
  unfold Leaves at leaves more ⊢
  cases run : act m with
  | ok a m' =>
    rw [run] at leaves more
    exact ⟨leaves, more⟩
  | error fault m' =>
    rw [run] at leaves more
    exact ⟨leaves, more⟩

/-- What an action leaves in any case, and how it ends. -/
theorem Leaves.and_ends {act : Act α} {excused : Fault → Prop} {ok : α → Manager → Prop}
    (leaves : act.Leaves m post) (ends : act.Ends m excused ok) :
    act.Leaves m fun answer m' => post answer m' ∧
      match answer with
      | .ok a => ok a m'
      | .error fault => excused fault := by
  unfold Leaves at leaves ⊢
  cases run : act m with
  | ok a m' =>
    rw [run] at leaves
    exact ⟨leaves, ends.of_ok run⟩
  | error fault m' =>
    rw [run] at leaves
    exact ⟨leaves, ends.of_error run⟩

/-- How an action ends, and what it leaves if it returns. -/
theorem Ends.and_leaves {act : Act α} {excused : Fault → Prop} {ok : α → Manager → Prop}
    (ends : act.Ends m excused ok) (leaves : act.Leaves m post) :
    act.Ends m excused fun a m' => ok a m' ∧ post (.ok a) m' := by
  unfold Leaves at leaves
  unfold Ends
  cases run : act m with
  | ok a m' =>
    rw [run] at leaves
    exact ⟨ends.of_ok run, leaves⟩
  | error fault m' => exact ends.of_error run

/-- The same for what matters of an action that returns. -/
theorem Leaves.ends {act : Act α} (leaves : act.Leaves m post) :
    act.Ends m (fun _ => True) fun a m' => post (.ok a) m' := by
  unfold Leaves at leaves
  unfold Ends
  cases run : act m with
  | ok a m' =>
    rw [run] at leaves
    exact leaves
  | error fault m' => trivial

theorem leaves_of_run {act : Act α} {a : α} {m' : Manager} (run : act m = .ok a m')
    (holds : post (.ok a) m') : act.Leaves m post := by
  unfold Leaves
  rw [run]
  exact holds

theorem leaves_of_error {act : Act α} {fault : Fault} {m' : Manager}
    (run : act m = .error fault m') (holds : post (.error fault) m') : act.Leaves m post := by
  unfold Leaves
  rw [run]
  exact holds

theorem leaves_congr {act other : Act α} {m' : Manager} (same : act m = other m') :
    act.Leaves m post ↔ other.Leaves m' post := by
  unfold Leaves
  rw [same]

theorem leaves_bind {act : Act α} {next : α → Act β} {post : Except Fault β → Manager → Prop} :
    (act >>= next).Leaves m post ↔ act.Leaves m fun answer m' =>
      match answer with
      | .ok a => (next a).Leaves m' post
      | .error fault => post (.error fault) m' := by
  simp only [Leaves, Bind.bind, EStateM.bind]
  cases act m <;> rfl

/-- One action after another, which only runs if the first returns. -/
theorem Leaves.bind {act : Act α} {next : α → Act β} {first : Except Fault α → Manager → Prop}
    {post : Except Fault β → Manager → Prop} (leaves : act.Leaves m first)
    (goes : ∀ a m', first (.ok a) m' → (next a).Leaves m' post)
    (stops : ∀ fault m', first (.error fault) m' → post (.error fault) m') :
    (act >>= next).Leaves m post := by
  rw [leaves_bind]
  refine leaves.imp fun answer m' holds => ?_
  cases answer with
  | ok a => exact goes a m' holds
  | error fault => exact stops fault m' holds

theorem leaves_discard {act : Act α} {post : Except Fault Unit → Manager → Prop} :
    (discard act : Act Unit).Leaves m post ↔
      act.Leaves m fun answer m' => post (answer.map fun _ => ()) m' := by
  simp only [Leaves, Functor.discard, Functor.mapConst, Function.comp, EStateM.map]
  cases act m <;> rfl

theorem leaves_after {act : Act α} {next : α → Act β} {a : α} {m₁ : Manager}
    {post : Except Fault β → Manager → Prop} (run : act m = .ok a m₁)
    (rest : (next a).Leaves m₁ post) : (act >>= next).Leaves m post := by
  rw [leaves_bind]
  exact leaves_of_run run rest

@[simp] theorem leaves_pure {a : α} : (pure a : Act α).Leaves m post ↔ post (.ok a) m :=
  Iff.rfl

@[simp] theorem leaves_throw {fault : Fault} :
    (throw fault : Act α).Leaves m post ↔ post (.error fault) m :=
  Iff.rfl

@[simp] theorem leaves_space {n : SpaceKey} {post : Except Fault Namespace → Manager → Prop} :
    (space n).Leaves m post ↔ post (.ok (m.space n)) m :=
  Iff.rfl

@[simp] theorem leaves_lock {l : LockKey} {post : Except Fault Lock → Manager → Prop} :
    (lock l).Leaves m post ↔ post (.ok (m.lock l)) m :=
  Iff.rfl

@[simp] theorem leaves_setTable {n : SpaceKey} {t : Table}
    {post : Except Fault Unit → Manager → Prop} :
    (setTable n t).Leaves m post ↔ post (.ok ()) (m.setTable n t) :=
  Iff.rfl

@[simp] theorem leaves_note {call : Callback} {post : Except Fault Unit → Manager → Prop} :
    (note call).Leaves m post ↔ post (.ok ()) { m with trace := m.trace.push call } :=
  Iff.rfl

@[simp] theorem leaves_ofExcept {answer : Except Fault α} :
    (ofExcept answer).Leaves m post ↔ post answer m := by
  cases answer <;> rfl

/-- A check that stops on a fault. -/
theorem leaves_guard {condition : Prop} [Decidable condition] {fault : Fault}
    {next : PUnit → Act α} (stops : condition → post (.error fault) m)
    (pass : ¬ condition → (next ()).Leaves m post) :
    (if condition then throw fault >>= next else next ()).Leaves m post := by
  split
  · rename_i holds
    rw [leaves_bind]
    exact stops holds
  · rename_i fails
    exact pass fails

/-- A relation between states that an action keeps to, whether it returns or ends in a fault. -/
def Preserves (R : Manager → Manager → Prop) (act : Act α) : Prop :=
  ∀ m, act.Leaves m fun _ m' => R m m'

variable {R : Manager → Manager → Prop} [IsPreorder Manager R]

omit [IsPreorder Manager R] in
theorem Preserves.mono {S : Manager → Manager → Prop} {act : Act α} (preserves : act.Preserves R)
    (weaker : ∀ m m', R m m' → S m m') : act.Preserves S :=
  fun m => (preserves m).imp fun _ m' => weaker m m'

theorem preserves_pure (a : α) : (pure a : Act α).Preserves R :=
  fun m => refl_of R m

theorem preserves_throw (fault : Fault) : (throw fault : Act α).Preserves R :=
  fun m => refl_of R m

theorem Preserves.bind {act : Act α} {next : α → Act β} (first : act.Preserves R)
    (second : ∀ a, (next a).Preserves R) : (act >>= next).Preserves R := by
  intro m
  rw [leaves_bind]
  refine (first m).imp fun answer m₁ before => ?_
  cases answer with
  | ok a => exact (second a m₁).imp fun _ m' after => trans_of R before after
  | error fault => exact before

/-- A check that stops on a fault. -/
theorem preserves_guard {condition : Prop} [Decidable condition] {fault : Fault}
    {next : PUnit → Act β} (pass : ¬ condition → (next ()).Preserves R) :
    (if condition then throw fault >>= next else next ()).Preserves R := by
  split
  · exact preserves_throw fault
  · rename_i fails
    exact pass fails

omit [IsPreorder Manager R] in
theorem Preserves.discard {act : Act α} (preserves : act.Preserves R) :
    (discard act : Act Unit).Preserves R := by
  intro m
  rw [leaves_discard]
  exact preserves m

theorem preserves_get : (get : Act Manager).Preserves R :=
  fun m => refl_of R m

theorem preserves_space {n : SpaceKey} : (space n).Preserves R :=
  fun m => refl_of R m

theorem preserves_lock {l : LockKey} : (lock l).Preserves R :=
  fun m => refl_of R m

theorem preserves_resource {r : ResourceRef} : (resource r).Preserves R :=
  fun m => refl_of R m

theorem preserves_ofExcept (answer : Except Fault α) : (ofExcept answer).Preserves R := by
  cases answer with
  | ok a => exact preserves_pure a
  | error fault => exact preserves_throw fault

omit [IsPreorder Manager R] in
theorem preserves_modify {f : Manager → Manager} (steps : ∀ m, R m (f m)) :
    (modify f : Act Unit).Preserves R :=
  steps

theorem preserves_forM {items : List α} {step : α → Act Unit}
    (each : ∀ a ∈ items, (step a).Preserves R) : (items.forM step).Preserves R := by
  induction items with
  | nil => exact preserves_pure _
  | cons a rest ih =>
    refine (each a (List.mem_cons_self ..)).bind fun _ => ih fun b member => ?_
    exact each b (List.mem_cons_of_mem a member)

end Act

end Lockspace
