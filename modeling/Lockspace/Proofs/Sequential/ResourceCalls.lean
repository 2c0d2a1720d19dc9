import Lockspace.Proofs.ResourceRuns
import Lockspace.Proofs.Sequential.Orderly
import Lockspace.Proofs.Sequential.WholeTable

namespace Lockspace

open Manager Table

variable {α β : Type} {n k : SpaceKey} {m : Manager} {hands : Multiset ResourceKey} {holds : Nat}
  {key : ResourceKey} {r : ResourceRef}

namespace Act

/-- An action that leaves a namespace in order and gives its callers no reference and takes none
from them. -/
def Tidy (n : SpaceKey) (act : Act α) : Prop :=
  ∀ m hands holds, Orderly n m hands holds →
    act.Ends m (·.isDisorder = false) fun _ m' => Orderly n m' hands holds

theorem Quiet.tidy {act : Act α} (quiet : act.Quiet n) : act.Tidy n :=
  fun m _ _ orderly => (quiet m).imp fun _ _ agrees => orderly.agrees agrees

theorem tidy_pure (a : α) : (pure a : Act α).Tidy n :=
  (quiet_pure a).tidy

theorem Tidy.bind {act : Act α} {next : α → Act β} (first : act.Tidy n)
    (second : ∀ a, (next a).Tidy n) : (act >>= next).Tidy n := by
  intro m hands holds orderly
  rw [ends_bind]
  exact (first m hands holds orderly).imp fun a m' after => second a m' hands holds after

theorem tidy_forM {items : List α} {step : α → Act Unit} (each : ∀ a, (step a).Tidy n) :
    (items.forM step).Tidy n :=
  fun _ hands holds orderly => ends_forM orderly fun a _ m' after => each a m' hands holds after

end Act

open Act

/-- A namespace in order of which a caller was given a reference, or nothing. -/
def Orderly.Given (n : SpaceKey) (m : Manager) (hands : Multiset ResourceKey) (holds : Nat) :
    Option ResourceRef → Prop
  | some r => r.space = n ∧ Orderly n m (r.key ::ₘ hands) holds
  | none => Orderly n m hands holds

namespace Orderly

/-- The books of a table count the references of callers and of locks alike. -/
theorem books (orderly : Orderly n m (key ::ₘ hands) holds) :
    (m.space n).table.Tallied (key ::ₘ (hands + m.boundKeys n)) 0 holds := by
  rw [← Multiset.cons_add]
  exact orderly.tallied

theorem ends_retain (orderly : Orderly n m hands holds) (held : key ∈ hands) :
    (retain ⟨n, key⟩).Ends m (·.isDisorder = false) fun _ m' =>
      Orderly n m' (key ::ₘ hands) holds := by
  have member : key ∈ hands + m.boundKeys n := Multiset.mem_add.mpr (Or.inl held)
  unfold retain
  simp only [ends_bind, ends_space, incref_of_pos (orderly.tallied.live_pos member),
    ends_ofExcept, ends_setTable]
  refine orderly.alike ?_ (alike_recount _ _ _)
  rw [Multiset.cons_add]
  exact orderly.tallied.incref member

theorem ends_lookupLocked (orderly : Orderly n m hands holds) (b : BucketKey) (id : ResourceId) :
    (lookupLocked n b id).Ends m (·.isDisorder = false) fun answer m' =>
      match answer with
      | .found key => Orderly n m' (key ::ₘ hands) holds
      | .missing _ => Orderly n m' hands holds ∧ (m'.space n).table = (m.space n).table ∧
          ((m.space n).table.bucket b).find? id = none := by
  have books := orderly.tallied
  unfold lookupLocked
  simp only [ends_bind, ends_space, ends_ofExcept, ends_setTable, ends_pure]
  cases found : ((m.space n).table.bucket b).find? id with
  | some key =>
    have member := books.live_of_find? (by simp) found
    simp only [lookup_of_find? found (books.live_pos member)]
    refine orderly.alike ?_ (alike_recount _ _ _)
    rw [Multiset.cons_add]
    exact books.incref member
  | none =>
    simp only [lookup_of_absent found, table_setTable]
    exact ⟨orderly.alike books .rfl, trivial, trivial⟩

/-- A new resource of an id that is not in its bucket has a reference and no locks. -/
theorem ends_insertLocked (orderly : Orderly n m hands holds) {b : BucketKey} {id : ResourceId}
    (rtype : ResourceType) (limit seen : Nat) (home : (m.space n).table.bucketOf id = b)
    (absent : ((m.space n).table.bucket b).find? id = none) :
    (insertLocked n b (.new id rtype b limit) seen).Ends m (·.isDisorder = false) fun answer m' =>
      match answer with
      | .inserted key _ _ => Orderly n m' (key ::ₘ hands) holds
      | .raceLost winner => Orderly n m' (winner ::ₘ hands) holds := by
  have books := orderly.tallied
  let candidate : Resource := .new id rtype b limit
  have missing : ((m.space n).table.bucket b).find? candidate.id = none := absent
  refine ends_of_run (run_insertLocked_of_absent missing seen) ?_
  refine orderly.retable ?_ (fun key => ?_) fun key owned => ?_
  · rw [Multiset.cons_add]
    exact books.enter missing rfl rfl home
  · rw [resource_enter]
    split
    · exact Resource.queued_of_empty rfl rfl rfl
    · exact orderly.queued key
  · have known := books.known key (by simp [owned])
    rw [resource_enter, if_neg]
    rintro rfl
    exact absurd known (lt_irrefl _)

/-- A caller gets a reference on the resource of an id, or is refused. -/
theorem ends_getOrCreate (orderly : Orderly n m hands holds) (id : ResourceId)
    (rtype : ResourceType) (create : Bool) :
    (getOrCreate n id rtype create).Ends m (·.isDisorder = false) fun answer m' =>
      Given n m' hands holds answer.toOption := by
  refine Act.ends_getOrCreate rfl ((orderly.ends_lookupLocked _ id).imp fun answer m₁ looked => ?_)
  cases answer with
  | found key => exact ⟨rfl, looked⟩
  | missing seen =>
    obtain ⟨still, table, absent⟩ := looked
    rw [← table] at absent ⊢
    refine ⟨still, (still.ends_insertLocked rtype _ seen rfl absent).imp fun done m₂ after => ?_⟩
    cases done with
    | raceLost winner => exact ⟨rfl, after⟩
    | inserted key first bref =>
      exact (quiet_announce first bref m₂).imp fun _ _ agrees => ⟨rfl, after.agrees agrees⟩

theorem ends_releaseLocked (orderly : Orderly n m (key ::ₘ hands) holds) :
    (Act.releaseLocked ⟨n, key⟩).Ends m (·.isDisorder = false) fun _ m' =>
      Orderly n m' hands holds := by
  have unused : key ∉ hands + m.boundKeys n → ((m.space n).table.resource key).queued = 0 :=
    fun gone => orderly.unused fun owned => gone (Multiset.mem_add.mpr (Or.inr owned))
  obtain ⟨t, answer, run, alike, after⟩ := orderly.books.release unused
  unfold Act.releaseLocked
  simp only [ends_bind, ends_space, run, ends_setTable, ends_pure]
  exact orderly.alike after alike

theorem ends_release (orderly : Orderly n m (key ::ₘ hands) holds) :
    (Act.release ⟨n, key⟩).Ends m (·.isDisorder = false) fun _ m' => Orderly n m' hands holds := by
  unfold Act.release
  rw [ends_bind]
  refine orderly.ends_releaseLocked.imp fun answer m₁ after => ?_
  cases answer with
  | kept => exact ends_pure.mpr after
  | freed emptied bref =>
    exact (ends_afterRelease (n := n)).imp fun _ _ told => after.agrees told.2

end Orderly

namespace Act

/-- A namespace that somebody holds keeps its unused locks. -/
theorem tidy_dropIfDeserted : (dropIfDeserted n).Tidy n := by
  intro m hands holds orderly
  have alive : (m.space n).isAlive = true := by simp [Namespace.isAlive, orderly.owned]
  unfold dropIfDeserted
  rw [ends_bind, ends_get]
  cases m.spaces.size with
  | zero => exact ends_pure.mpr orderly
  | succ depth =>
    unfold dropDesertedUpTo
    rw [ends_bind, ends_space, ends_ite, if_pos alive]
    exact ends_pure.mpr orderly

end Act

namespace Orderly

theorem ends_put (orderly : Orderly n m (key ::ₘ hands) holds) :
    (put ⟨n, key⟩).Ends m (·.isDisorder = false) fun _ m' => Orderly n m' hands holds := by
  unfold put
  rw [ends_bind]
  refine orderly.ends_release.imp fun gone m₁ after => ?_
  rw [ends_bind]
  exact (tidy_dropIfDeserted m₁ hands holds after).imp fun _ _ last => ends_pure.mpr last

/-- References that are dropped one after another. -/
theorem ends_putAll {refs : List ResourceRef} (within : ∀ r ∈ refs, r.space = n)
    (orderly : Orderly n m (↑(refs.map (·.key)) + hands) holds) :
    (putAll refs).Ends m (·.isDisorder = false) fun _ m' => Orderly n m' hands holds := by
  induction refs generalizing m with
  | nil => exact ends_pure.mpr (by simpa using orderly)
  | cons r rest ih =>
    obtain ⟨space, key⟩ := r
    obtain rfl : space = n := within _ (List.mem_cons_self ..)
    rw [List.map_cons, ← Multiset.cons_coe, Multiset.cons_add] at orderly
    show (_ >>= fun _ => putAll rest).Ends m _ _
    rw [ends_bind, ends_discard]
    refine orderly.ends_put.imp fun _ m₁ after => ?_
    exact ih (fun r member => within r (List.mem_cons_of_mem _ member)) after

/-- A listing gives a reference on every resource. -/
theorem ends_resources (orderly : Orderly n m hands holds) :
    (Act.resources n).Ends m (·.isDisorder = false) fun refs m' => (∀ r ∈ refs, r.space = n) ∧
      Orderly n m' (↑(refs.map (·.key)) + hands) holds := by
  obtain ⟨keys, t, run, alike, after⟩ := orderly.tallied.snapshot
  unfold Act.resources
  simp only [ends_bind, ends_space, run, ends_ofExcept, ends_setTable, ends_pure]
  refine ⟨?_, orderly.alike ?_ alike⟩
  · intro r member
    obtain ⟨key, -, rfl⟩ := List.mem_map.mp member
    rfl
  · rw [List.map_map, add_assoc]
    simpa [Function.comp_def] using after

theorem ends_takeHold (orderly : Orderly n m hands holds) :
    (Act.takeHold n).Ends m (·.isDisorder = false) fun _ m' => Orderly n m' hands (holds + 1) := by
  unfold Act.takeHold
  simp only [ends_bind, ends_modifySpace, ends_space, ends_pure]
  exact orderly.alike orderly.tallied.takeHold (.of_resources rfl)

theorem ends_dropHold (orderly : Orderly n m hands (holds + 1)) :
    (dropHold n).Ends m (·.isDisorder = false) fun _ m' => Orderly n m' hands holds := by
  unfold dropHold dropHoldCount
  simp only [ends_bind, ends_space, orderly.tallied.dropHold?, ends_setTable, ends_pure]
  have after := orderly.alike orderly.tallied.dropHold (.of_resources rfl)
  split
  · rw [ends_bind]
    exact (quiet_signal (n := n) _).imp fun _ _ agrees => ends_pure.mpr (after.agrees agrees)
  · exact ends_pure.mpr after

end Orderly

end Lockspace
