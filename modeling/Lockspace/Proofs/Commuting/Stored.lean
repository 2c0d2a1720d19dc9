import Lockspace.Proofs.Commuting.Slots
import Lockspace.Proofs.Replay.Filed

namespace Lockspace

namespace Table

variable {t t' t'' : Table} {live leaving : Multiset ResourceKey} {holds : Nat}
  {key : ResourceKey} {id : ResourceId}

/-- The entry of an id in the bucket of that id. -/
def keyAt? (t : Table) (id : ResourceId) : Option ResourceKey :=
  (t.bucket (t.bucketOf id)).find? id

/-- What a table has under an id. -/
def stored? (t : Table) (id : ResourceId) : Option (Stored ResourceKey) :=
  (t.keyAt? id).map fun key => ⟨key, (t.resource key).rtype, (t.resource key).refcount⟩

namespace Filed

variable (filed : t.Filed holds)

include filed

theorem mem_entries {b : BucketKey} :
    (id, key) ∈ (t.bucket b).entries ↔ t.keyAt? id = some key ∧ t.bucketOf id = b := by
  constructor
  · intro member
    have home := (filed.entry b id key member).2.2.2
    subst home
    exact ⟨(filed.distinct _).find?_of_mem member, rfl⟩
  · rintro ⟨found, rfl⟩
    exact Bucket.mem_of_find? found

theorem keyAt?_eq_some : t.keyAt? id = some key ↔ ∃ b, (id, key) ∈ (t.bucket b).entries :=
  ⟨fun found => ⟨_, filed.mem_entries.mpr ⟨found, rfl⟩⟩,
    fun ⟨_, member⟩ => (filed.mem_entries.mp member).1⟩

theorem id_of_keyAt? (found : t.keyAt? id = some key) : (t.resource key).id = id :=
  (filed.entry _ id key (Bucket.mem_of_find? found)).2.1

theorem known_of_keyAt? (found : t.keyAt? id = some key) : key.index < t.resources.size :=
  (filed.entry _ id key (Bucket.mem_of_find? found)).1

theorem mem_of_keyAt? (found : t.keyAt? id = some key) :
    ((t.resource key).id, key) ∈ (t.bucket (t.resource key).bucket).entries := by
  have member := Bucket.mem_of_find? found
  obtain ⟨-, named, filed, -⟩ := filed.entry _ id key member
  rwa [named, filed]

end Filed

/-- The second table has something else under an id, and so many more resources were made. Otherwise
it is like the first. -/
structure Revises (id : ResourceId) (now : Option (Stored ResourceKey)) (made : Nat)
    (t t' : Table) : Prop where
  stored : t'.stored? = Function.update t.stored? id now
  bucketOf : t'.bucketOf = t.bucketOf
  size : t'.resources.size = t.resources.size + made
  named : ∀ key, key.index < t.resources.size → (t'.resource key).id = (t.resource key).id
  queued : ∀ key, (t.resource key).queued = 0 → (t'.resource key).queued = 0

/-- What is stored changes under one id if no other entry does, nor the resource of one. -/
theorem stored?_eq_update {now : Option (Stored ResourceKey)} (here : t'.stored? id = now)
    (entries : ∀ i, i ≠ id → t'.keyAt? i = t.keyAt? i)
    (resources : ∀ i key, i ≠ id → t.keyAt? i = some key → t'.resource key = t.resource key) :
    t'.stored? = Function.update t.stored? id now := by
  funext i
  by_cases same : i = id
  · rw [same, here, Function.update_self]
  · rw [Function.update_of_ne same]
    unfold stored?
    rw [entries i same]
    cases found : t.keyAt? i with
    | none => rfl
    | some key => rw [Option.map_some, Option.map_some, resources i key same found]

theorem revises_self : t.Revises id (t.stored? id) 0 t where
  stored := (Function.update_eq_self ..).symm
  bucketOf := rfl
  size := rfl
  named _ _ := rfl
  queued _ none := none

theorem Revises.trans {first now : Option (Stored ResourceKey)} {made later : Nat}
    (once : t.Revises id first made t') (again : t'.Revises id now later t'') :
    t.Revises id now (made + later) t'' where
  stored := by rw [again.stored, once.stored, Function.update_idem]
  bucketOf := again.bucketOf.trans once.bucketOf
  size := by rw [again.size, once.size, Nat.add_assoc]
  named key known := by
    have wider : key.index < t'.resources.size := by
      rw [once.size]
      exact Nat.lt_add_right made known
    rw [again.named key wider, once.named key known]
  queued key none := again.queued key (once.queued key none)

namespace Filed

variable (filed : t.Filed holds)

include filed

/-- Another reference count of a resource in the table. -/
theorem revises_recount (found : t.keyAt? id = some key) (count : Nat) :
    t.Revises id (some ⟨key, (t.resource key).rtype, count⟩) 0 (t.recount key count) := by
  have known := filed.known_of_keyAt? found
  have same := sameEntries_recount known count
  have entry : ∀ i, (t.recount key count).keyAt? i = t.keyAt? i := fun _ => rfl
  refine ⟨stored?_eq_update ?_ (fun i _ => entry i) ?_, rfl, same.size, fun k _ => same.id k, ?_⟩
  · unfold stored?
    rw [entry, found, Option.map_some, resource_recount, if_pos rfl]
  · intro i k other found'
    rw [resource_recount, if_neg]
    rintro rfl
    exact other ((filed.id_of_keyAt? found').symm.trans (filed.id_of_keyAt? found))
  · intro k none
    rw [resource_recount]
    split
    · rename_i here
      rw [← here]
      exact none
    · exact none

/-- A new resource of an id that the table did not have. -/
theorem revises_enter (candidate : Resource) (absent : t.keyAt? candidate.id = none)
    (home : candidate.bucket = t.bucketOf candidate.id) (unlocked : candidate.queued = 0) :
    t.Revises candidate.id
      (some ⟨t.resources.nextKey, candidate.rtype, candidate.refcount⟩) 1
      (t.enter (t.bucketOf candidate.id) candidate) := by
  have filed' := filed.enter absent home rfl
  have buckets : (t.enter (t.bucketOf candidate.id) candidate).bucketOf = t.bucketOf :=
    filed.bucketOf_enter rfl
  have old : ∀ k : ResourceKey, k.index < t.resources.size →
      (t.enter (t.bucketOf candidate.id) candidate).resource k = t.resource k := by
    intro k known
    rw [resource_enter, if_neg]
    rintro rfl
    exact lt_irrefl _ known
  have new : (t.enter (t.bucketOf candidate.id) candidate).keyAt? candidate.id =
      some t.resources.nextKey :=
    (filed'.mem_entries.mp ((mem_bucket_enter absent).mpr (Or.inr ⟨rfl, rfl⟩))).1
  refine ⟨stored?_eq_update ?_ ?_ ?_, buckets, size_enter, fun k known => ?_, fun k none => ?_⟩
  · unfold stored?
    rw [new, Option.map_some, resource_enter, if_pos rfl]
  · intro i other
    ext k
    rw [filed'.keyAt?_eq_some, filed.keyAt?_eq_some]
    simp only [mem_bucket_enter absent, Prod.mk.injEq, other, false_and, and_false, or_false]
  · exact fun i k _ found => old k (filed.known_of_keyAt? found)
  · rw [old k known]
  · rw [resource_enter]
    split
    · exact unlocked
    · exact none

/-- A resource that leaves the table. -/
theorem revises_strike (found : t.keyAt? id = some key) : t.Revises id none 0 (t.strike key) := by
  have member := filed.mem_of_keyAt? found
  have filed' := filed.strike member
  have named := filed.id_of_keyAt? found
  refine ⟨stored?_eq_update ?_ ?_ fun _ _ _ _ => rfl, filed.bucketOf_strike member, rfl,
    fun _ _ => rfl, fun _ none => none⟩
  · have gone : (t.strike key).keyAt? id = none := by
      refine Option.eq_none_iff_forall_ne_some.mpr fun k again => ?_
      obtain ⟨c, left⟩ := filed'.keyAt?_eq_some.mp again
      obtain ⟨before, apart⟩ := mem_bucket_strike.mp left
      have here := (filed.mem_entries.mp before).2
      rw [named] at member
      exact apart ⟨here.symm.trans (filed.mem_entries.mp member).2, named.symm⟩
    rw [stored?, gone]
    rfl
  · intro i other
    ext k
    rw [filed'.keyAt?_eq_some, filed.keyAt?_eq_some]
    simp only [mem_bucket_strike, named, other, and_false, not_false_eq_true, and_true]

/-- The last reference takes a resource without locks out of the table. -/
theorem release_of_last (found : t.keyAt? id = some key) (last : (t.resource key).refcount = 1)
    (unlocked : (t.resource key).queued = 0) : ∃ emptied bref t',
      t.release key = (t', .ok (.freed emptied bref)) ∧ t.Revises id none 0 t' := by
  have revises := filed.revises_recount found 0
  have filed' : (t.recount key 0).Filed holds :=
    filed.of_sameFiles (sameFiles_modifyResource rfl rfl)
  have none : ((t.recount key 0).resource key).queued = 0 := revises.queued key unlocked
  have found' : (t.recount key 0).keyAt? id = some key := found
  exact ⟨_, _, _, (Table.release_of_last last).trans
    (filed'.evict (filed'.mem_of_keyAt? found') none), revises.trans (filed'.revises_strike found')⟩

end Filed

/-- Two tables have the same, up to the keys of the resources. -/
structure Corresponds (renamed : ResourceKey → ResourceKey) (t t' : Table) : Prop where
  ids : ∀ b id, (∃ key, (id, key) ∈ (t'.bucket b).entries) ↔
    ∃ key, (id, key) ∈ (t.bucket b).entries
  objects : ∀ b id key, (id, key) ∈ (t.bucket b).entries →
    (id, renamed key) ∈ (t'.bucket b).entries ∧
    (t'.resource (renamed key)).rtype = (t.resource key).rtype ∧
    (t'.resource (renamed key)).refcount = (t.resource key).refcount
  buckets : ∀ b, (t'.bucket b).entries = [] ↔ (t.bucket b).entries = []
  bref : t'.bref = t.bref

/-- It is enough that they have the same under each id. -/
theorem Corresponds.of_stored {renamed : ResourceKey → ResourceKey} (filed : t.Filed holds)
    (filed' : t'.Filed holds) (home : t'.bucketOf = t.bucketOf)
    (stored : ∀ id, t'.stored? id = (t.stored? id).map (.map renamed)) :
    t.Corresponds renamed t' := by
  have objects : ∀ b id key, (id, key) ∈ (t.bucket b).entries →
      (id, renamed key) ∈ (t'.bucket b).entries ∧
      (t'.resource (renamed key)).rtype = (t.resource key).rtype ∧
      (t'.resource (renamed key)).refcount = (t.resource key).refcount := by
    intro b id key member
    obtain ⟨found, here⟩ := filed.mem_entries.mp member
    have same := stored id
    rw [stored?, stored?, found, Option.map_some, Option.map_some, Option.map_eq_some_iff] at same
    obtain ⟨key', found', same⟩ := same
    obtain ⟨rfl, types, counts⟩ := Stored.mk.inj same
    exact ⟨filed'.mem_entries.mpr ⟨found', (congrFun home id).trans here⟩, types, counts⟩
  have ids : ∀ b id, (∃ key, (id, key) ∈ (t'.bucket b).entries) ↔
      ∃ key, (id, key) ∈ (t.bucket b).entries := by
    refine fun b id => ⟨?_, fun ⟨key, member⟩ => ⟨_, (objects b id key member).1⟩⟩
    rintro ⟨key', member⟩
    obtain ⟨found', here⟩ := filed'.mem_entries.mp member
    have same := stored id
    cases found : t.keyAt? id with
    | some key => exact ⟨key, filed.mem_entries.mpr ⟨found, (congrFun home id).symm.trans here⟩⟩
    | none =>
      rw [stored?, stored?, found, found'] at same
      cases same
  have buckets : ∀ b, (t'.bucket b).entries = [] ↔ (t.bucket b).entries = [] := by
    intro b
    have empty : ∀ s : Table, (s.bucket b).entries = [] ↔
        ∀ id, ¬ ∃ key, (id, key) ∈ (s.bucket b).entries := by
      intro s
      rw [List.eq_nil_iff_forall_not_mem, Prod.forall]
      exact forall_congr' fun id => not_exists.symm
    rw [empty, empty]
    exact forall_congr' fun id => not_congr (ids b id)
  refine ⟨ids, objects, buckets, ?_⟩
  have occupied : t'.occupied = t.occupied := by
    rw [occupied_eq_sum, occupied_eq_sum]
    refine Store.sum_congr Bucket.occupancy_default fun b => ?_
    have same := buckets b
    unfold Table.bucket at same
    simp only [Bucket.occupancy, List.isEmpty_iff, same]
  rw [filed'.held, filed.held, occupied]

end Table

end Lockspace
