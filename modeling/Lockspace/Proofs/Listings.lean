import Lockspace.Proofs.Outcomes
import Lockspace.Proofs.SpaceLife
import Mathlib.Data.List.Basic

namespace Lockspace

open Act

/-- Whether a line is that of a lock. -/
def DumpLine.isLock : DumpLine → Bool
  | lock .. => true
  | _ => false

/-- Lines under their title. Where there are none, there is no title either. -/
def titledLines (title : DumpLine) (lines : List DumpLine) : List DumpLine :=
  if lines = [] then [] else title :: lines

/-- The first of some locks, and a notice where others are left out. -/
def firstLines (shown : Nat) (locks : List Lock) : List DumpLine :=
  (locks.take shown).map .ofLock ++ if shown < locks.length then [.cutShort shown] else []

/-- How many of so many granted locks a listing shows: all of them at a grave level, and at the
others as many as may be shown. -/
def Level.share (level : Level) (most total : Nat) : Nat :=
  match level with
  | .error | .warn => total
  | .info | .debug | .trace => min most total

namespace Resource

/-- The granted locks from the newest on. -/
def newest (r : Resource) (lockOf : LockKey → Lock) : List Lock :=
  r.queues.granted.reverse.map lockOf

/-- A listing with so many of the granted locks, the newest ones, and with all other locks. -/
def listing (r : Resource) (lockOf : LockKey → Lock) (shown : Nat) : List DumpLine :=
  r.headerLine ::
    (titledLines .grantedTitle (firstLines shown (r.newest lockOf)) ++
      titledLines .convertingTitle ((r.queues.converting.map lockOf).map .ofLock) ++
      titledLines .waitingTitle ((r.queues.waiting.map lockOf).map .ofLock))

/-- Lines list a resource with as many of its granted locks as its limit allows at a level. -/
structure Lists (r : Resource) (lockOf : LockKey → Lock) (level : Level) (lines : List DumpLine) :
    Prop where
  exact : lines = r.listing lockOf (level.share r.dumpGrantedMax r.queues.granted.length)
  few : level.isCapped → lines.countP (·.isLock) ≤
    r.dumpGrantedMax + r.queues.converting.length + r.queues.waiting.length

instance (r : Resource) (lockOf : LockKey → Lock) (level : Level) (lines : List DumpLine) :
    Decidable (r.Lists lockOf level lines) :=
  decidable_of_iff (_ ∧ _) ⟨fun lists => ⟨lists.1, lists.2⟩, fun lists => ⟨lists.exact, lists.few⟩⟩

end Resource

theorem queueLines_eq (title : DumpLine) (locks : List Lock) :
    queueLines title locks = titledLines title (locks.map .ofLock) := by
  cases locks <;> rfl

theorem grantedLines_uncapped (most total listed : Nat) (locks : List Lock) :
    grantedLines false most total listed locks = locks.map .ofLock := by
  induction locks generalizing listed with
  | nil => rfl
  | cons l rest ih => exact congrArg _ (ih (listed + 1))

/-- A capped scan stops at the limit, but never before the first lock. -/
theorem grantedLines_capped (most : Nat) {total listed : Nat} {locks : List Lock}
    (whole : listed + locks.length = total) :
    let shown := max 1 (most - listed)
    grantedLines true most total listed locks = (locks.take shown).map .ofLock ++
      if shown < locks.length then [.cutShort (listed + shown)] else [] := by
  intro shown
  induction locks generalizing listed with
  | nil => simp [grantedLines]
  | cons l rest ih =>
    rw [List.length_cons] at whole
    by_cases reached : most ≤ listed + 1
    · have one : shown = 1 := by omega
      rw [one, grantedLines, List.length_cons]
      by_cases last : rest = []
      · have none : ¬ listed + 1 < total := by
          rw [← whole, last]
          exact Nat.lt_irrefl _
        simp [last, none, grantedLines]
      · have left := List.length_pos_iff.mpr last
        have more : listed + 1 < total := by omega
        simp [reached, more, left]
    · obtain ⟨next, split, same⟩ : ∃ next, shown = next + 1 ∧ max 1 (most - (listed + 1)) = next :=
        ⟨shown - 1, by omega, by omega⟩
      have beyond : listed + 1 + rest.length = total := by omega
      have later := ih beyond
      simp only [same] at later
      have notice : listed + 1 + next = listed + (next + 1) := by omega
      rw [grantedLines, split, List.take_succ_cons, List.length_cons]
      simp [reached, later, notice]

theorem grantedSection_eq (capped : Bool) (most total : Nat) (locks : List Lock) :
    (if locks.isEmpty then [] else .grantedTitle :: grantedLines capped most total 0 locks) =
      titledLines .grantedTitle (grantedLines capped most total 0 locks) := by
  cases locks <;> rfl

/-- The scan shows the share of the level, were the limit not zero. -/
theorem grantedLines_eq (level : Level) (most : Nat) (locks : List Lock) :
    grantedLines level.isCapped most locks.length 0 locks =
      firstLines (level.share (max 1 most) locks.length) locks := by
  have all : grantedLines false most locks.length 0 locks = firstLines locks.length locks := by
    rw [grantedLines_uncapped, firstLines, List.take_length, if_neg (Nat.lt_irrefl _),
      List.append_nil]
  have some : grantedLines true most locks.length 0 locks =
      firstLines (min (max 1 most) locks.length) locks := by
    have scan := grantedLines_capped most (Nat.zero_add locks.length)
    simp only [Nat.sub_zero, Nat.zero_add] at scan
    rw [scan, firstLines]
    by_cases more : max 1 most < locks.length
    · rw [Nat.min_eq_left more.le]
    · have within := Nat.le_of_not_lt more
      rw [Nat.min_eq_right within, List.take_of_length_le within, List.take_length, if_neg more,
        if_neg (Nat.lt_irrefl _)]
  cases level
  · exact all
  · exact all
  · exact some
  · exact some
  · exact some

theorem countP_titledLines {title : DumpLine} (plain : title.isLock = false)
    (lines : List DumpLine) :
    (titledLines title lines).countP (·.isLock) = lines.countP (·.isLock) := by
  unfold titledLines
  split
  · rename_i none
    rw [none]
  · exact List.countP_cons_of_neg (by simp [plain])

theorem countP_ofLock (locks : List Lock) :
    (locks.map DumpLine.ofLock).countP (·.isLock) = locks.length := by
  rw [List.countP_map]
  exact List.countP_eq_length.mpr fun _ _ => rfl

theorem Level.share_of_capped {level : Level} (capped : level.isCapped) (most total : Nat) :
    level.share most total = min most total := by
  cases level <;> first | rfl | cases capped

theorem Level.share_of_uncapped {level : Level} (uncapped : level.isCapped = false)
    (most total : Nat) : level.share most total = total := by
  cases level <;> first | rfl | cases uncapped

namespace Resource

theorem length_newest (r : Resource) (lockOf : LockKey → Lock) :
    (r.newest lockOf).length = r.queues.granted.length := by
  rw [newest, List.length_map, List.length_reverse]

/-- A listing has a line for each lock that it is to show. -/
theorem countP_listing (r : Resource) (lockOf : LockKey → Lock) (shown : Nat) :
    (r.listing lockOf shown).countP (·.isLock) = min shown r.queues.granted.length +
      r.queues.converting.length + r.queues.waiting.length := by
  have notice : ∀ more : Prop, [Decidable more] →
      (if more then [DumpLine.cutShort shown] else []).countP (·.isLock) = 0 := by
    intro more _
    split <;> rfl
  rw [listing, List.countP_cons_of_neg (by simp [headerLine, DumpLine.isLock]), List.countP_append,
    List.countP_append, countP_titledLines rfl, countP_titledLines rfl, countP_titledLines rfl,
    firstLines, List.countP_append, countP_ofLock, countP_ofLock, countP_ofLock, notice,
    List.length_take, length_newest, List.length_map, List.length_map, Nat.add_zero]

/-- The lines of a resource are its listing, where a limit of zero counts as one. -/
theorem dumpLines_eq (r : Resource) (lockOf : LockKey → Lock) (level : Level) :
    r.dumpLines lockOf level =
      r.listing lockOf (level.share (max 1 r.dumpGrantedMax) r.queues.granted.length) := by
  have same : (r.newest lockOf).length = r.queues.granted.length := r.length_newest lockOf
  unfold dumpLines
  simp only [grantedSection_eq, queueLines_eq]
  rw [grantedLines_eq, ← newest, same, listing]

/-- The lines list a resource as its limit asks for, unless that is zero and applies. -/
theorem lists_dumpLines_iff (r : Resource) (lockOf : LockKey → Lock) (level : Level) :
    r.Lists lockOf level (r.dumpLines lockOf level) ↔
      (level.isCapped → r.dumpGrantedMax = 0 → r.queues.granted = []) := by
  have count := r.countP_listing lockOf
    (level.share (max 1 r.dumpGrantedMax) r.queues.granted.length)
  rw [← dumpLines_eq] at count
  constructor
  · rintro ⟨-, few⟩ capped zero
    have shown := few capped
    rw [Level.share_of_capped capped] at count
    have none : r.queues.granted.length = 0 := by omega
    exact List.length_eq_zero_iff.mp none
  · intro spared
    have same : level.share (max 1 r.dumpGrantedMax) r.queues.granted.length =
        level.share r.dumpGrantedMax r.queues.granted.length := by
      cases capped : level.isCapped with
      | false => rw [Level.share_of_uncapped capped, Level.share_of_uncapped capped]
      | true =>
        rw [Level.share_of_capped capped, Level.share_of_capped capped]
        by_cases zero : r.dumpGrantedMax = 0
        · rw [spared capped zero, List.length_nil, Nat.min_zero, Nat.min_zero]
        · rw [max_eq_right (Nat.one_le_iff_ne_zero.mpr zero)]
    refine ⟨by rw [dumpLines_eq, same], fun capped => ?_⟩
    rw [same, Level.share_of_capped capped] at count
    omega

end Resource

namespace Act

/-- A listing logs the header of a resource, then its granted locks from the newest on with as many
of them as may be shown at the level and a notice if others are left out, then all converting and
all waiting locks in order, each list under a title if it is not empty. This fails only for a limit
of zero that applies to a resource with granted locks: the newest one is then shown all the same. -/
theorem dumps_share (level : Level) (ref : ResourceRef) (m : Manager) :
    let r := m.resource ref
    let lines := r.dumpLines m.lock level
    dumpResource level ref m = .ok () { m with log := m.log ++ lines.map (·.logged level) } ∧
      (r.Lists m.lock level lines ↔
        (level.isCapped → r.dumpGrantedMax = 0 → r.queues.granted = [])) ∧
      lines = r.listing m.lock (level.share (max 1 r.dumpGrantedMax) r.queues.granted.length) :=
  ⟨run_dump_eq level _ m, Resource.lists_dumpLines_iff _ m.lock level,
    Resource.dumpLines_eq _ m.lock level⟩

/-- A resource with two granted locks, of whose locks a capped listing is to show none. -/
def unlisted : Act Unit := do
  discard (build { Setup.oneBucket with
    config := { (default : NamespaceConfig) with dumpGrantedMax := 0 } })
  discard (getOrCreate ⟨0⟩ ⟨1, 0, 0, 0⟩ .plain true)
  addLock ⟨⟨0⟩, ⟨0⟩⟩ .granted (← newLock ⟨1⟩ .pr none)
  addLock ⟨⟨0⟩, ⟨0⟩⟩ .granted (← newLock ⟨2⟩ .pr none)

/-- With a limit of zero a capped listing shows a lock all the same, and its notice counts that. -/
theorem shows_beyond_zero : unlisted.Leaves {} fun answer m => answer.isOk ∧
    let r := m.resource ⟨⟨0⟩, ⟨0⟩⟩
    (m.space ⟨0⟩).config.IsValid ∧ r.dumpGrantedMax = 0 ∧
      r.dumpLines m.lock .info =
        [r.headerLine, .grantedTitle, .ofLock (m.lock ⟨1⟩), .cutShort 1] ∧
      r.listing m.lock (Level.info.share r.dumpGrantedMax r.queues.granted.length) =
        [r.headerLine, .grantedTitle, .cutShort 0] ∧
      ¬ r.Lists m.lock .info (r.dumpLines m.lock .info) := by
  decide +kernel

end Act

end Lockspace
