import Lockspace.Proofs.Documents.Spelling

namespace Lockspace

namespace Json

/-- A document whose texts are all there and whose numbers are natural. -/
inductive Plain : Json → Prop
  | null : Plain .null
  | flag (value : Bool) : Plain (.flag value)
  | natural (value : Nat) : Plain (.natural value)
  | text (value : String) : Plain (.text (some value))
  | array {items : List Json} (plain : ∀ v ∈ items, Plain v) : Plain (.array items)
  | object {members : List (Option String × Json)} (keyed : ∀ m ∈ members, m.1.isSome)
      (plain : ∀ m ∈ members, Plain m.2) : Plain (.object members)

/-- A reader gets from one state to another over a row of characters. -/
def Reads (r : Reader) (cs : List Char) (r' : Reader) : Prop :=
  cs.foldlM Reader.step? r = some r'

theorem Reads.nil (r : Reader) : Reads r [] r :=
  rfl

theorem Reads.cons {r r₁ r' : Reader} {c : Char} {cs : List Char} (step : r.step? c = some r₁)
    (rest : Reads r₁ cs r') : Reads r (c :: cs) r' := by
  unfold Reads
  rw [List.foldlM_cons, step]
  exact rest

theorem Reads.append {r r₁ r' : Reader} {cs ds : List Char} (first : Reads r cs r₁)
    (rest : Reads r₁ ds r') : Reads r (cs ++ ds) r' := by
  unfold Reads at first ⊢
  rw [List.foldlM_append, first]
  exact rest

/-- A reader that has a whole value. A number is one as long as no more digits come. -/
structure Settled (frames : List Frame) (v : Json) (r : Reader) : Prop where
  here : r.frames = frames
  whole : r.mode = .after v ∨
    ∃ part spelling, r.mode = .number part spelling ∧ part.complete ∧ ofSpelling spelling.reverse = v

variable {frames : List Frame} {v : Json} {r : Reader}

theorem settled_after (frames : List Frame) (v : Json) : Settled frames v ⟨frames, .after v⟩ :=
  ⟨rfl, Or.inl rfl⟩

theorem step?_of_separator {part : NumberPart} {c : Char} (separator : c ∈ [',', ']', '\x7d']) :
    part.step? c = none := by
  simp only [List.mem_cons, List.not_mem_nil, or_false] at separator
  rcases separator with rfl | rfl | rfl <;> cases part <;> rfl

theorem Settled.step {c : Char} (settled : Settled frames v r) (separator : c ∈ [',', ']', '\x7d']) :
    r.step? c = Reader.after? frames v c := by
  obtain ⟨rfl, whole⟩ := settled
  rcases whole with mode | ⟨part, spelling, mode, complete, rfl⟩
  · rw [Reader.step?, mode]
  · rw [Reader.step?, mode]
    simp only [step?_of_separator separator, if_pos complete]

theorem Settled.finish (settled : Settled [] v r) : r.finish? = some v := by
  obtain ⟨here, whole⟩ := settled
  rcases whole with mode | ⟨part, spelling, mode, complete, rfl⟩
  · rw [Reader.finish?, here, mode]
  · rw [Reader.finish?, here, mode]
    exact if_pos complete

/-- The modes in which a reader takes the first character of a value. -/
def Opening (mode : Mode) : Prop :=
  mode = .value ∨ mode = .firstItem

theorem Opening.step {mode : Mode} {c : Char} (opening : Opening mode) (token : isGap c = false)
    (inside : c ≠ ']') : (⟨frames, mode⟩ : Reader).step? c = Reader.start? frames c := by
  rcases opening with rfl | rfl
  · simp only [Reader.step?, token, Bool.false_eq_true, if_false]
  · simp only [Reader.step?, token, Bool.false_eq_true, if_false, if_neg inside]

/-- Digits go on with a number. -/
theorem reads_digits {ds spelling : List Char} (digits : ∀ d ∈ ds, isDigit d = true) :
    Reads ⟨frames, .number .digits spelling⟩ ds
      ⟨frames, .number .digits (ds.reverse ++ spelling)⟩ := by
  induction ds generalizing spelling with
  | nil => exact .nil _
  | cons d ds ih =>
    have digit := digits d (List.mem_cons_self ..)
    rw [List.reverse_cons, List.append_assoc, List.singleton_append]
    refine .cons ?_ (ih fun e member => digits e (List.mem_cons_of_mem d member))
    simp only [Reader.step?, NumberPart.step?, digit, if_true]

theorem ne_of_isDigit {c d : Char} (digit : isDigit c = true) (other : isDigit d = false) :
    c ≠ d := by
  rintro rfl
  rw [other] at digit
  cases digit

theorem isGap_of_isDigit {c : Char} (digit : isDigit c = true) : isGap c = false := by
  have other (d : Char) (no : isDigit d = false) : (c == d) = false :=
    beq_false_of_ne (ne_of_isDigit digit no)
  simp only [isGap, other ' ' rfl, other '\n' rfl, other '\t' rfl, other '\r' rfl, Bool.or_self]

theorem start?_of_isDigit {c : Char} (digit : isDigit c = true) (nonzero : c ≠ '0') :
    Reader.start? frames c = some ⟨frames, .number .digits [c]⟩ := by
  have other (d : Char) (no : isDigit d = false) : c ≠ d := ne_of_isDigit digit no
  simp only [Reader.start?, other '[' rfl, other '\x7b' rfl, other '"' rfl, other 't' rfl,
    other 'f' rfl, other 'n' rfl, other '-' rfl, nonzero, digit, if_false, if_true]

theorem reads_natural (n : Nat) {mode : Mode} (opening : Opening mode) :
    ∃ r, Reads ⟨frames, mode⟩ (Nat.toDigits 10 n) r ∧ Settled frames (.natural n) r := by
  rcases Nat.eq_zero_or_pos n with rfl | positive
  · rw [Nat.toDigits_zero]
    refine ⟨⟨frames, .number .zero ['0']⟩, .cons ?_ (.nil _), rfl, Or.inr ⟨_, _, rfl, rfl, rfl⟩⟩
    exact opening.step rfl (by decide)
  · have digits : ∀ d ∈ Nat.toDigits 10 n, isDigit d = true := fun d => isDigit_of_mem_toDigits
    have value : ofSpelling (Nat.toDigits 10 n) = .natural n := by
      rw [ofSpelling, if_pos (List.all_eq_true.mpr digits), decimalValue_toDigits]
    have lead := head_toDigits (Nat.ne_of_gt positive)
    obtain ⟨c, cs, spelled⟩ := List.exists_cons_of_ne_nil (Nat.toDigits_ne_nil (n := n) (b := 10))
    rw [spelled] at digits lead value ⊢
    have digit := digits c (List.mem_cons_self ..)
    have start : (⟨frames, mode⟩ : Reader).step? c = some ⟨frames, .number .digits [c]⟩ := by
      rw [opening.step (isGap_of_isDigit digit) (ne_of_isDigit digit rfl)]
      exact start?_of_isDigit digit fun zero => lead (congrArg some zero)
    refine ⟨_, .cons start (reads_digits fun d member => digits d (List.mem_cons_of_mem c member)),
      rfl, Or.inr ⟨_, _, rfl, rfl, ?_⟩⟩
    rw [List.reverse_append, List.reverse_reverse, List.reverse_singleton, List.singleton_append]
    exact value

/-- The characters of a text lead from quote to quote, in a value as in a key. -/
theorem reads_inside (mode : List Nat → EscapePart → Mode)
    (steps : ∀ codes part c next, inside? (codes, part) c = some next →
      (⟨frames, mode codes part⟩ : Reader).step? c = some ⟨frames, mode next.1 next.2⟩)
    {cs : List Char} {codes : List Nat} {part : EscapePart} {after : List Nat × EscapePart}
    (inside : cs.foldlM inside? (codes, part) = some after) :
    Reads ⟨frames, mode codes part⟩ cs ⟨frames, mode after.1 after.2⟩ := by
  induction cs generalizing codes part with
  | nil =>
    cases inside
    exact .nil _
  | cons c cs ih =>
    rw [List.foldlM_cons] at inside
    obtain ⟨next, first, rest⟩ := Option.bind_eq_some_iff.mp inside
    exact .cons (steps codes part c next first) (ih rest)

theorem read_of_inside {codes : List Nat} {part : EscapePart} {c : Char}
    {next : List Nat × EscapePart} (inside : inside? (codes, part) c = some next) :
    ¬ (part = .plain ∧ c = '"') ∧ readText? codes part c = some next := by
  unfold inside? at inside
  split at inside
  · cases inside
  · exact ⟨‹_›, inside⟩

theorem reads_text (s : String) {mode : Mode} (opening : Opening mode) :
    Reads ⟨frames, mode⟩ (writeText s) ⟨frames, .after (.text (some s))⟩ := by
  have body := inside_writeText s.toList []
  rw [List.append_nil] at body
  refine .cons (opening.step rfl (by decide)) (.append (reads_inside .text ?_ body) ?_)
  · intro codes part c next inside
    obtain ⟨open_, taken⟩ := read_of_inside inside
    simp only [Reader.step?, if_neg open_, taken, Option.map_some]
  · refine .cons ?_ (.nil _)
    simp only [Reader.step?, textOf_codes, and_self, if_true]

theorem reads_key (s : String) {read : List (Option String × Json)} {mode : Mode}
    (opening : mode = .firstKey read ∨ mode = .nextKey read) :
    Reads ⟨frames, mode⟩ (writeText s) ⟨frames, .colon read (some s)⟩ := by
  have start : (⟨frames, mode⟩ : Reader).step? '"' = some ⟨frames, .key read [] .plain⟩ := by
    rcases opening with rfl | rfl <;> rfl
  have body := inside_writeText s.toList []
  rw [List.append_nil] at body
  refine .cons start (.append (reads_inside (.key read) ?_ body) ?_)
  · intro codes part c next inside
    obtain ⟨open_, taken⟩ := read_of_inside inside
    simp only [Reader.step?, if_neg open_, taken, Option.map_some]
  · refine .cons ?_ (.nil _)
    simp only [Reader.step?, textOf_codes, and_self, if_true]

/-- What reading a written value means, wherever it stands. -/
def ReadsBack (v : Json) : Prop :=
  ∀ frames mode, Opening mode → ∃ r, Reads ⟨frames, mode⟩ (write v) r ∧ Settled frames v r

theorem reads_items {items : List Json} (each : ∀ v ∈ items, ReadsBack v) (nonempty : items ≠ [])
    {read : List Json} {mode : Mode} (opening : Opening mode) :
    Reads ⟨.items read :: frames, mode⟩ (writeItems items ++ [']'])
      ⟨frames, .after (.array (read.reverse ++ items))⟩ := by
  induction items generalizing read mode with
  | nil => exact absurd rfl nonempty
  | cons v rest ih =>
    obtain ⟨r, reads, settled⟩ := each v (List.mem_cons_self ..) (.items read :: frames) mode opening
    -- A number is only whole with the character after it, which is the bracket or the next comma.
    cases rest with
    | nil =>
      have closed : r.step? ']' = some ⟨frames, .after (.array (v :: read).reverse)⟩ :=
        settled.step (by decide)
      rw [List.reverse_cons] at closed
      rw [writeItems]
      exact reads.append (.cons closed (.nil _))
    | cons w rest =>
      have next : Reads ⟨.items (v :: read) :: frames, .value⟩ (writeItems (w :: rest) ++ [']']) _ :=
        ih (fun w member => each w (List.mem_cons_of_mem v member)) (List.cons_ne_nil _ _)
          (Or.inl rfl)
      have separated : r.step? ',' = some ⟨.items (v :: read) :: frames, .value⟩ :=
        settled.step (by decide)
      rw [List.reverse_cons, List.append_assoc, List.singleton_append] at next
      rw [writeItems, List.append_assoc, List.cons_append]
      exact reads.append (.cons separated next)

theorem reads_members {members : List (Option String × Json)} (keyed : ∀ m ∈ members, m.1.isSome)
    (each : ∀ m ∈ members, ReadsBack m.2) (nonempty : members ≠ [])
    {read : List (Option String × Json)} {mode : Mode}
    (opening : mode = .firstKey read ∨ mode = .nextKey read) :
    Reads ⟨frames, mode⟩ (writeMembers members ++ ['\x7d'])
      ⟨frames, .after (.object (read.reverse ++ members))⟩ := by
  induction members generalizing read mode with
  | nil => exact absurd rfl nonempty
  | cons m rest ih =>
    obtain ⟨key, v⟩ := m
    obtain ⟨key, rfl⟩ := Option.isSome_iff_exists.mp (keyed _ (List.mem_cons_self ..))
    obtain ⟨r, reads, settled⟩ :=
      each _ (List.mem_cons_self ..) (.members read (some key) :: frames) .value (Or.inl rfl)
    have valued : Reads ⟨frames, mode⟩ (writeText key ++ ':' :: write v) r :=
      (reads_key key opening).append (.cons rfl reads)
    cases rest with
    | nil =>
      have closed : r.step? '\x7d' =
          some ⟨frames, .after (.object ((some key, v) :: read).reverse)⟩ :=
        settled.step (by decide)
      rw [List.reverse_cons] at closed
      rw [writeMembers]
      exact valued.append (.cons closed (.nil _))
    | cons next rest =>
      have later : Reads ⟨frames, .nextKey ((some key, v) :: read)⟩
          (writeMembers (next :: rest) ++ ['\x7d']) _ :=
        ih (fun m member => keyed m (List.mem_cons_of_mem _ member))
          (fun m member => each m (List.mem_cons_of_mem _ member)) (List.cons_ne_nil _ _)
          (Or.inr rfl)
      have separated : r.step? ',' = some ⟨frames, .nextKey ((some key, v) :: read)⟩ :=
        settled.step (by decide)
      rw [List.reverse_cons, List.append_assoc, List.singleton_append] at later
      have whole := valued.append (.cons separated later)
      rw [writeMembers]
      simpa only [Option.getD_some, List.append_assoc, List.cons_append] using whole

theorem reads_array {items : List Json} (each : ∀ v ∈ items, ReadsBack v) {mode : Mode}
    (opening : Opening mode) :
    Reads ⟨frames, mode⟩ (write (.array items)) ⟨frames, .after (.array items)⟩ := by
  rw [write]
  refine .cons (opening.step rfl (by decide)) ?_
  cases items with
  | nil => exact .cons rfl (.nil _)
  | cons v rest => exact reads_items each (List.cons_ne_nil v rest) (Or.inr rfl)

theorem reads_object {members : List (Option String × Json)} (keyed : ∀ m ∈ members, m.1.isSome)
    (each : ∀ m ∈ members, ReadsBack m.2) {mode : Mode} (opening : Opening mode) :
    Reads ⟨frames, mode⟩ (write (.object members)) ⟨frames, .after (.object members)⟩ := by
  rw [write]
  refine .cons (opening.step rfl (by decide)) ?_
  cases members with
  | nil => exact .cons rfl (.nil _)
  | cons m rest => exact reads_members keyed each (List.cons_ne_nil m rest) (Or.inl rfl)

/-- A plain document is read back wherever it stands, by induction on the document. -/
theorem Plain.readsBack {v : Json} (plain : v.Plain) : v.ReadsBack := by
  induction plain with
  | null =>
    intro frames mode opening
    exact ⟨_, .cons (opening.step rfl (by decide)) rfl, settled_after ..⟩
  | flag value =>
    intro frames mode opening
    cases value <;> exact ⟨_, .cons (opening.step rfl (by decide)) rfl, settled_after ..⟩
  | natural n =>
    intro frames mode opening
    exact reads_natural n opening
  | text s =>
    intro frames mode opening
    exact ⟨_, reads_text s opening, settled_after ..⟩
  | array _ each =>
    intro frames mode opening
    exact ⟨_, reads_array each opening, settled_after ..⟩
  | object keyed _ each =>
    intro frames mode opening
    exact ⟨_, reads_object keyed each opening, settled_after ..⟩

/-- Reading undoes writing for every plain document. -/
theorem Plain.read?_render {v : Json} (plain : v.Plain) : read? v.render = some v := by
  obtain ⟨r, reads, settled⟩ := plain.readsBack [] .value (Or.inl rfl)
  unfold read? render
  rw [String.toList_ofList, show v.write.foldlM Reader.step? ⟨[], .value⟩ = some r from reads]
  exact settled.finish

end Json

end Lockspace
