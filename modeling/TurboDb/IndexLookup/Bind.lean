import TurboDb.Library.Ranges
import TurboDb.Schema

/-!
The key ranges of an index lookup.

Each alternative of a condition has at most one range of keys: those that begin
with the cells of its equal parts, or with cells between two bounds of the part
behind them. A range ends before the first key behind all those that begin as
its last one does. The ranges are sorted and joined where they meet.

A lookup has been planned here, with room for its keys. Step charges are left out.
-/

namespace TurboDb.Lookup

open ByteOrder Wire Effect Ranges List

structure LookupProbe where
  value : Value := .null
  parameter : Nat := 0
  present : Bool := false
  isParameter : Bool := false
  nullEqual : Bool := false
  exclusive : Bool := false

structure LookupColumn where
  equal : LookupProbe := {}
  lower : LookupProbe := {}
  upper : LookupProbe := {}

inductive IndexAccess
  | equal | prefixed | range
  deriving DecidableEq

structure LookupTerm where
  columnOffset : Nat
  listColumn : Nat
  first : Nat
  count : Nat
  equalParts : Nat
  boundBytes : Nat
  access : IndexAccess
  listUsed : Bool

abbrev LookupRange := HalfOpen Bytes

structure IndexLookup where
  record : IndexRecord
  tupleBytes : Nat
  probes : List LookupColumn
  terms : List LookupTerm
  choices : List LookupProbe
  row : List Value

def lookupCompare (a b : Bytes) : Ordering :=
  let common := min a.length b.length
  (memcmp (a.take common) (b.take common)).then
    (if a.length < b.length then .lt else if a.length > b.length then .gt else .eq)

def lookupRangeCompare (a b : LookupRange) : Ordering := lookupCompare a.lower b.lower

def lookupValue (probe : LookupProbe) (parameters : List Value) : Except Failure Value := do
  let value ← if probe.isParameter then
      given parameters[probe.parameter]? ⟨.invalidArgument, "index probe parameter is missing"⟩
    else pure probe.value
  let accepted := match value with
    | .null | .int64 _ | .uint64 _ => true
    | .double bits => isFinite bits
    | _ => false
  reject (accepted = false) ⟨.typeError, "index probe requires a finite numeric value or NULL"⟩
  return value

/-- The word of a numeric value, of whichever kind. -/
def data : Value → UInt64
  | .int64 value => value.toUInt64
  | .uint64 word | .double word => word
  | _ => 0

/-- Where the value lies to the domain of the kind, and its word if inside. -/
def lookupOrdered (kind : Kind) (value : Value) : Ordering × UInt64 :=
  match kind, value with
  | .double, value => (.eq, doubleOrder (numericRealValue value))
  | .uint64, .int64 value => if value < 0 then (.lt, 0) else (.eq, value.toUInt64)
  | .uint64, value => (.eq, data value)
  | _, .uint64 value =>
    if value > 0x7FFFFFFFFFFFFFFF then (.gt, 0) else (.eq, signedOrder value.toInt64)
  | _, value => (.eq, signedOrder (data value).toInt64)

def lookupUnordered (kind : Kind) (word : UInt64) : Value :=
  match kind with
  | .double => .double (orderDouble word)
  | .int64 => .int64 (orderSigned word)
  | _ => .uint64 word

structure LookupInterval where
  lower : UInt64 := 0
  upper : UInt64 := 0xFFFFFFFFFFFFFFFF
  empty : Bool := false

/-- The words of the least and of the greatest value of a kind. -/
def LookupInterval.whole : Kind → LookupInterval
  | .double => ⟨doubleOrder 0xFFEFFFFFFFFFFFFF, doubleOrder 0x7FEFFFFFFFFFFFFF, false⟩
  | _ => {}

def lookupBound (probe : LookupProbe) (kind : Kind) (lower : Bool) (parameters : List Value)
    (interval : LookupInterval) : Except Failure LookupInterval := do
  if probe.present = false then return interval
  let value ← lookupValue probe parameters
  if value.kind = .null then return { interval with empty := true }
  let (position, word) := lookupOrdered kind value
  if position ≠ .eq then
    return { interval with empty := interval.empty || position = if lower then .gt else .lt }
  let mut word := word
  if probe.exclusive then
    let whole := LookupInterval.whole kind
    if word = if lower then whole.upper else whole.lower then
      return { interval with empty := true }
    let next (word : UInt64) := if lower then word + 1 else word - 1
    word := next word
    -- No value has the word below the one that both zeros have.
    if kind = .double ∧ word = doubleOrder 0 - 1 then word := next word
  return if lower then { interval with lower := word } else { interval with upper := word }

/-- The bytes without the last ones that cannot be raised, the last one left raised. -/
def lookupAfter (key : Bytes) : Bytes :=
  match key.reverse.dropWhile (· = 0xFF) with
  | [] => []
  | last :: before => ((last + 1) :: before).reverse

def indexDataNs : UInt8 := 5

def indexPrefixBytes : Nat := 1 + 2 * 8

def indexPrefix (space : UInt8) (identity : IndexIdentity) : Bytes :=
  space :: (write 8 identity.indexId ++ write 8 identity.generation)

def lookupEncode (lookup : IndexLookup) (row : List Value) : Except Failure Bytes := do
  let (tuple, _) ← IndexKey.encode lookup.record.definition.parts row lookup.tupleBytes
  return indexPrefix indexDataNs lookup.record.identity ++ tuple

/-- The value of the `i`th part, and whether no key can have it. -/
def lookupPart (lookup : IndexLookup) (term : LookupTerm) (choice : Nat) (parameters : List Value)
    (part : IndexPart) (i : Nat) : Except Failure (Value × Bool) := do
  if i < term.equalParts then
    let probe :=
      if term.listUsed ∧ term.listColumn = part.column then
        lookup.choices.getD (term.first + choice) {}
      else (lookup.probes.getD (term.columnOffset + part.column) {}).equal
    let value ← lookupValue probe parameters
    if value.kind = .null then return (value, !probe.nullEqual || !part.type.nullable)
    let (position, word) := lookupOrdered part.type.kind value
    return if position = .eq then (lookupUnordered part.type.kind word, false) else (value, true)
  else
    return (match part.type.kind with
      | .int64 => .int64 0
      | .double => .double 0
      | _ => .uint64 0, false)

def lookupBindOne (lookup : IndexLookup) (term : LookupTerm) (choice : Nat)
    (parameters : List Value) : Except Failure (Option LookupRange) := do
  let parts := lookup.record.definition.parts
  let size := indexPrefixBytes + term.boundBytes
  reject (parts.length > IndexKey.sizeMax - lookup.tupleBytes)
    ⟨.limitExceeded, "index probe step capacity overflow"⟩
  let values ← parts.zipIdx.mapM fun (part, i) => lookupPart lookup term choice parameters part i
  if values.any (·.2) then return none
  -- The row is encoded by its parts, each of which has just been set.
  let row := (parts.zip values).foldl (fun row (part, value, _) => row.set part.column value)
    lookup.row
  if term.access ≠ .range then
    let key ← lookupEncode lookup row
    return some ⟨key.take size, lookupAfter (key.take size)⟩
  -- A range is planned only for a term with a part behind its equal ones.
  let some part := parts[term.equalParts]? | return none
  let column := lookup.probes.getD (term.columnOffset + part.column) {}
  let interval ← lookupBound column.lower part.type.kind true parameters (.whole part.type.kind)
  let interval ← lookupBound column.upper part.type.kind false parameters interval
  if interval.empty ∨ interval.lower > interval.upper then return none
  let bound (word : UInt64) := row.set part.column (lookupUnordered part.type.kind word)
  let key ← lookupEncode lookup
    (bound (if part.descending then interval.upper else interval.lower))
  let upper ← lookupEncode lookup
    (bound (if part.descending then interval.lower else interval.upper))
  return some ⟨key.take size, lookupAfter (upper.take size)⟩

def lookupRanges (lookup : IndexLookup) (parameters : List Value) :
    Except Failure (List LookupRange) := do
  let choices := lookup.terms.flatMap fun term =>
    (range (if term.listUsed then term.count else 1)).map (term, ·)
  let ranges ← choices.mapM fun (term, choice) => lookupBindOne lookup term choice parameters
  return ranges.filterMap id

/-- The merged ranges, the last one first, with the current one. -/
def lookupMergeOne : List LookupRange → LookupRange → List LookupRange
  | [], current => [current]
  | previous :: merged, current =>
    if lookupCompare current.lower previous.upper ≠ .gt then
      if lookupCompare current.upper previous.upper = .gt then
        { previous with upper := current.upper } :: merged
      else previous :: merged
    else current :: previous :: merged

/-- `stable_sort` is taken to permute its input into order and to keep equal elements as they stood. -/
def lookupMerge (ranges : List LookupRange) : List LookupRange :=
  ((ranges.mergeSort fun a b => lookupRangeCompare a b ≠ .gt).foldl lookupMergeOne []).reverse

def lookupBind (lookup : IndexLookup) (parameters : List Value) :
    Except Failure (List LookupRange) :=
  return lookupMerge (← lookupRanges lookup parameters)

theorem lookupCompare_eq (a b : Bytes) : lookupCompare a b = memcmp a b := by
  induction a generalizing b with
  | nil => cases b <;> simp [lookupCompare, memcmp]
  | cons byte a ih =>
    cases b with
    | nil => simp [lookupCompare, memcmp]
    | cons other b =>
      rw [memcmp, ← ih]
      simp [lookupCompare, memcmp, Ordering.then_assoc]

section After

variable {byte : UInt8} {p key bound : Bytes}

theorem lookupAfter_cons : lookupAfter (byte :: p) =
    if lookupAfter p = [] then if byte = 0xFF then [] else [byte + 1]
    else byte :: lookupAfter p := by
  unfold lookupAfter
  rw [reverse_cons, dropWhile_append]
  cases left : p.reverse.dropWhile (· = 0xFF) with
  | nil => by_cases last : byte = 0xFF <;> simp [last]
  | cons last before => simp

/-- Every key that begins with the bytes lies below the bound, and no other greater one does. -/
def Ends (p bound : Bytes) : Prop :=
  (∀ key, p <+: key → key < bound) ∧ ∀ key, p < key → ¬p <+: key → ¬key < bound

theorem prefix_of_lookupAfter (absent : lookupAfter p = []) (above : ¬key < p) : p <+: key := by
  induction p generalizing key with
  | nil => exact nil_prefix
  | cons byte p ih =>
    rw [lookupAfter_cons] at absent
    split_ifs at absent with none last
    cases key with
    | nil => exact absurd (nil_lt_cons ..) above
    | cons first key =>
      rw [cons_lt_cons_iff, not_or, not_and, last] at above
      have greatest : first = 0xFF := by grind
      rw [last, greatest, prefix_cons_inj]
      exact ih none (above.2 greatest)

theorem lookupAfter_ends (present : lookupAfter p ≠ []) : Ends p (lookupAfter p) := by
  induction p with
  | nil => exact absurd rfl present
  | cons byte p ih =>
    rw [lookupAfter_cons] at present ⊢
    split_ifs at present ⊢ with none last
    · exact absurd rfl present
    · refine ⟨fun key begins => ?_, fun key above unlike below => unlike ?_⟩
      · obtain ⟨rest, rfl⟩ := begins
        exact cons_lt_cons_iff.mpr (.inl (UInt8.lt_add_one last))
      · cases key with
        | nil => exact absurd above (not_lt_nil _)
        | cons first key =>
          simp only [cons_lt_cons_iff, not_lt_nil, and_false, or_false] at above below
          have same : byte = first := by grind
          subst same
          simp only [lt_self_iff_false, true_and, false_or] at above
          exact (prefix_cons_inj _).mpr (prefix_of_lookupAfter none above.not_gt)
    · obtain ⟨below, behind⟩ := ih none
      refine ⟨fun key begins => ?_, fun key above unlike below => ?_⟩
      · obtain ⟨rest, rfl⟩ := begins
        exact cons_lt_cons_iff.mpr (.inr ⟨rfl, below _ (prefix_append ..)⟩)
      · cases key with
        | nil => exact absurd above (not_lt_nil _)
        | cons first key =>
          rw [cons_lt_cons_iff] at above below
          have same : byte = first := by grind
          subst same
          rw [prefix_cons_inj] at unlike
          simp only [lt_self_iff_false, true_and, false_or] at above below
          exact behind key above unlike below

theorem Ends.unlike (ends : Ends p bound) : p < bound ∧ ¬p <+: bound :=
  ⟨ends.1 p prefix_rfl, fun begins => lt_irrefl bound (ends.1 bound begins)⟩

theorem lookupAfter_least (present : lookupAfter p ≠ []) :
    IsLeast {bound | Ends p bound} (lookupAfter p) :=
  ⟨lookupAfter_ends present, fun bound ends =>
    not_lt.mp ((lookupAfter_ends present).2 bound ends.unlike.1 ends.unlike.2)⟩

theorem lookupAfter_absent_iff : lookupAfter p = [] ↔ ¬∃ bound, Ends p bound := by
  constructor
  · rintro absent ⟨bound, ends⟩
    exact ends.unlike.2 (prefix_of_lookupAfter absent ends.unlike.1.not_gt)
  · intro none
    by_contra present
    exact none ⟨_, lookupAfter_ends present⟩

end After

section Produced

variable {lookup : IndexLookup} {parameters row : List Value} {key : Bytes}
  {ranges : List LookupRange}

/-- Every key begins with a byte that can be raised. -/
theorem lookupAfter_encode (encoded : lookupEncode lookup row = .ok key) (bytes : Nat) :
    lookupAfter (key.take (indexPrefixBytes + bytes)) ≠ [] := by
  simp only [lookupEncode, bind_eq_ok, pure_eq_ok] at encoded
  obtain ⟨_, -, rfl⟩ := encoded
  rw [indexPrefix, indexPrefixBytes, Nat.add_assoc, Nat.add_comm, cons_append, take_succ_cons,
    lookupAfter_cons]
  split_ifs with none last
  · exact absurd last (by decide)
  · simp
  · simp

theorem lookupBindOne_spans {term : LookupTerm} {choice : Nat} {range : LookupRange}
    (bound : lookupBindOne lookup term choice parameters = .ok (some range)) :
    ∃ low high lower upper, lookupEncode lookup low = .ok lower ∧ lookupEncode lookup high = .ok upper ∧
      range = ⟨lower.take (indexPrefixBytes + term.boundBytes),
        lookupAfter (upper.take (indexPrefixBytes + term.boundBytes))⟩ := by
  unfold lookupBindOne at bound
  simp only [bind_eq_ok] at bound
  obtain ⟨_, -, values, -, bound⟩ := bound
  split_ifs at bound
  · cases bound
  · simp only [bind_eq_ok, pure_eq_ok, Option.some.injEq] at bound
    obtain ⟨key, encoded, rfl⟩ := bound
    exact ⟨_, _, key, key, encoded, encoded, rfl⟩
  · split at bound
    · simp only [bind_eq_ok] at bound
      obtain ⟨_, -, interval, -, bound⟩ := bound
      split at bound
      · cases bound
      · simp only [bind_eq_ok, pure_eq_ok, Option.some.injEq] at bound
        obtain ⟨lower, encoded, upper, encoded', rfl⟩ := bound
        exact ⟨_, _, lower, upper, encoded, encoded', rfl⟩
    · cases bound

theorem lookupRanges_bound (produced : lookupRanges lookup parameters = .ok ranges) :
    ∀ range ∈ ranges, ∃ term choice, lookupBindOne lookup term choice parameters = .ok (some range) := by
  simp only [lookupRanges, bind_eq_ok, pure_eq_ok, mapM_eq_ok] at produced
  obtain ⟨made, bound, rfl⟩ := produced
  intro range isRange
  obtain ⟨i, inside, isMade⟩ := getElem_of_mem (show some range ∈ made by simpa using isRange)
  exact ⟨_, _, (bound.get (bound.length_eq ▸ inside) inside).trans (congrArg _ isMade)⟩

theorem lookupRanges_upper (produced : lookupRanges lookup parameters = .ok ranges) :
    ∀ range ∈ ranges, range.upper ≠ [] := by
  intro range isRange
  obtain ⟨term, choice, bound⟩ := lookupRanges_bound produced range isRange
  obtain ⟨low, high, lower, upper, -, encoded, rfl⟩ := lookupBindOne_spans bound
  exact lookupAfter_encode encoded term.boundBytes

end Produced

section Merge

variable {ranges : List LookupRange} {range : LookupRange} {key : Bytes}

theorem lookupMergeOne_eq : lookupMergeOne = join := by
  funext merged current
  cases merged with
  | nil => rfl
  | cons previous merged =>
    simp only [lookupMergeOne, join, lookupCompare_eq, ne_eq, memcmp_gt_iff, not_lt]
    split_ifs with meets more
    · rw [max_eq_right more.le]
    · rw [max_eq_left (not_lt.mp more)]
    · rfl

/-- Without an upper bound a range holds every key from its lower one on. -/
def Holds (range : LookupRange) (key : Bytes) : Prop :=
  range.lower ≤ key ∧ (range.upper = [] ∨ key < range.upper)

theorem holds_iff (present : range.upper ≠ []) :
    Holds range key ↔ key ∈ Set.Ico range.lower range.upper := by
  simp [Holds, present]

theorem covers_iff (present : ∀ range ∈ ranges, range.upper ≠ []) :
    (∃ range ∈ ranges, Holds range key) ↔ Covers ranges key :=
  exists_congr fun range => and_congr_right fun isRange => holds_iff (present range isRange)

theorem lookupMerge_joined (present : ∀ range ∈ ranges, range.upper ≠ []) :
    Ranges.Joined (· ≠ []) (lookupMerge ranges).reverse ∧
      ∀ key, Covers (lookupMerge ranges) key ↔ Covers ranges key := by
  let sorted := ranges.mergeSort (·.lower ≤ ·.lower)
  have perm : sorted.Perm ranges := mergeSort_perm ..
  have merge : (lookupMerge ranges).reverse = sorted.foldl join [] := by
    simp only [lookupMerge, lookupMergeOne_eq, lookupRangeCompare, lookupCompare_eq, ne_eq,
      memcmp_gt_iff, not_lt, reverse_reverse, sorted]
  obtain ⟨joined, covers⟩ := foldl_join
    (pairwise_mergeSort' (fun a b : LookupRange => a.lower ≤ b.lower) ranges)
    (⟨.nil, .nil, by simp⟩ : Ranges.Joined (· ≠ []) []) (by simp)
    fun next isNext => present next (perm.mem_iff.mp isNext)
  refine ⟨merge ▸ joined, fun key => ?_⟩
  have all := covers key
  rw [← merge] at all
  simpa [Covers, perm.mem_iff] using all

end Merge

theorem lookupBind_exact (lookup : IndexLookup) (parameters : List Value)
    {ranges : List LookupRange} (produced : lookupRanges lookup parameters = .ok ranges) :
    (∃ merged, lookupBind lookup parameters = .ok merged ∧ merged.Pairwise (·.lower ≤ ·.lower) ∧
      merged.Pairwise (fun a b => ∀ key, ¬(Holds a key ∧ Holds b key)) ∧
      ∀ key, (∃ range ∈ merged, Holds range key) ↔ ∃ range ∈ ranges, Holds range key) ∧
    ∀ p, (lookupAfter p ≠ [] → IsLeast {bound | Ends p bound} (lookupAfter p)) ∧
      (lookupAfter p = [] ↔ ¬∃ bound, Ends p bound) := by
  refine ⟨⟨lookupMerge ranges, by rw [lookupBind, produced]; rfl, ?_⟩, fun p =>
    ⟨lookupAfter_least, lookupAfter_absent_iff⟩⟩
  have present := lookupRanges_upper produced
  obtain ⟨⟨sorted, apart, bounds⟩, covers⟩ := lookupMerge_joined present
  simp only [mem_reverse] at bounds
  rw [pairwise_reverse] at sorted apart
  refine ⟨sorted, ?_, fun key => ?_⟩
  · refine (apart.imp_of_mem fun isA isB less key both => ?_)
    rw [holds_iff (bounds _ isA), holds_iff (bounds _ isB)] at both
    exact lt_irrefl key ((both.1.2.trans less).trans_le both.2.1)
  · rw [covers_iff bounds, covers_iff present, covers]

/-- Two values of a list, of which the second is next to the first. -/
theorem lookupBind_exact_list :
    let probe (value : Int64) : LookupProbe := { value := .int64 value, present := true }
    let lookup : IndexLookup :=
      ⟨⟨⟨[105], [116], false, [⟨0, ⟨.int64, false⟩, false⟩]⟩, ⟨1, 1, 7, 1⟩⟩, 9, [],
        [⟨0, 0, 0, 2, 1, 9, .equal, true⟩], [probe 2, probe 1], [.null]⟩
    ∃ ranges merged, lookupRanges lookup [] = .ok ranges ∧ ranges.length = 2 ∧
      lookupBind lookup [] = .ok merged ∧
      ∀ key, (∃ range ∈ merged, Holds range key) ↔ ∃ range ∈ ranges, Holds range key := by
  intro probe lookup
  have produced : ∃ first second, lookupRanges lookup [] = .ok [first, second] := ⟨_, _, rfl⟩
  obtain ⟨first, second, produced⟩ := produced
  obtain ⟨⟨merged, bound, -, -, same⟩, -⟩ := lookupBind_exact lookup [] produced
  exact ⟨_, merged, produced, rfl, bound, same⟩

section Confined

variable {lookup : IndexLookup} {parameters : List Value} {range : LookupRange} {p l u key : Bytes}

abbrev IndexLookup.space (lookup : IndexLookup) : Bytes :=
  indexPrefix indexDataNs lookup.record.identity

theorem prefix_of_between (low : ¬key < p ++ l) (high : ¬p ++ u < key) : p <+: key := by
  induction p generalizing key with
  | nil => exact nil_prefix
  | cons byte p ih =>
    cases key with
    | nil => exact absurd (nil_lt_cons ..) low
    | cons first key =>
      rw [cons_append, cons_lt_cons_iff] at low high
      have same : byte = first := by grind
      subst same
      simp only [lt_self_iff_false, true_and, false_or] at low high
      exact (prefix_cons_inj _).mpr (ih low high)

theorem Holds.begins (present : lookupAfter (p ++ u) ≠ [])
    (holds : Holds ⟨p ++ l, lookupAfter (p ++ u)⟩ key) : p <+: key := by
  by_cases begins : p ++ u <+: key
  · exact (prefix_append p u).trans begins
  · have below : key < lookupAfter (p ++ u) := holds.2.resolve_left present
    exact prefix_of_between (not_lt.mpr holds.1) fun above =>
      (lookupAfter_ends present).2 key above begins below

theorem take_lookupEncode {row : List Value} (encoded : lookupEncode lookup row = .ok key) (bytes : Nat) :
    ∃ cells, key.take (indexPrefixBytes + bytes) = lookup.space ++ cells := by
  simp only [lookupEncode, bind_eq_ok, pure_eq_ok] at encoded
  obtain ⟨⟨tuple, null⟩, -, rfl⟩ := encoded
  have width : indexPrefixBytes = lookup.space.length := by simp [indexPrefix, indexPrefixBytes]
  exact ⟨tuple.take bytes, by rw [width, take_length_add_append]⟩

theorem lookupBindOne_begins {term : LookupTerm} {choice : Nat}
    (bound : lookupBindOne lookup term choice parameters = .ok (some range))
    (holds : Holds range key) : lookup.space <+: key := by
  obtain ⟨low, high, lower, upper, encoded, encoded', rfl⟩ := lookupBindOne_spans bound
  have present := lookupAfter_encode encoded' term.boundBytes
  obtain ⟨cells, low⟩ := take_lookupEncode encoded term.boundBytes
  obtain ⟨cells', high⟩ := take_lookupEncode encoded' term.boundBytes
  rw [high] at present holds
  rw [low] at holds
  exact holds.begins present

end Confined

/-- A lookup reads keys of its own index only. -/
theorem lookupBind_confined (lookup : IndexLookup) (parameters : List Value)
    {merged : List LookupRange} (bound : lookupBind lookup parameters = .ok merged) :
    ∀ range ∈ merged, ∀ key, Holds range key → lookup.space <+: key := by
  simp only [lookupBind, bind_eq_ok, pure_eq_ok] at bound
  obtain ⟨ranges, produced, rfl⟩ := bound
  have present := lookupRanges_upper produced
  obtain ⟨⟨-, -, bounds⟩, covers⟩ := lookupMerge_joined present
  simp only [mem_reverse] at bounds
  intro range isRange key holds
  obtain ⟨range, isRange, holds⟩ := (covers_iff present).mpr ((covers key).mp
    ((covers_iff bounds).mp ⟨range, isRange, holds⟩))
  obtain ⟨term, choice, bound⟩ := lookupRanges_bound produced range isRange
  exact lookupBindOne_begins bound holds

/-- Everything from 5 on under a descending part. -/
def descendingLookup : IndexLookup :=
  ⟨⟨⟨[105], [116], false, [⟨0, ⟨.int64, true⟩, true⟩]⟩, ⟨1, 1, 7, 1⟩⟩, 9,
    [{ lower := { value := .int64 5, present := true } }], [⟨0, 0, 0, 0, 0, 9, .range, false⟩], [],
    [.null]⟩

theorem lookupBind_confined_descending :
    ∃ merged, lookupBind descendingLookup [] = .ok merged ∧
      ∀ range ∈ merged, ∀ key, Holds range key → descendingLookup.space <+: key := by
  have bound : ∃ merged, lookupBind descendingLookup [] = .ok merged := ⟨_, rfl⟩
  obtain ⟨merged, bound⟩ := bound
  exact ⟨merged, bound, lookupBind_confined descendingLookup [] bound⟩

end TurboDb.Lookup
