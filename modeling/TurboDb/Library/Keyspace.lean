import Mathlib.Data.List.AList
import Mathlib.Data.Prod.Lex
import TurboDb.Library.Decimal
import TurboDb.Library.Effect

/-!
The part of a Redis keyspace that scripts work on.

Every key holds a value of one type or is missing. A hash goes with its last
field. The events of a stream are ordered by identifier, none beyond the last one
given out. A script runs alone; a command on a key of another type is refused, and
ends the script without undoing what it wrote before.

No other error of a command is taken to occur: the server has memory, accepts writes,
holds every key itself, permits every command and stops no script.
-/

namespace Keyspace

open ByteOrder Decimal Effect List

/-- Milliseconds and a sequence number. -/
abbrev StreamId := ℕ ×ₗ ℕ

structure Event where
  id : StreamId
  fields : List Bytes

abbrev Fields := AList fun _ : Bytes => Bytes

structure Hash where
  fields : Fields
  nonempty : fields ≠ ∅

structure Stream where
  events : List Event
  last : StreamId
  ordered : events.Pairwise fun a b => a.id < b.id
  bounded : ∀ e ∈ events, e.id ≤ last

inductive Entry
  | string (value : Bytes)
  | list (items : List Bytes)
  | set (members : List Bytes)
  | zset (members : List (Bytes × Bytes))
  | hash (hash : Hash)
  | stream (stream : Stream)

inductive Kind
  | none | string | list | set | zset | hash | stream
  deriving DecidableEq, Repr

def Entry.kind : Entry → Kind
  | .string _ => .string
  | .list _ => .list
  | .set _ => .set
  | .zset _ => .zset
  | .hash _ => .hash
  | .stream _ => .stream

abbrev Keys := Bytes → Option Entry

inductive Fault
  | wrongType | invalidId | smallId | exhausted
  | script (message : String)
  deriving DecidableEq, Repr

abbrev Script := EStateM Fault Keys

def Keys.kind (s : Keys) (key : Bytes) : Kind := ((s key).map Entry.kind).getD .none

def Keys.fields (s : Keys) (key : Bytes) : Option Fields :=
  match s key with
  | none => some ∅
  | some (.hash h) => some h.fields
  | some _ => none

def Stream.empty : Stream where
  events := []
  last := toLex (0, 0)
  ordered := .nil
  bounded := nofun

def Keys.stream (s : Keys) (key : Bytes) : Option Stream :=
  match s key with
  | none => some .empty
  | some (.stream stream) => some stream
  | some _ => none

def Keys.putFields (s : Keys) (key : Bytes) (fields : Fields) : Keys :=
  Function.update s key (if h : fields = ∅ then none else some (.hash ⟨fields, h⟩))

def Keys.putStream (s : Keys) (key : Bytes) (stream : Stream) : Keys :=
  Function.update s key (some (.stream stream))

def Stream.append (stream : Stream) (id : StreamId) (fields : List Bytes) (h : stream.last < id) :
    Stream where
  events := stream.events ++ [⟨id, fields⟩]
  last := id
  ordered := by
    refine pairwise_append.mpr ⟨stream.ordered, pairwise_singleton _ _, ?_⟩
    intro a ha b hb
    rw [mem_singleton] at hb
    exact hb ▸ lt_of_le_of_lt (stream.bounded a ha) h
  bounded := by
    intro e he
    rw [mem_append, mem_singleton] at he
    cases he with
    | inl he => exact le_of_lt (lt_of_le_of_lt (stream.bounded e he) h)
    | inr he => exact he ▸ le_refl _

section Commands

variable (key : Bytes)

def type : Script Kind := do return (← get).kind key

def hashFields : Script Fields := do given ((← get).fields key) .wrongType

def streamAt : Script Stream := do given ((← get).stream key) .wrongType

def hget (field : Bytes) : Script (Option Bytes) := do
  return (← hashFields key).lookup field

def hset (pairs : List (Bytes × Bytes)) : Script Unit := do
  let fields ← hashFields key
  modify (·.putFields key (pairs.foldl (fun fields (f, v) => fields.insert f v) fields))

def hdel (names : List Bytes) : Script Unit := do
  let fields ← hashFields key
  modify (·.putFields key (names.foldl (fun fields f => fields.erase f) fields))

/-- A complete identifier, as in `5-0`. -/
def readId (text : Bytes) : Script StreamId := do
  let ms := text.takeWhile (· ≠ 45)
  let seq := (text.dropWhile (· ≠ 45)).drop 1
  reject (!(canonical ms && canonical seq) ∨ 2 ^ 64 ≤ value ms ∨ 2 ^ 64 ≤ value seq) .invalidId
  return toLex (value ms, value seq)

def writeId (id : StreamId) : Bytes := numeral (ofLex id).1 ++ 45 :: numeral (ofLex id).2

def append (stream : Stream) (id : StreamId) (fields : List Bytes) : Script Unit :=
  if h : stream.last < id then
    modify (·.putStream key (stream.append id fields h))
  else throw .smallId

def xadd (text : Bytes) (fields : List Bytes) : Script Unit := do
  let id ← readId text
  append key (← streamAt key) id fields

def nextId (last : StreamId) (now : Nat) : StreamId :=
  if (ofLex last).1 < now then toLex (now, 0)
  else if (ofLex last).2 = 2 ^ 64 - 1 then toLex ((ofLex last).1 + 1, 0)
  else toLex ((ofLex last).1, (ofLex last).2 + 1)

def xaddNow (now : Nat) (fields : List Bytes) : Script Unit := do
  let stream ← streamAt key
  reject (stream.last = toLex (2 ^ 64 - 1, 2 ^ 64 - 1)) .exhausted
  append key stream (nextId stream.last now) fields

def xrange (first last : Bytes) : Script (List (Bytes × List Bytes)) := do
  let first ← readId first
  let last ← readId last
  let stream ← streamAt key
  return (stream.events.filter fun e => first ≤ e.id ∧ e.id ≤ last).map fun e =>
    (writeId e.id, e.fields)

end Commands

def Keys.field (s : Keys) (key name : Bytes) : Option Bytes :=
  (s.fields key).bind (AList.lookup name)

def Keys.put (s : Keys) (key name value : Bytes) : Keys :=
  s.putFields key (((s.fields key).getD ∅).insert name value)

def Keys.cut (s : Keys) (key : Bytes) (names : List Bytes) : Keys :=
  s.putFields key (names.foldl (fun fields name => fields.erase name) ((s.fields key).getD ∅))

section Rules

variable {s : Keys} {key other name : Bytes} {fields : Fields} {stream : Stream}
variable {value : Bytes} {pairs : List (Bytes × Bytes)} {names : List Bytes} {n : Nat}
  {values : List Bytes}

theorem isSome_fields : (s.fields key).isSome ↔ s.kind key = .none ∨ s.kind key = .hash := by
  rw [Keys.fields, Keys.kind]
  cases s key with
  | none => simp
  | some entry => cases entry <;> simp [Entry.kind]

theorem isSome_stream :
    (s.stream key).isSome ↔ s.kind key = .none ∨ s.kind key = .stream := by
  rw [Keys.stream, Keys.kind]
  cases s key with
  | none => simp
  | some entry => cases entry <;> simp [Entry.kind]

theorem fields_putFields : (s.putFields key fields).fields key = some fields := by
  by_cases h : fields = ∅ <;> simp [Keys.fields, Keys.putFields, h]

theorem putFields_of_ne (h : other ≠ key) : s.putFields key fields other = s other :=
  Function.update_of_ne h _ _

theorem fields_putFields_of_ne (h : other ≠ key) :
    (s.putFields key fields).fields other = s.fields other := by
  rw [Keys.fields, Keys.fields, putFields_of_ne h]

theorem stream_putFields_of_ne (h : other ≠ key) :
    (s.putFields key fields).stream other = s.stream other := by
  rw [Keys.stream, Keys.stream, putFields_of_ne h]

theorem field_putFields :
    (s.putFields key fields).field other name =
      if other = key then fields.lookup name else s.field other name := by
  split
  · rename_i same
    rw [same, Keys.field, fields_putFields, Option.bind_some]
  · rename_i ne
    rw [Keys.field, Keys.field, fields_putFields_of_ne ne]

theorem type_run : type key s = .ok (s.kind key) s := rfl

theorem hashFields_run (h : s.fields key = some fields) : hashFields key s = .ok fields s := by
  rw [hashFields, run_bind_ok run_get, h, run_given]

theorem hashFields_fault (h : s.fields key = none) : hashFields key s = .error .wrongType s := by
  rw [hashFields, run_bind_ok run_get, h, run_given_none]

theorem hget_run (h : (s.fields key).isSome) :
    hget key name s = .ok (s.field key name) s := by
  obtain ⟨fields, found⟩ := Option.isSome_iff_exists.mp h
  rw [hget, run_bind_ok (hashFields_run found), Keys.field, found, run_pure, Option.bind_some]

theorem hget_fault (h : s.fields key = none) : hget key name s = .error .wrongType s := by
  rw [hget, run_bind_error (hashFields_fault h)]

theorem putFields_self (h : s.fields key = some fields) : s.putFields key fields = s := by
  rw [Keys.putFields, Function.update_eq_self_iff]
  rw [Keys.fields] at h
  split at h
  · simp_all
  · rename_i hash found
    obtain rfl := Option.some.inj h
    rw [dif_neg hash.nonempty, found]
  · cases h

theorem putFields_put : (s.put key name value).putFields key fields = s.putFields key fields := by
  rw [Keys.put, Keys.putFields, Keys.putFields, Function.update_idem, Keys.putFields]

theorem hset_run (h : (s.fields key).isSome) :
    hset key pairs s = .ok () (pairs.foldl (fun s pair => s.put key pair.1 pair.2) s) := by
  obtain ⟨fields, found⟩ := Option.isSome_iff_exists.mp h
  rw [hset, run_bind_ok (hashFields_run found), run_modify]
  congr 1
  clear h
  induction pairs generalizing s fields with
  | nil => exact putFields_self found
  | cons pair rest ih =>
    have written : (s.put key pair.1 pair.2).fields key = some (fields.insert pair.1 pair.2) := by
      rw [Keys.put, fields_putFields, found, Option.getD_some]
    rw [foldl_cons, foldl_cons, ← ih _ written, putFields_put]

theorem hset_fault (h : s.fields key = none) : hset key pairs s = .error .wrongType s := by
  rw [hset, run_bind, hashFields_fault h]

theorem hdel_run (h : (s.fields key).isSome) :
    hdel key names s = .ok () (s.cut key names) := by
  obtain ⟨fields, found⟩ := Option.isSome_iff_exists.mp h
  rw [hdel, run_bind_ok (hashFields_run found), run_modify, Keys.cut, found, Option.getD_some]

theorem lookup_foldl_erase :
    (names.foldl (fun fields name => fields.erase name) fields).lookup name =
      if name ∈ names then none else fields.lookup name := by
  induction names generalizing fields with
  | nil => simp
  | cons head tail ih =>
    rw [foldl_cons, ih]
    by_cases same : name = head
    · subst same
      simp
    · simp [same, AList.lookup_erase_ne same]

theorem lookup_getD_fields : ((s.fields key).getD ∅).lookup name = s.field key name := by
  rw [Keys.field]
  cases s.fields key <;> rfl

theorem field_put {name' : Bytes} : (s.put key name value).field other name' =
      if other = key ∧ name' = name then some value else s.field other name' := by
  rw [Keys.put, field_putFields]
  by_cases same : other = key
  · subst same
    by_cases sameName : name' = name
    · subst sameName
      simp
    · simp [sameName, AList.lookup_insert_ne, lookup_getD_fields]
  · simp [same]

theorem isSome_fields_put (h : (s.fields other).isSome) :
    ((s.put key name value).fields other).isSome := by
  by_cases same : other = key
  · rw [same, Keys.put, fields_putFields]
    rfl
  · rw [Keys.put, fields_putFields_of_ne same]
    exact h

theorem stream_put (h : other ≠ key) : (s.put key name value).stream other = s.stream other :=
  stream_putFields_of_ne h

theorem field_puts : (pairs.foldl (fun s pair => s.put key pair.1 pair.2) s).field other name =
      if other = key then (pairs.reverse.lookup name).or (s.field other name)
      else s.field other name := by
  induction pairs generalizing s with
  | nil => simp
  | cons pair rest ih =>
    obtain ⟨first, value⟩ := pair
    rw [foldl_cons, ih, field_put, reverse_cons, lookup_append]
    by_cases same : other = key
    · by_cases here : name = first
      · simp [same, here]
      · simp [same, here, lookup_cons, beq_false_of_ne here]
    · simp [same]

theorem isSome_fields_puts (h : (s.fields other).isSome) :
    ((pairs.foldl (fun s pair => s.put key pair.1 pair.2) s).fields other).isSome := by
  induction pairs generalizing s with
  | nil => exact h
  | cons pair rest ih => exact ih (isSome_fields_put h)

theorem stream_puts (h : other ≠ key) :
    (pairs.foldl (fun s pair => s.put key pair.1 pair.2) s).stream other = s.stream other := by
  induction pairs generalizing s with
  | nil => rfl
  | cons pair rest ih => exact ih.trans (stream_put h)

theorem field_cut : (s.cut key names).field other name =
      if other = key ∧ name ∈ names then none else s.field other name := by
  rw [Keys.cut, field_putFields, lookup_foldl_erase]
  by_cases same : other = key
  · subst same
    simp [lookup_getD_fields]
  · simp [same]

theorem isSome_fields_cut (h : (s.fields other).isSome) :
    ((s.cut key names).fields other).isSome := by
  by_cases same : other = key
  · rw [same, Keys.cut, fields_putFields]
    rfl
  · rw [Keys.cut, fields_putFields_of_ne same]
    exact h

theorem stream_cut (h : other ≠ key) : (s.cut key names).stream other = s.stream other :=
  stream_putFields_of_ne h

theorem stream_putStream : (s.putStream key stream).stream key = some stream := by
  simp [Keys.stream, Keys.putStream]

theorem fields_putStream_self : (s.putStream key stream).fields key = none := by
  simp [Keys.fields, Keys.putStream]

theorem stream_of_field (h : (s.field key name).isSome) : s.stream key = none := by
  rw [Keys.field, Keys.fields] at h
  rw [Keys.stream]
  cases found : s key with
  | none =>
    rw [found] at h
    cases h
  | some entry =>
    cases entry with
    | stream stream =>
      rw [found] at h
      cases h
    | _ => rfl

theorem fields_putStream (h : other ≠ key) :
    (s.putStream key stream).fields other = s.fields other := by
  rw [Keys.fields, Keys.fields, Keys.putStream, Function.update_of_ne h]

theorem field_putStream (h : other ≠ key) :
    (s.putStream key stream).field other name = s.field other name := by
  rw [Keys.field, Keys.field, fields_putStream h]

theorem readId_numeral (h : n < 2 ^ 64) :
    readId (numeral n ++ [45, 48]) s = .ok (toLex (n, 0)) s := by
  have digits : ∀ b ∈ numeral n, decide (b ≠ 45) := ne_of_mem_numeral rfl
  have ms : (numeral n ++ [45, 48]).takeWhile (· ≠ 45) = numeral n := by
    rw [takeWhile_append_of_pos digits]
    simp
  have seq : ((numeral n ++ [45, 48]).dropWhile (· ≠ 45)).drop 1 = [48] := by
    rw [dropWhile_append_of_pos digits]
    simp
  have valid : ¬ ((!(canonical (numeral n) && canonical [48])) = true ∨ 2 ^ 64 ≤ value (numeral n) ∨
      2 ^ 64 ≤ value [48]) := by
    have single : canonical [48] := rfl
    have zero : value [48] = 0 := rfl
    rw [canonical_numeral, single, value_numeral, zero]
    simpa using h
  simp only [readId, ms, seq]
  rw [run_bind_ok (run_reject valid), run_pure, value_numeral]
  rfl

theorem streamAt_run (h : s.stream key = some stream) : streamAt key s = .ok stream s := by
  rw [streamAt, run_bind_ok run_get, h, run_given]

theorem xadd_run (h : n < 2 ^ 64) (found : s.stream key = some stream)
    (later : stream.last < toLex (n, 0)) :
    xadd key (numeral n ++ [45, 48]) values s =
      .ok () (s.putStream key (stream.append (toLex (n, 0)) values later)) := by
  rw [xadd, run_bind_ok (readId_numeral h), run_bind_ok (streamAt_run found), append, dif_pos later,
    run_modify]

theorem xadd_fault (h : n < 2 ^ 64) (found : s.stream key = none) :
    xadd key (numeral n ++ [45, 48]) values s = .error .wrongType s := by
  rw [xadd, run_bind_ok (readId_numeral h), streamAt, run_bind, run_bind_ok run_get, found,
    run_given_none]

theorem lt_nextId (last : StreamId) (now : Nat) : last < nextId last now := by
  rw [nextId]
  split
  · rename_i later
    exact Prod.Lex.lt_iff.mpr (.inl later)
  · split
    · exact Prod.Lex.lt_iff.mpr (.inl (Nat.lt_succ_self _))
    · exact Prod.Lex.lt_iff.mpr (.inr ⟨rfl, Nat.lt_succ_self _⟩)

theorem xaddNow_run {now : Nat} (found : s.stream key = some stream)
    (room : stream.last ≠ toLex (2 ^ 64 - 1, 2 ^ 64 - 1)) :
    xaddNow key now values s =
      .ok () (s.putStream key (stream.append (nextId stream.last now) values (lt_nextId _ _))) := by
  rw [xaddNow, run_bind_ok (streamAt_run found), run_bind_ok (run_reject room), append,
    dif_pos (lt_nextId _ _), run_modify]

theorem xaddNow_fault {now : Nat}
    (h : ∀ stream, s.stream key = some stream → stream.last = toLex (2 ^ 64 - 1, 2 ^ 64 - 1)) :
    ∃ fault, xaddNow key now values s = .error fault s := by
  cases found : s.stream key with
  | none =>
    refine ⟨.wrongType, run_bind_error ?_⟩
    rw [streamAt, run_bind_ok run_get, found, run_given_none]
  | some stream =>
    refine ⟨.exhausted, (run_bind_ok (streamAt_run found)).trans (run_bind_error ?_)⟩
    rw [reject, if_pos (h stream found), run_throw]

theorem xrange_run (h : n < 2 ^ 64) (found : s.stream key = some stream) :
    xrange key (numeral n ++ [45, 48]) (numeral n ++ [45, 48]) s =
      .ok ((stream.events.filter fun e => e.id = toLex (n, 0)).map fun e =>
        (writeId e.id, e.fields)) s := by
  rw [xrange, run_bind_ok (readId_numeral h), run_bind_ok (readId_numeral h),
    run_bind_ok (streamAt_run found), run_pure]
  congr 3
  funext e
  rw [decide_eq_decide]
  exact ⟨fun both => le_antisymm both.2 both.1, fun same => ⟨same.ge, same.le⟩⟩

end Rules

end Keyspace
