import TurboDb.Redis.RespRoundTrip

/-!
The command that is sent for a list of arguments.

The size of a command is computed before any of it is written, each sum behind a
comparison with what is left of the limit, so that none leaves the range of the
machine. The reader of replies takes what is written for an array of bulk strings.
-/

namespace TurboDb.Redis

open ByteOrder Decimal List

def respDecimalDigits (value : Nat) : Nat :=
  if value < 10 then 1 else respDecimalDigits (value / 10) + 1

/-- The size of a command, checked argument by argument. -/
def respCommandTotal (maxCommandBytes : Nat) : Nat → List Bytes → Option Nat
  | total, [] => some total
  | total, argument :: rest =>
    let length := argument.length
    let framing := 1 + respDecimalDigits length + 2 + 2
    if maxCommandBytes < length ∨ maxCommandBytes - length < framing ∨
        maxCommandBytes - framing - length < total then none
    else respCommandTotal maxCommandBytes (total + (framing + length)) rest

def respArgument (argument : Bytes) : Bytes :=
  respLine 36 (numeral argument.length) ++ (argument ++ [13, 10])

def respCommandBuildBounded (argv : List Bytes) (maxCommandBytes : Nat) : Except Salts Bytes :=
  if argv = [] ∨ maxCommandBytes = 0 then .error .einval
  else
    let total := 1 + respDecimalDigits argv.length + 2
    if maxCommandBytes < total then .error .enobufs
    else
      match respCommandTotal maxCommandBytes total argv with
      | none => .error .enobufs
      | some _ => .ok (respLine 42 (numeral argv.length) ++ (argv.map respArgument).flatten)

/-- The sums that the check of the size takes behind the arguments before, in their order. -/
def respCommandSums (maxCommandBytes : Nat) : Nat → List Bytes → List Nat
  | _, [] => []
  | total, argument :: rest =>
    let length := argument.length
    let framing := 1 + respDecimalDigits length + 2 + 2
    if maxCommandBytes < length ∨ maxCommandBytes - length < framing ∨
        maxCommandBytes - framing - length < total then [framing]
    else
      let size := framing + length
      framing :: size :: (total + size) :: respCommandSums maxCommandBytes (total + size) rest

section Command

variable {maxCommandBytes : Nat} {argv : List Bytes} {command : Bytes}

theorem respDecimalDigits_eq (n : Nat) : respDecimalDigits n = (numeral n).length := by
  induction n using Nat.strongRecOn with
  | ind n ih =>
    rw [respDecimalDigits]
    split
    · rename_i small
      rw [numeral_of_lt small, length_singleton]
    · rw [numeral_of_le (by omega), ih (n / 10) (by omega), length_append, length_singleton]

theorem length_respArgument (argument : Bytes) : (respArgument argument).length =
    1 + respDecimalDigits argument.length + 2 + 2 + argument.length := by
  simp only [respArgument, respLine, respDecimalDigits_eq, length_append, length_cons,
    length_nil]
  omega

theorem respCommandTotal_eq_some {total size : Nat} (le : total ≤ maxCommandBytes) :
    respCommandTotal maxCommandBytes total argv = some size ↔
      size = total + (argv.map respArgument).flatten.length ∧ size ≤ maxCommandBytes := by
  induction argv generalizing total with
  | nil =>
    simp only [respCommandTotal, map_nil, flatten_nil, length_nil, Option.some.injEq]
    omega
  | cons argument rest ih =>
    rw [respCommandTotal, map_cons, flatten_cons, length_append, length_respArgument]
    split
    · simp only [reduceCtorEq, false_iff]
      omega
    · rw [ih (by omega), Nat.add_assoc]

def respCommandText (argv : List Bytes) : Bytes :=
  respLine 42 (numeral argv.length) ++ (argv.map respArgument).flatten

theorem length_respCommandText (argv : List Bytes) : (respCommandText argv).length =
    1 + respDecimalDigits argv.length + 2 + (argv.map respArgument).flatten.length := by
  simp only [respCommandText, respLine, respDecimalDigits_eq, length_append, length_cons,
    length_nil]
  omega

/-- A command is built exactly if it has an argument and its text is within the limit. -/
theorem respCommandBuildBounded_eq_ok : respCommandBuildBounded argv maxCommandBytes = .ok command ↔
    argv ≠ [] ∧ command = respCommandText argv ∧ command.length ≤ maxCommandBytes := by
  have length := length_respCommandText argv
  rw [respCommandBuildBounded]
  by_cases invalid : argv = [] ∨ maxCommandBytes = 0
  · rw [if_pos invalid]
    simp only [reduceCtorEq, false_iff]
    rintro ⟨given, rfl, le⟩
    rcases invalid with empty | zero
    · exact given empty
    · omega
  rw [if_neg invalid]
  rw [not_or] at invalid
  dsimp only
  split
  · simp only [reduceCtorEq, false_iff]
    rintro ⟨-, rfl, le⟩
    omega
  have total (size : Nat) : respCommandTotal maxCommandBytes _ argv = some size ↔ _ :=
    respCommandTotal_eq_some (Nat.le_of_not_lt ‹_›)
  split
  · rename_i refused
    simp only [reduceCtorEq, false_iff]
    rintro ⟨-, rfl, le⟩
    cases refused.symm.trans ((total _).mpr ⟨rfl, by omega⟩)
  · rename_i size checked
    obtain ⟨rfl, le⟩ := (total size).mp checked
    rw [Except.ok.injEq, ← respCommandText]
    constructor
    · rintro rfl
      exact ⟨invalid.1, rfl, by omega⟩
    · exact fun built => built.2.1.symm

variable {limit : Nat}

theorem respDecimalDigits_le {n : Nat} (range : n ≤ sizeMax) : respDecimalDigits n ≤ 20 := by
  rw [respDecimalDigits_eq, length_numeral_le_iff (by decide)]
  rw [sizeMax] at range
  omega

theorem respCommandSums_le (range : limit ≤ sizeMax) (sizes : ∀ argument ∈ argv, argument.length ≤ sizeMax)
    {total : Nat} : ∀ sum ∈ respCommandSums limit total argv, sum ≤ sizeMax := by
  induction argv generalizing total with
  | nil => nofun
  | cons argument rest ih =>
    rw [forall_mem_cons] at sizes
    have framing : 1 + respDecimalDigits argument.length + 2 + 2 ≤ sizeMax := by
      have digits := respDecimalDigits_le sizes.1
      have : 25 ≤ sizeMax := by decide
      omega
    rw [respCommandSums]
    split
    · exact forall_mem_singleton.mpr framing
    · simp only [forall_mem_cons]
      exact ⟨framing, by omega, by omega, ih sizes.2⟩

theorem respCommandText_encodes (argv : List Bytes) :
    (Reply.array (argv.map .bulkString)).Encodes (respCommandText argv) := by
  have encodes : Reply.Encodes (.array ((argv.map fun argument =>
      (Reply.bulkString argument, respArgument argument)).map Prod.fst)) _ := .array (by
    intro element member
    obtain ⟨argument, -, rfl⟩ := mem_map.mp member
    exact .bulkString argument)
  rwa [map_map, map_map, length_map] at encodes

theorem depth_bulkStrings (argv : List Bytes) : (Reply.array (argv.map .bulkString)).depth ≤ 1 := by
  have flat (rest : List Bytes) : Reply.depthAll (rest.map .bulkString) = 0 := by
    induction rest with
    | nil => rfl
    | cons argument rest ih => simp only [map_cons, Reply.depthAll, ih, Reply.depth, Nat.max_self]
  cases argv with
  | nil => exact Nat.zero_le 1
  | cons argument rest => simp [Reply.depth, flat]

/-- A command with arguments is built exactly if its encoding is within the limit, no sum
leaves the range of sizes, and the command is read back as its arguments. -/
theorem respCommand_read_back (given : argv ≠ []) (sizes : ∀ argument ∈ argv, argument.length ≤ sizeMax)
    (count : argv.length ≤ intMax) (limit : Nat) (range : limit ≤ sizeMax) :
    let reply := Reply.array (argv.map .bulkString)
    let header := 1 + respDecimalDigits argv.length + 2
    ∃ bytes, reply.Encodes bytes ∧
      (∀ command, respCommandBuildBounded argv limit = .ok command ↔
        bytes.length ≤ limit ∧ command = bytes) ∧
      (∀ sum ∈ header :: respCommandSums limit header argv, sum ≤ sizeMax) ∧
      ∀ limits : ReplyLimits, limits.ownerBytes + reply.cost ≤ limits.maxReplyBytes →
        bytes.length ≤ intMax →
        replyReaderNextBuffer limits bytes none =
          .done (reply, limits.ownerBytes + reply.cost) bytes.length := by
  intro reply header
  have encodes := respCommandText_encodes argv
  refine ⟨_, encodes, fun command => ?_, ?_, fun limits cost length => ?_⟩
  · rw [respCommandBuildBounded_eq_ok]
    constructor
    · rintro ⟨-, rfl, le⟩
      exact ⟨le, rfl⟩
    · rintro ⟨le, rfl⟩
      exact ⟨given, rfl, le⟩
  · have digits := respDecimalDigits_le (count.trans (by decide))
    have : 23 ≤ sizeMax := by decide
    exact forall_mem_cons.mpr ⟨by omega, respCommandSums_le range sizes⟩
  · have depth : 0 + reply.depth ≤ respMaxDepth := by
      rw [Nat.zero_add]
      exact Nat.le_trans (depth_bulkStrings argv) (by decide)
    conv_lhs => rw [← append_nil (respCommandText argv)]
    refine (replyReaderNextBuffer_encodes encodes).resolve_right fun failed => failed.2 ?_
    exact ⟨depth, cost, by rwa [Nat.zero_add]⟩

/-- There is no command without arguments, although its encoding has four bytes. -/
theorem respCommand_empty : respCommandBuildBounded [] 4 = .error .einval ∧
    (Reply.array []).Encodes (respCommandText []) ∧ (respCommandText []).length ≤ 4 :=
  ⟨rfl, respCommandText_encodes [], by decide⟩

theorem respCommand_read_back_get :
    let argv := [ascii "GET", [13, 10, 0]]
    argv ≠ [] ∧ (∀ argument ∈ argv, argument.length ≤ sizeMax) ∧ argv.length ≤ intMax ∧ 64 ≤ sizeMax ∧
      ∃ bytes, (Reply.array (argv.map .bulkString)).Encodes bytes ∧
        ∀ command, respCommandBuildBounded argv 64 = .ok command ↔ bytes.length ≤ 64 ∧ command = bytes := by
  intro argv
  have given : argv ≠ [] := cons_ne_nil _ _
  have sizes : ∀ argument ∈ argv, argument.length ≤ sizeMax := by decide
  obtain ⟨bytes, encodes, built, -⟩ := respCommand_read_back given sizes (by decide) 64 (by decide)
  exact ⟨given, sizes, by decide, by decide, bytes, encodes, built⟩

end Command

end TurboDb.Redis
