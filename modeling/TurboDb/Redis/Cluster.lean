import Mathlib.Data.List.TakeWhile
import Mathlib.Tactic.ComputeDegree
import TurboDb.Library.Crc
import TurboDb.Redis.Apply
import TurboDb.Redis.ApplyBatch

/-!
The slot of a key in a cluster.

The slot is computed from the tag of a key, or from the whole key if it has none,
by a cyclic redundancy check that takes in a byte at a time. An entry of the table
is what eight single steps make of a byte at the upper end of the register.
-/

namespace TurboDb.Redis

open ByteOrder Crc Polynomial List

def clusterCrc16Table : List Nat :=
  [0x0000, 0x1021, 0x2042, 0x3063, 0x4084, 0x50a5, 0x60c6, 0x70e7, 0x8108, 0x9129, 0xa14a, 0xb16b,
    0xc18c, 0xd1ad, 0xe1ce, 0xf1ef, 0x1231, 0x0210, 0x3273, 0x2252, 0x52b5, 0x4294, 0x72f7, 0x62d6,
    0x9339, 0x8318, 0xb37b, 0xa35a, 0xd3bd, 0xc39c, 0xf3ff, 0xe3de, 0x2462, 0x3443, 0x0420, 0x1401,
    0x64e6, 0x74c7, 0x44a4, 0x5485, 0xa56a, 0xb54b, 0x8528, 0x9509, 0xe5ee, 0xf5cf, 0xc5ac, 0xd58d,
    0x3653, 0x2672, 0x1611, 0x0630, 0x76d7, 0x66f6, 0x5695, 0x46b4, 0xb75b, 0xa77a, 0x9719, 0x8738,
    0xf7df, 0xe7fe, 0xd79d, 0xc7bc, 0x48c4, 0x58e5, 0x6886, 0x78a7, 0x0840, 0x1861, 0x2802, 0x3823,
    0xc9cc, 0xd9ed, 0xe98e, 0xf9af, 0x8948, 0x9969, 0xa90a, 0xb92b, 0x5af5, 0x4ad4, 0x7ab7, 0x6a96,
    0x1a71, 0x0a50, 0x3a33, 0x2a12, 0xdbfd, 0xcbdc, 0xfbbf, 0xeb9e, 0x9b79, 0x8b58, 0xbb3b, 0xab1a,
    0x6ca6, 0x7c87, 0x4ce4, 0x5cc5, 0x2c22, 0x3c03, 0x0c60, 0x1c41, 0xedae, 0xfd8f, 0xcdec, 0xddcd,
    0xad2a, 0xbd0b, 0x8d68, 0x9d49, 0x7e97, 0x6eb6, 0x5ed5, 0x4ef4, 0x3e13, 0x2e32, 0x1e51, 0x0e70,
    0xff9f, 0xefbe, 0xdfdd, 0xcffc, 0xbf1b, 0xaf3a, 0x9f59, 0x8f78, 0x9188, 0x81a9, 0xb1ca, 0xa1eb,
    0xd10c, 0xc12d, 0xf14e, 0xe16f, 0x1080, 0x00a1, 0x30c2, 0x20e3, 0x5004, 0x4025, 0x7046, 0x6067,
    0x83b9, 0x9398, 0xa3fb, 0xb3da, 0xc33d, 0xd31c, 0xe37f, 0xf35e, 0x02b1, 0x1290, 0x22f3, 0x32d2,
    0x4235, 0x5214, 0x6277, 0x7256, 0xb5ea, 0xa5cb, 0x95a8, 0x8589, 0xf56e, 0xe54f, 0xd52c, 0xc50d,
    0x34e2, 0x24c3, 0x14a0, 0x0481, 0x7466, 0x6447, 0x5424, 0x4405, 0xa7db, 0xb7fa, 0x8799, 0x97b8,
    0xe75f, 0xf77e, 0xc71d, 0xd73c, 0x26d3, 0x36f2, 0x0691, 0x16b0, 0x6657, 0x7676, 0x4615, 0x5634,
    0xd94c, 0xc96d, 0xf90e, 0xe92f, 0x99c8, 0x89e9, 0xb98a, 0xa9ab, 0x5844, 0x4865, 0x7806, 0x6827,
    0x18c0, 0x08e1, 0x3882, 0x28a3, 0xcb7d, 0xdb5c, 0xeb3f, 0xfb1e, 0x8bf9, 0x9bd8, 0xabbb, 0xbb9a,
    0x4a75, 0x5a54, 0x6a37, 0x7a16, 0x0af1, 0x1ad0, 0x2ab3, 0x3a92, 0xfd2e, 0xed0f, 0xdd6c, 0xcd4d,
    0xbdaa, 0xad8b, 0x9de8, 0x8dc9, 0x7c26, 0x6c07, 0x5c64, 0x4c45, 0x3ca2, 0x2c83, 0x1ce0, 0x0cc1,
    0xef1f, 0xff3e, 0xcf5d, 0xdf7c, 0xaf9b, 0xbfba, 0x8fd9, 0x9ff8, 0x6e17, 0x7e36, 0x4e55, 0x5e74,
    0x2e93, 0x3eb2, 0x0ed1, 0x1ef0]

def clusterCrc16Byte (crc : Nat) (b : UInt8) : Nat :=
  (crc <<< 8 ^^^ clusterCrc16Table.getD ((crc >>> 8 ^^^ b.toNat) &&& 0xff) 0) % 2 ^ 16

def clusterCrc16 (data : Bytes) : Nat := data.foldl clusterCrc16Byte 0

def clusterKeyslot (key : Bytes) : Nat :=
  match key.dropWhile (· ≠ 123) with
  | [] => clusterCrc16 key &&& 0x3fff
  | _ :: rest =>
    let tag := rest.takeWhile (· ≠ 125)
    if tag.length < rest.length ∧ tag ≠ [] then clusterCrc16 tag &&& 0x3fff
    else clusterCrc16 key &&& 0x3fff

/-- The part lies between the first opening brace and the first closing one behind it. -/
def Between (key part : Bytes) : Prop :=
  ∃ before behind, key = before ++ 123 :: (part ++ 125 :: behind) ∧ 123 ∉ before ∧ 125 ∉ part

/-- The remainder of a string with a zero for each bit of the register, as a number of slots. -/
def IsSlot (part : Bytes) (slot : Nat) : Prop :=
  ∃ crc < 2 ^ 16, poly crc = (message part * X ^ 16) %ₘ (X ^ 16 + X ^ 12 + X ^ 5 + 1) ∧ slot = crc % 16384

theorem poly_divisor : poly 0x11021 = X ^ 16 + X ^ 12 + X ^ 5 + 1 := by
  have one : poly 1 = 1 := by simp [poly]
  rw [show 0x11021 = 1 <<< 16 ^^^ 1 <<< 12 ^^^ 1 <<< 5 ^^^ 1 from rfl, poly_xor, poly_xor, poly_xor,
    poly_shiftLeft, poly_shiftLeft, poly_shiftLeft, one, one_mul, one_mul, one_mul]

theorem clusterCrc16Table_eq : ∀ i < 256, clusterCrc16Table.getD i 0 = (shift 0x11021 16)^[8] (i <<< 8) ∧
    clusterCrc16Table.getD i 0 < 2 ^ 16 := by
  decide +kernel

/-- A byte is taken in as eight zero bits behind its exclusive or with the register. -/
theorem rest_clusterCrc16Byte {crc : Nat} (small : crc < 2 ^ 16) (b : UInt8) :
    rest 0x11021 (poly (clusterCrc16Byte crc b)) =
      rest 0x11021 (poly crc * X ^ 8 + poly b.toNat * X ^ 16) := by
  have index : (crc >>> 8 ^^^ b.toNat) < 2 ^ 8 :=
    Nat.xor_lt_two_pow (by rw [Nat.shiftRight_eq_div_pow]; omega) b.toNat_lt
  obtain ⟨entry, range⟩ := clusterCrc16Table_eq _ index
  rw [clusterCrc16Byte, show 0xff = 2 ^ 8 - 1 from rfl, Nat.and_two_pow_sub_one_eq_mod, Nat.mod_eq_of_lt index]
  refine rest_update range ?_
  rw [entry, rest_shifts, poly_shiftLeft, mul_assoc, ← pow_add]

theorem rest_clusterCrc16 (data : Bytes) : clusterCrc16 data < 2 ^ 16 ∧
    rest 0x11021 (poly (clusterCrc16 data)) = rest 0x11021 (message data * X ^ 16) := by
  induction data using reverseRecOn with
  | nil => exact ⟨by decide, by simp [clusterCrc16, message, poly]⟩
  | append_singleton data b ih =>
    have taken : clusterCrc16 (data ++ [b]) = clusterCrc16Byte (clusterCrc16 data) b := foldl_concat ..
    have longer : message (data ++ [b]) = message data * X ^ 8 + poly b.toNat := foldl_concat ..
    refine ⟨taken ▸ Nat.mod_lt _ (by decide), ?_⟩
    rw [taken, rest_clusterCrc16Byte ih.1, map_add, map_mul, ih.2, ← map_mul, ← map_add, longer]
    ring_nf

theorem isSlot_clusterCrc16 (data : Bytes) : IsSlot data (clusterCrc16 data &&& 0x3fff) := by
  obtain ⟨small, same⟩ := rest_clusterCrc16 data
  refine ⟨_, small, ?_, Nat.and_two_pow_sub_one_eq_mod _ 14⟩
  rw [← poly_divisor]
  refine poly_eq_modByMonic ?_ ?_ small same
  · rw [poly_divisor]
    monicity!
  · rw [poly_divisor]
    compute_degree!

section Tag

variable {key part : Bytes}

theorem passed {c : UInt8} {l : Bytes} (absent : c ∉ l) : ∀ a ∈ l, decide (a ≠ c) :=
  fun _ member => decide_eq_true fun same => absent (same ▸ member)

theorem cut_first {c : UInt8} {before behind : Bytes} (absent : c ∉ before) :
    (before ++ c :: behind).takeWhile (· ≠ c) = before ∧
      (before ++ c :: behind).dropWhile (· ≠ c) = c :: behind := by
  rw [takeWhile_append_of_pos (passed absent), dropWhile_append_of_pos (passed absent)]
  simp

/-- A key with both braces has the part between them for its tag, unless it is empty. -/
theorem Between.tag (between : Between key part) :
    luaApplyTag key = (if part = [] then none else some part) ∧
      clusterKeyslot key = clusterCrc16 (if part = [] then key else part) &&& 0x3fff := by
  obtain ⟨before, behind, rfl, first, second⟩ := between
  have closed : (part ++ 125 :: behind).takeWhile (· ≠ 125) = part := (cut_first second).1
  have longer : part ≠ part ++ 125 :: behind := by simp
  rw [luaApplyTag, clusterKeyslot, (cut_first first).2, drop_one, tail_cons]
  dsimp only
  rw [closed]
  by_cases empty : part = []
  · simp [empty]
  · simp [empty, longer]

theorem tag_cases (key : Bytes) : (luaApplyTag key = none ∧ clusterKeyslot key = clusterCrc16 key &&& 0x3fff) ∨
    ∃ part, Between key part := by
  by_cases opened : 123 ∈ key
  · obtain ⟨before, rest, rfl, first⟩ := eq_append_cons_of_mem opened
    by_cases closed : 125 ∈ rest
    · obtain ⟨part, behind, rfl, second⟩ := eq_append_cons_of_mem closed
      exact .inr ⟨part, before, behind, rfl, first, second⟩
    · have whole := takeWhile_eq_self_iff.mpr (passed closed)
      rw [luaApplyTag, clusterKeyslot, (cut_first first).2, drop_one, tail_cons]
      dsimp only
      rw [whole]
      simp
  · rw [luaApplyTag, clusterKeyslot, dropWhile_eq_nil_iff.mpr (passed opened)]
    exact .inl ⟨rfl, rfl⟩

/-- The tag that requests are checked for is the part that the slot is computed from. -/
theorem clusterKeyslot_tagged {tag : Bytes} (tagged : luaApplyTag key = some tag) :
    clusterKeyslot key = clusterCrc16 tag &&& 0x3fff := by
  rcases tag_cases key with ⟨untagged, -⟩ | ⟨part, between⟩
  · cases untagged.symm.trans tagged
  · obtain ⟨found, slot⟩ := between.tag
    rw [tagged] at found
    split at found
    · cases found
    · cases found
      rwa [if_neg ‹_›] at slot

end Tag

/-- The slot of a key is that of its tag, or its own, and all keys of an accepted request are in one slot. -/
theorem clusterKeyslot_correct :
    (∀ key part, Between key part → part ≠ [] → IsSlot part (clusterKeyslot key)) ∧
    (∀ key, (∀ part, Between key part → part = []) → IsSlot key (clusterKeyslot key)) ∧
    (∀ request : ApplyRequest, luaApplyValidate request = true →
      clusterKeyslot request.keys.state = clusterKeyslot request.keys.metadata ∧
      clusterKeyslot request.keys.outbox = clusterKeyslot request.keys.metadata) ∧
    ∀ request : BatchRequest, luaApplyBatchValidate request = true →
      clusterKeyslot request.keys.journal = clusterKeyslot request.keys.metadata ∧
      clusterKeyslot request.keys.identity = clusterKeyslot request.keys.metadata ∧
      clusterKeyslot request.keys.outbox = clusterKeyslot request.keys.metadata := by
  refine ⟨fun key part between given => ?_, fun key none => ?_, fun request valid => ?_, fun request valid => ?_⟩
  · rw [between.tag.2, if_neg given]
    exact isSlot_clusterCrc16 part
  · have whole : clusterKeyslot key = clusterCrc16 key &&& 0x3fff := by
      rcases tag_cases key with ⟨-, slot⟩ | ⟨part, between⟩
      · exact slot
      · rw [between.tag.2, if_pos (none part between)]
    rw [whole]
    exact isSlot_clusterCrc16 key
  · simp only [luaApplyValidate, ApplyKeys.tagged, Bool.and_eq_true] at valid
    have tagged := valid.2
    split at tagged
    · rename_i metadata state outbox
      simp only [Bool.and_eq_true, decide_eq_true_eq] at tagged
      obtain ⟨rfl, rfl⟩ := tagged
      rw [clusterKeyslot_tagged metadata, clusterKeyslot_tagged state, clusterKeyslot_tagged outbox]
      exact ⟨rfl, rfl⟩
    · cases tagged
  · simp only [luaApplyBatchValidate, BatchKeys.tagged, Bool.and_eq_true] at valid
    have tagged := valid.1.1.2
    split at tagged
    · rename_i metadata journal identity outbox
      simp only [Bool.and_eq_true, decide_eq_true_eq] at tagged
      obtain ⟨⟨rfl, rfl⟩, rfl⟩ := tagged
      rw [clusterKeyslot_tagged metadata, clusterKeyslot_tagged journal, clusterKeyslot_tagged identity,
        clusterKeyslot_tagged outbox]
      exact ⟨rfl, rfl, rfl⟩
    · cases tagged

end TurboDb.Redis
