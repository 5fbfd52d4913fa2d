import TurboDb.Budget.Ledger
import TurboDb.Library.Wildcard
import TurboDb.Value

/-!
The LIKE matcher.

Positions in text and pattern are the bytes from there on, so that cursor and
input, and the position behind the last `%` with the retry beside it, are four byte
strings. Every round of the loop reserves one execution step first.
-/

namespace TurboDb

open ByteOrder Effect Wildcard Budget

def likeFold (ch : UInt8) (insensitive : Bool) : UInt8 :=
  if insensitive ∧ 'A'.toUInt8 ≤ ch ∧ ch ≤ 'Z'.toUInt8 then ch + ('a'.toUInt8 - 'A'.toUInt8)
  else ch

structure LikeState where
  input : Bytes
  cursor : Bytes
  star : Option (Bytes × Bytes)

section Match

variable (escape : Option UInt8) (insensitive : Bool)

/-- The token at a byte, whether it was escaped, and the pattern behind it. -/
def likeToken (token : UInt8) (cursor : Bytes) : UInt8 × Bool × Bytes :=
  match decide (some token = escape), cursor with
  | true, next :: cursor => (next, true, cursor)
  | escaped, cursor => (token, escaped, cursor)

/-- The last `%` takes one byte more, or there is no match. -/
def likeRetry (star : Option (Bytes × Bytes)) : Option LikeState :=
  match star with
  | some (pattern, _ :: retry) => some ⟨retry, pattern, some (pattern, retry)⟩
  | _ => none

/-- One round of the loop: the state it continues with, or no match. -/
def likeRound (s : LikeState) : Option LikeState :=
  match s.cursor with
  | [] => likeRetry s.star
  | token :: cursor =>
    let (token, escaped, cursor) := likeToken escape token cursor
    if !escaped && token == '%'.toUInt8 then some ⟨s.input, cursor, some (cursor, s.input)⟩
    else match s.input with
      | [] => likeRetry s.star
      | ch :: input =>
        if (!escaped && token == '_'.toUInt8) ||
            likeFold token insensitive == likeFold ch insensitive
        then some ⟨input, cursor, s.star⟩ else likeRetry s.star

def LikeState.ahead (s : LikeState) : Nat :=
  max s.input.length ((s.star.map fun star => star.2.length).getD 0)

theorem likeToken_length (token : UInt8) (cursor : Bytes) :
    (likeToken escape token cursor).2.2.length ≤ cursor.length := by
  unfold likeToken
  split <;> simp

theorem likeRetry_ahead {star : Option (Bytes × Bytes)} {s t : LikeState} (same : s.star = star)
    (retried : likeRetry star = some t) : t.ahead < s.ahead := by
  match star, retried with
  | some (_, _ :: _), rfl => simp [LikeState.ahead, same]

/-- A round that goes on has less text ahead, or less of the pattern. -/
theorem likeRound_decreases {s t : LikeState} (next : likeRound escape insensitive s = some t) :
    Prod.Lex (· < ·) (· < ·) (t.ahead, t.cursor.length) (s.ahead, s.cursor.length) := by
  unfold likeRound at next
  split at next
  · exact .left _ _ (likeRetry_ahead rfl next)
  · rename_i token cursor pattern
    have shorter := likeToken_length escape token cursor
    generalize likeToken escape token cursor = read at next shorter
    obtain ⟨token, escaped, rest⟩ := read
    dsimp only at next shorter
    split_ifs at next
    · obtain rfl := Option.some.inj next
      rw [Prod.lex_iff, pattern]
      simp only [LikeState.ahead, List.length_cons, Option.map_some, Option.getD_some]
      omega
    · split at next
      · exact .left _ _ (likeRetry_ahead rfl next)
      · rename_i text
        split_ifs at next
        · obtain rfl := Option.some.inj next
          rw [Prod.lex_iff, pattern]
          simp only [LikeState.ahead, text, List.length_cons]
          omega
        · exact .left _ _ (likeRetry_ahead rfl next)

def likeReserve : BudgetM Unit := reserve true (some (.single .executionSteps 1))

def likeSteps : Nat → BudgetM Unit
  | 0 => pure ()
  | steps + 1 => do
    likeReserve
    likeSteps steps

def likeLoop (s : LikeState) : BudgetM Bool :=
  if s.input = [] ∧ s.cursor = [] then pure true
  else do
    likeReserve
    match _next : likeRound escape insensitive s with
    | some t => likeLoop t
    | none => pure false
termination_by (s.ahead, s.cursor.length)
decreasing_by exact likeRound_decreases escape insensitive _next

def likeMatch (text pattern : Bytes) : BudgetM Bool :=
  likeLoop escape insensitive ⟨text, pattern, none⟩

/-- An unescaped byte of a pattern; the test `none` accepts every byte. -/
def likeUnescaped (token : UInt8) : Token (Option UInt8) :=
  if token = '%'.toUInt8 then .many else if token = '_'.toUInt8 then .one none
  else .one (some token)

/-- What a pattern means: an escape byte makes the next one literal, or stands for itself. -/
def likeTokens : Bytes → List (Token (Option UInt8))
  | [] => []
  | [token] => [if some token = escape then .one (some token) else likeUnescaped token]
  | token :: next :: rest =>
    if some token = escape then .one (some next) :: likeTokens rest
    else likeUnescaped token :: likeTokens (next :: rest)

/-- A capital letter of ASCII with its small one. -/
def IsCase (capital small : UInt8) : Prop := 65 ≤ capital ∧ capital ≤ 90 ∧ small = capital + 32

/-- A literal byte accepts itself, and the same letter where case does not count. -/
def likeAccepts (test : Option UInt8) (ch : UInt8) : Prop :=
  ∀ token ∈ test, token = ch ∨ insensitive ∧ (IsCase token ch ∨ IsCase ch token)

theorem likeFold_eq_iff {a b : UInt8} :
    likeFold a insensitive = likeFold b insensitive ↔
      a = b ∨ insensitive ∧ (IsCase a b ∨ IsCase b a) := by
  have fold (ch : UInt8) : likeFold ch insensitive =
      if insensitive ∧ 65 ≤ ch ∧ ch ≤ 90 then ch + 32 else ch := rfl
  rw [fold, fold, IsCase, IsCase]
  cases insensitive with
  | false => simp
  | true => grind

theorem likeTokens_cons (token : UInt8) (cursor : Bytes) :
    likeTokens escape (token :: cursor) =
      (if (likeToken escape token cursor).2.1 then .one (some (likeToken escape token cursor).1)
        else likeUnescaped (likeToken escape token cursor).1) ::
      likeTokens escape (likeToken escape token cursor).2.2 := by
  cases cursor <;> by_cases escaped : some token = escape <;> simp [likeTokens, likeToken, escaped]

/-- A token other than an unescaped `%` tests one byte, as the loop does. -/
theorem likeUnescaped_one {escaped : Bool} {token : UInt8}
    (plain : ¬ (!escaped && token == '%'.toUInt8) = true) :
    ∃ test, (if escaped then .one (some token) else likeUnescaped token) = .one test ∧
      ∀ ch, likeAccepts insensitive test ch ↔ ((!escaped && token == '_'.toUInt8) ||
        likeFold token insensitive == likeFold ch insensitive) := by
  refine ⟨if !escaped && token == '_'.toUInt8 then none else some token, ?_, fun ch => ?_⟩
  · cases escaped <;> simp_all [likeUnescaped]
    split_ifs <;> rfl
  · split_ifs with any <;> simp [likeAccepts, any, likeFold_eq_iff]

/-- The position behind the last `%`, with the pattern there read as tokens. -/
def LikeState.behind (s : LikeState) : Star (Option UInt8) UInt8 :=
  s.star.map fun star => (likeTokens escape star.1, star.2)

/-- A state of the loop whose answer is whether the text fits. -/
structure LikeState.Decides (s : LikeState) (fits : Prop) : Prop where
  held : Held (s.behind escape) (likeTokens escape s.cursor) s.input
  open_iff : Open (likeAccepts insensitive) (s.behind escape) (likeTokens escape s.cursor) s.input ↔
    fits

variable {escape insensitive} {fits : Prop} {s : LikeState}

/-- After a mismatch the next state decides the same, or there is no match. -/
theorem LikeState.Decides.retry (decides : s.Decides escape insensitive fits)
    (mismatch : ¬ Fits (likeAccepts insensitive) (likeTokens escape s.cursor) s.input) :
    match likeRetry s.star with
    | some t => t.Decides escape insensitive fits
    | none => ¬ fits := by
  obtain ⟨input, cursor, star⟩ := s
  rw [← decides.open_iff]
  match star with
  | none | some (_, []) => exact fun still => still.elim mismatch id
  | some (pattern, ch :: retry) => exact ⟨held_start _ _, (open_retry mismatch).symm⟩

theorem LikeState.Decides.round (decides : s.Decides escape insensitive fits)
    (live : ¬ (s.input = [] ∧ s.cursor = [])) :
    match likeRound escape insensitive s with
    | some t => t.Decides escape insensitive fits
    | none => ¬ fits := by
  have retry := decides.retry
  obtain ⟨input, cursor, star⟩ := s
  cases cursor with
  | nil => exact retry fun fits => live ⟨fits_nil.mp fits, rfl⟩
  | cons token cursor =>
    obtain ⟨held, answer⟩ := decides
    simp only [likeRound]
    simp only [likeTokens_cons] at held answer retry
    generalize likeToken escape token cursor = read at held answer retry ⊢
    obtain ⟨token, escaped, rest⟩ := read
    split_ifs with star
    · obtain ⟨rfl, rfl⟩ : escaped = false ∧ token = '%'.toUInt8 := by simpa using star
      exact ⟨held_start _ _, (open_many held).symm.trans answer⟩
    · obtain ⟨test, head, accepts⟩ := likeUnescaped_one insensitive star
      rw [head] at held answer retry
      cases input with
      | nil => exact retry (by rintro ⟨⟩)
      | cons ch input =>
        dsimp only
        split_ifs with same
        · exact ⟨held.one, (open_one ((accepts ch).mpr same)).symm.trans answer⟩
        · exact retry fun fits => same ((accepts ch).mp (fits_one.mp fits).1)

/-- The loop reserves some number of steps and then reports whether the text fits. -/
theorem likeLoop_decides (s : LikeState) (decides : s.Decides escape insensitive fits) :
    ∃ steps matched, likeLoop escape insensitive s = (do likeSteps steps; pure matched) ∧
      (matched ↔ fits) := by
  induction s using likeLoop.induct escape insensitive with
  | case1 s done =>
    refine ⟨0, true, by rw [likeLoop, if_pos done]; rfl, ?_⟩
    have fits : Fits (likeAccepts insensitive) (likeTokens escape s.cursor) s.input := by
      rw [done.1, done.2]
      exact .nil
    simp [← decides.open_iff, Open, fits]
  | case2 s live ih =>
    have round := decides.round live
    rw [likeLoop, if_neg live]
    split <;> rename_i next <;> rw [next] at round
    · obtain ⟨steps, matched, run, correct⟩ := ih _ next round
      exact ⟨steps + 1, matched, by simp only [run, likeSteps, bind_assoc], correct⟩
    · exact ⟨1, false, by simp only [likeSteps, bind_assoc, pure_bind], by simpa using round⟩

end Match

/-- For every text, pattern, escape byte and mode the matcher ends, after some number of steps,
in whether the text can be split to fit the pattern; only the budget can stop it before. -/
theorem like_match_fits (escape : Option UInt8) (insensitive : Bool) (text pattern : Bytes) :
    ∃ steps matched,
      likeMatch escape insensitive text pattern = (do likeSteps steps; pure matched) ∧
      (matched = true ↔ Fits (likeAccepts insensitive) (likeTokens escape pattern) text) := by
  refine likeLoop_decides _ ⟨nofun, ?_⟩
  exact ⟨fun still => still.elim id nofun, .inl⟩

section Steps

variable (escape : Option UInt8) (insensitive : Bool) {n : Nat} {s t : LikeState}

/-- No part of the pattern that is left or kept is longer than `n` bytes. -/
structure LikeState.Within (s : LikeState) (n : Nat) : Prop where
  cursor : s.cursor.length ≤ n
  star : ∀ star ∈ s.star, star.1.length ≤ n

theorem LikeState.Within.retry (within : s.Within n) (retried : likeRetry s.star = some t) :
    t.Within n := by
  unfold likeRetry at retried
  split at retried
  · rename_i pattern _ retry star
    obtain rfl := Option.some.inj retried
    exact ⟨within.star _ star, by simpa using within.star _ star⟩
  · cases retried

theorem LikeState.Within.round (within : s.Within n)
    (next : likeRound escape insensitive s = some t) : t.Within n := by
  unfold likeRound at next
  split at next
  · exact within.retry next
  · rename_i token cursor pattern
    have shorter := within.cursor
    rw [pattern] at shorter
    have inside := ((likeToken_length escape token cursor).trans (Nat.le_succ _)).trans shorter
    generalize likeToken escape token cursor = read at next inside
    obtain ⟨token, escaped, rest⟩ := read
    dsimp only at next
    split_ifs at next
    · obtain rfl := Option.some.inj next
      exact ⟨inside, by rintro _ ⟨⟩; exact inside⟩
    · split at next
      · exact within.retry next
      · split_ifs at next
        · obtain rfl := Option.some.inj next
          exact ⟨inside, within.star⟩
        · exact within.retry next

theorem likeLoop_steps (s : LikeState) (within : s.Within n) :
    ∃ steps ≤ s.ahead * (n + 1) + s.cursor.length + 1, ∃ matched,
      likeLoop escape insensitive s = (do likeSteps steps; pure matched) := by
  induction s using likeLoop.induct escape insensitive with
  | case1 s done => exact ⟨0, Nat.zero_le _, true, by rw [likeLoop, if_pos done]; rfl⟩
  | case2 s live ih =>
    rw [likeLoop, if_neg live]
    split <;> rename_i next
    · have inside := within.round escape insensitive next
      obtain ⟨steps, bound, matched, run⟩ := ih _ next inside
      refine ⟨steps + 1, ?_, matched, by simp only [run, likeSteps, bind_assoc]⟩
      -- Less text ahead pays for a whole pattern.
      have decreases := likeRound_decreases escape insensitive next
      simp only [Prod.lex_iff] at decreases
      obtain less | ⟨same, less⟩ := decreases
      · have paid := Nat.mul_le_mul_right (n + 1) (Nat.succ_le_of_lt less)
        rw [Nat.succ_mul] at paid
        have := inside.cursor
        omega
      · rw [same] at bound
        omega
    · exact ⟨1, by omega, false, by simp only [likeSteps, bind_assoc, pure_bind]⟩

end Steps

/-- A match never reserves more steps than text and pattern have pairs of positions. -/
theorem like_match_steps (escape : Option UInt8) (insensitive : Bool) (text pattern : Bytes) :
    ∃ steps ≤ (text.length + 1) * (pattern.length + 1), ∃ matched,
      likeMatch escape insensitive text pattern = (do likeSteps steps; pure matched) := by
  obtain ⟨steps, bound, run⟩ := likeLoop_steps escape insensitive (n := pattern.length)
    ⟨text, pattern, none⟩ ⟨le_rfl, nofun⟩
  refine ⟨steps, bound.trans ?_, run⟩
  rw [LikeState.ahead, Nat.succ_mul]
  simp [Nat.add_assoc]

end TurboDb
