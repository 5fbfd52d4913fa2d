import Mathlib.Data.List.Forall2
import TurboDb.Library.Decimal

/-!
The guard on raw SQL inside a managed transaction.

Statements that end or commit the transaction are refused by their first word.
The guard reads past white space and comments in front of it, but not past all
that the server ignores: a vertical tab is no white space to it, two dashes open
a comment only before its own white space, and a line comment ends at a carriage
return too.
-/

namespace TurboDb.Mysql.Guard

open ByteOrder Decimal List

def parameterIsSpace (value : UInt8) : Bool :=
  value = 32 || value = 9 || value = 13 || value = 10 || value = 12

def sqlIsAlpha (value : UInt8) : Bool :=
  (65 ≤ value && value ≤ 90) || (97 ≤ value && value ≤ 122)

def sqlUpper (value : UInt8) : UInt8 :=
  if 97 ≤ value && value ≤ 122 then value - 32 else value

def rejected : List String :=
  ["ALTER", "ANALYZE", "BEGIN", "CACHE", "CHANGE", "CHECK", "COMMIT", "CREATE", "DROP", "FLUSH",
    "GRANT", "INSTALL", "LOAD", "LOCK", "OPTIMIZE", "RENAME", "REPAIR", "RESET", "REVOKE",
    "ROLLBACK", "SAVEPOINT", "SET", "START", "STOP", "TRUNCATE", "UNINSTALL", "UNLOCK", "XA"]

/-- A line comment is left in front of the byte that ends it. -/
def skipLine (sql : Bytes) : Bytes := sql.dropWhile fun value => value ≠ 10 && value ≠ 13

def skipBlock : Bytes → Option Bytes
  | [] => none
  | value :: rest =>
    if value = 42 ∧ rest.head? = some 47 then some rest.tail else skipBlock rest

def rejectWord (sql : Bytes) : Bool :=
  rejected.any fun keyword => (sql.takeWhile sqlIsAlpha).map sqlUpper = ascii keyword

theorem length_skipBlock {sql rest : Bytes} (closed : skipBlock sql = some rest) :
    rest.length < sql.length := by
  fun_induction skipBlock sql with
  | case1 => simp at closed
  | case2 value sql => grind
  | case3 value sql _ ih => exact Nat.lt_succ_of_lt (ih closed)

def sqlRejectManagedTransaction : Bytes → Bool
  | [] => false
  | value :: rest =>
    if parameterIsSpace value then sqlRejectManagedTransaction rest
    else if value = 35 then sqlRejectManagedTransaction (skipLine rest)
    else if value = 45 ∧ rest.head? = some 45 ∧ rest.tail.head?.all parameterIsSpace then
      sqlRejectManagedTransaction (skipLine rest.tail)
    else if value = 47 ∧ rest.head? = some 42 then
      if rest.tail.head? = some 33 then true
      else match _ : skipBlock rest.tail with
        | none => true
        | some behind => sqlRejectManagedTransaction behind
    else rejectWord (value :: rest)
termination_by sql => sql.length
decreasing_by
  all_goals
    have line (sql : Bytes) : (skipLine sql).length ≤ sql.length :=
      (dropWhile_sublist _).length_le
  · grind
  · grind
  · grind
  · have := length_skipBlock (by assumption)
    grind

section Layout

/-- What may stand in front of a statement; a line comment opens with a hash or two dashes. -/
inductive Layout
  | space (value : UInt8)
  | line (dashes : Bool) (body : Bytes)
  | block (body : Bytes)

def Layout.text : Layout → Bytes
  | .space value => [value]
  | .line false body => 35 :: (body ++ [10])
  | .line true body => 45 :: 45 :: (body ++ [10])
  | .block body => 47 :: 42 :: (body ++ [42, 47])

/-- The server ignores white space and ordinary comments. -/
def Layout.Ignored : Layout → Prop
  | .space value => value = 32 ∨ 9 ≤ value ∧ value ≤ 13
  | .line dashes body => 10 ∉ body ∧ (dashes → ∀ value ∈ body.head?, value ≤ 32 ∨ value = 127)
  | .block body => body.head? ≠ some 33 ∧ ¬ [42, 47] <:+: body

def Letter (value : UInt8) : Prop := 65 ≤ value ∧ value ≤ 90 ∨ 97 ≤ value ∧ value ≤ 122

/-- A refused keyword in any letter case. -/
def Keyword (word : Bytes) : Prop :=
  ∃ keyword ∈ rejected, Forall₂ (fun value upper => value = upper ∨ value = upper + 32) word
    (ascii keyword)

/-- White space of the guard: blank, tab, line feed, form feed and carriage return. -/
def GuardSpace (value : UInt8) : Prop := value = 32 ∨ 9 ≤ value ∧ value ≤ 13 ∧ value ≠ 11

/-- The guard leaves a line comment in front of a line feed or carriage return. -/
def LineEnd (body rest : Bytes) : Prop :=
  10 ∉ body ∧ 13 ∉ body ∧ ∀ value ∈ rest.head?, value = 10 ∨ value = 13

/-- What the guard refuses: behind its own white space and comments stands a keyword, a comment
for the server to execute, or a comment that is not closed. -/
inductive Refused : Bytes → Prop
  | space {value rest} : GuardSpace value → Refused rest → Refused (value :: rest)
  | hash {body rest} : LineEnd body rest → Refused rest → Refused (35 :: (body ++ rest))
  | dashes {body rest} : LineEnd body rest → (∀ value ∈ (body ++ rest).head?, GuardSpace value) →
      Refused rest → Refused (45 :: 45 :: (body ++ rest))
  | block {body rest} : body.head? ≠ some 33 → ¬ [42, 47] <:+: body → Refused rest →
      Refused (47 :: 42 :: (body ++ 42 :: 47 :: rest))
  | executed {rest} : Refused (47 :: 42 :: 33 :: rest)
  | unclosed {body} : ¬ [42, 47] <:+: body → Refused (47 :: 42 :: body)
  | keyword {word rest} : Keyword word → (∀ value ∈ rest.head?, ¬ Letter value) →
      Refused (word ++ rest)

/-- The guard reads past the layout. It takes what stands behind a carriage return in a line
comment for the statement. -/
def Readable (statement : Bytes) : List Layout → Prop
  | [] => True
  | .space value :: layout => value ≠ 11 ∧ Readable statement layout
  | .line dashes body :: layout => (dashes → ∀ value ∈ body.head?, GuardSpace value) ∧
    if 13 ∈ body then ∃ before behind, body = before ++ 13 :: behind ∧ 13 ∉ before ∧
      Refused (behind ++ 10 :: (layout.flatMap Layout.text ++ statement))
    else Readable statement layout
  | .block _ :: layout => Readable statement layout

variable {value : UInt8} {body rest word : Bytes}

theorem reject_space (space : parameterIsSpace value) :
    sqlRejectManagedTransaction (value :: rest) = sqlRejectManagedTransaction rest := by
  rw [sqlRejectManagedTransaction, if_pos space]

theorem reject_hash :
    sqlRejectManagedTransaction (35 :: rest) = sqlRejectManagedTransaction (skipLine rest) := by
  rw [sqlRejectManagedTransaction]
  simp [parameterIsSpace]

theorem rejectWord_other (other : sqlIsAlpha value = false) : rejectWord (value :: rest) = false := by
  rw [rejectWord, takeWhile_cons_of_neg (by simp [other])]
  decide

theorem reject_dashes : sqlRejectManagedTransaction (45 :: 45 :: rest) =
    (rest.head?.all parameterIsSpace && sqlRejectManagedTransaction (skipLine rest)) := by
  rw [sqlRejectManagedTransaction, if_neg (by decide), if_neg (by decide)]
  cases opens : rest.head?.all parameterIsSpace <;> simp [opens, rejectWord_other, sqlIsAlpha]

theorem reject_verticalTab : sqlRejectManagedTransaction (11 :: rest) = false := by
  rw [sqlRejectManagedTransaction]
  simp [parameterIsSpace, rejectWord_other, sqlIsAlpha]

theorem parameterIsSpace_iff : parameterIsSpace value ↔ GuardSpace value := by
  simp only [parameterIsSpace, GuardSpace]
  grind

theorem sqlIsAlpha_iff : sqlIsAlpha value ↔ Letter value := by simp [sqlIsAlpha, Letter]

theorem skipLine_append (line : LineEnd body rest) : skipLine (body ++ rest) = rest := by
  obtain ⟨noFeed, noReturn, ends⟩ := line
  rw [skipLine, dropWhile_append_of_pos fun value mem => by
    simp [ne_of_mem_of_not_mem mem noFeed, ne_of_mem_of_not_mem mem noReturn]]
  cases rest with
  | nil => rfl
  | cons value rest => rcases ends value rfl with rfl | rfl <;> rfl

theorem lineEnd_skipLine (sql : Bytes) :
    ∃ body, LineEnd body (skipLine sql) ∧ body ++ skipLine sql = sql := by
  induction sql with
  | nil => exact ⟨[], by simp [LineEnd, skipLine], rfl⟩
  | cons value sql ih =>
    by_cases ends : value = 10 ∨ value = 13
    · have stays : skipLine (value :: sql) = value :: sql :=
        dropWhile_cons_of_neg (by simpa [or_iff_not_imp_left] using ends)
      exact ⟨[], by simp [LineEnd, stays, ends], stays⟩
    · rw [not_or] at ends
      obtain ⟨body, ⟨noFeed, noReturn, rest⟩, whole⟩ := ih
      have skips : skipLine (value :: sql) = skipLine sql := dropWhile_cons_of_pos (by simp [ends])
      rw [skips]
      exact ⟨value :: body, ⟨by simp [Ne.symm ends.1, noFeed], by simp [Ne.symm ends.2, noReturn], rest⟩,
        congrArg _ whole⟩

theorem skipBlock_append (noEnd : ¬ [42, 47] <:+: body) :
    skipBlock (body ++ 42 :: 47 :: rest) = some rest := by
  induction body with
  | nil => simp [skipBlock]
  | cons value body ih =>
    have inside : ¬ (value = 42 ∧ (body ++ 42 :: 47 :: rest).head? = some 47) := by
      rintro ⟨rfl, next⟩
      cases body with
      | nil => simp at next
      | cons second body =>
        obtain rfl : second = 47 := by simpa using next
        exact noEnd ⟨[], body, rfl⟩
    rw [cons_append, skipBlock, if_neg inside]
    exact ih fun inner => noEnd (inner.trans (suffix_cons value body).isInfix)

theorem skipBlock_spec (sql : Bytes) : match skipBlock sql with
    | none => ¬ [42, 47] <:+: sql
    | some rest => ∃ body, ¬ [42, 47] <:+: body ∧ sql = body ++ 42 :: 47 :: rest := by
  fun_induction skipBlock sql with
  | case1 => simp
  | case2 value sql closes =>
    obtain ⟨rfl, first⟩ := closes
    exact ⟨[], by simp, by rw [nil_append, cons_head?_tail first]⟩
  | case3 value sql opens ih =>
    have later {body : Bytes} (none : ¬ [42, 47] <:+: body) (starts : body <+: sql) :
        ¬ [42, 47] <:+: value :: body := by
      rw [infix_cons_iff, not_or, cons_prefix_cons]
      refine ⟨fun ⟨star, slash⟩ => opens ⟨star.symm, ?_⟩, none⟩
      obtain ⟨tail, rfl⟩ := slash.trans starts
      rfl
    split at ih
    · exact later ih prefix_rfl
    · obtain ⟨body, none, rfl⟩ := ih
      exact ⟨value :: body, later none (prefix_append ..), rfl⟩

theorem reject_block : sqlRejectManagedTransaction (47 :: 42 :: rest) =
    (rest.head? = some 33 || (skipBlock rest).all sqlRejectManagedTransaction) := by
  rw [sqlRejectManagedTransaction, if_neg (by decide), if_neg (by decide), if_neg (by simp),
    if_pos ⟨rfl, rfl⟩, tail_cons]
  split
  · simp [*]
  · split <;> simp [*]

theorem sqlUpper_eq_iff {upper : UInt8} (capital : 65 ≤ upper ∧ upper ≤ 90) :
    sqlUpper value = upper ↔ value = upper ∨ value = upper + 32 := by
  simp only [sqlUpper]
  grind

theorem capitals : ∀ keyword ∈ rejected, ∀ value ∈ ascii keyword, 65 ≤ value ∧ value ≤ 90 := by
  decide +kernel

theorem keyword_iff : Keyword word ↔ word.map sqlUpper ∈ rejected.map ascii := by
  rw [Keyword, mem_map]
  refine exists_congr fun keyword => and_congr_right fun isOne => ?_
  rw [eq_comm, ← forall₂_eq_eq_eq, forall₂_map_left_iff, forall₂_iff_zip, forall₂_iff_zip]
  exact and_congr_right fun _ => forall_congr' fun value => forall_congr' fun upper =>
    forall_congr' fun mem => (sqlUpper_eq_iff (capitals _ isOne _ (of_mem_zip mem).2)).symm

theorem Keyword.letters (keyword : Keyword word) : ∀ value ∈ word, Letter value := by
  obtain ⟨keyword, isOne, same⟩ := keyword
  intro value mem
  obtain ⟨i, inside, rfl⟩ := getElem_of_mem mem
  have pair := same.get inside (same.length_eq ▸ inside)
  have capital := capitals _ isOne _ (get_mem _ ⟨i, same.length_eq ▸ inside⟩)
  simp only [get_eq_getElem, Letter] at *
  grind

theorem rejectWord_iff {sql : Bytes} : rejectWord sql ↔ ∃ word rest, sql = word ++ rest ∧
    Keyword word ∧ ∀ value ∈ rest.head?, ¬ Letter value := by
  have found : rejectWord sql ↔ Keyword (sql.takeWhile sqlIsAlpha) := by
    rw [keyword_iff, rejectWord, any_eq_true, mem_map]
    exact exists_congr fun keyword => and_congr_right fun _ =>
      decide_eq_true_iff.trans eq_comm
  rw [found]
  constructor
  · refine fun keyword => ⟨_, _, takeWhile_append_dropWhile.symm, keyword, fun value first => ?_⟩
    have := head?_dropWhile_not sqlIsAlpha sql
    rw [Option.mem_def.mp first] at this
    simp [← sqlIsAlpha_iff, this]
  · rintro ⟨word, rest, rfl, keyword, ends⟩
    rw [takeWhile_append_of_pos fun value mem => sqlIsAlpha_iff.mpr (keyword.letters value mem)]
    cases rest with
    | nil => simpa using keyword
    | cons value rest =>
      have other := ends value rfl
      rw [← sqlIsAlpha_iff] at other
      simpa [other] using keyword

theorem reject_letter (letter : Letter value) :
    sqlRejectManagedTransaction (value :: rest) = rejectWord (value :: rest) := by
  have apart : parameterIsSpace value = false ∧ value ≠ 35 ∧ value ≠ 45 ∧ value ≠ 47 := by
    simp only [Letter] at letter
    simp only [parameterIsSpace]
    grind
  rw [sqlRejectManagedTransaction]
  simp [apart]

theorem reject_iff {sql : Bytes} : sqlRejectManagedTransaction sql ↔ Refused sql := by
  constructor
  · fun_induction sqlRejectManagedTransaction sql with
    | case1 => simp
    | case2 value rest space ih => exact fun refused => .space (parameterIsSpace_iff.mp space) (ih refused)
    | case3 rest _ ih =>
      intro refused
      obtain ⟨body, line, whole⟩ := lineEnd_skipLine rest
      exact whole ▸ .hash line (ih refused)
    | case4 value rest _ _ opens ih =>
      intro refused
      obtain ⟨rfl, first, opens⟩ := opens
      obtain ⟨rest, rfl⟩ := head?_eq_some_iff.mp first
      obtain ⟨body, line, whole⟩ := lineEnd_skipLine rest
      rw [← whole, tail_cons, Option.all_eq_true] at opens
      exact whole ▸ .dashes line (fun value first => parameterIsSpace_iff.mp (opens value first))
        (ih refused)
    | case5 value rest _ _ _ opens executed =>
      obtain ⟨rfl, first⟩ := opens
      obtain ⟨rest, rfl⟩ := head?_eq_some_iff.mp first
      obtain ⟨rest, rfl⟩ := head?_eq_some_iff.mp executed
      exact fun _ => .executed
    | case6 value rest _ _ _ opens plain closed =>
      obtain ⟨rfl, first⟩ := opens
      obtain ⟨rest, rfl⟩ := head?_eq_some_iff.mp first
      have spec := skipBlock_spec rest
      rw [tail_cons] at closed
      rw [closed] at spec
      exact fun _ => .unclosed spec
    | case7 value rest _ _ _ opens plain behind closed ih =>
      obtain ⟨rfl, first⟩ := opens
      obtain ⟨rest, rfl⟩ := head?_eq_some_iff.mp first
      have spec := skipBlock_spec rest
      rw [tail_cons] at closed plain
      rw [closed] at spec
      obtain ⟨body, noEnd, rfl⟩ := spec
      refine fun refused => .block (fun marked => plain ?_) noEnd (ih refused)
      rw [head?_append, marked, Option.some_or]
    | case8 value rest =>
      intro refused
      obtain ⟨word, rest, whole, keyword, ends⟩ := rejectWord_iff.mp refused
      exact whole ▸ .keyword keyword ends
  · intro refused
    induction refused with
    | space space _ ih => rwa [reject_space (parameterIsSpace_iff.mpr space)]
    | hash line _ ih => rwa [reject_hash, skipLine_append line]
    | @dashes body rest line opens _ ih =>
      rw [reject_dashes, skipLine_append line, ih, Bool.and_true]
      simpa [Option.all_eq_true, parameterIsSpace_iff] using opens
    | @block body rest plain noEnd _ ih => rw [reject_block, skipBlock_append noEnd]; simp [ih]
    | executed => simp [reject_block]
    | @unclosed body noEnd =>
      have spec := skipBlock_spec body
      rw [reject_block]
      cases closed : skipBlock body with
      | none => simp
      | some rest =>
        rw [closed] at spec
        obtain ⟨front, -, rfl⟩ := spec
        exact absurd ⟨front, rest, by simp⟩ noEnd
    | @keyword word rest keyword ends =>
      cases word with
      | nil => exact absurd keyword (by rw [keyword_iff]; decide)
      | cons value word =>
        rw [cons_append, reject_letter (keyword.letters value mem_cons_self), rejectWord_iff]
        exact ⟨value :: word, rest, rfl, keyword, ends⟩

/-- A comment ended by a line feed is left there, or at the first carriage return in it. -/
theorem reject_line (behind : Bytes) (noFeed : 10 ∉ body) :
    sqlRejectManagedTransaction (skipLine (body ++ 10 :: behind)) ↔
      if 13 ∈ body then ∃ before inside, body = before ++ 13 :: inside ∧ 13 ∉ before ∧
        Refused (inside ++ 10 :: behind)
      else sqlRejectManagedTransaction behind := by
  split
  case isFalse noReturn =>
    rw [skipLine_append ⟨noFeed, noReturn, by simp⟩, reject_space rfl]
  case isTrue returns =>
    have leaves {before inside : Bytes} (whole : body = before ++ 13 :: inside)
        (first : 13 ∉ before) : skipLine (body ++ 10 :: behind) = 13 :: (inside ++ 10 :: behind) := by
      subst whole
      rw [append_assoc, cons_append,
        skipLine_append ⟨fun mem => noFeed (mem_append_left _ mem), first, by simp⟩]
    constructor
    · obtain ⟨before, inside, whole, first⟩ := eq_append_cons_of_mem returns
      rw [leaves whole first, reject_space rfl, reject_iff]
      exact fun refused => ⟨before, inside, whole, first, refused⟩
    · rintro ⟨before, inside, whole, first, refused⟩
      rw [leaves whole first, reject_space rfl]
      exact reject_iff.mpr refused

theorem sqlRejectManagedTransaction_layout (layout : List Layout) (word rest : Bytes)
    (ignored : ∀ item ∈ layout, item.Ignored) (keyword : Keyword word)
    (ends : ∀ value ∈ rest.head?, ¬ Letter value) :
    sqlRejectManagedTransaction (layout.flatMap Layout.text ++ (word ++ rest)) = true ↔
      Readable (word ++ rest) layout := by
  induction layout with
  | nil => simpa [Readable] using reject_iff.mpr (.keyword keyword ends)
  | cons item layout ih =>
    obtain ⟨first, others⟩ := forall_mem_cons.mp ignored
    have behind := ih others
    rw [flatMap_cons, append_assoc]
    cases item with
    | space value =>
      by_cases tab : value = 11
      · simp [Layout.text, Readable, tab, reject_verticalTab]
      · have space : parameterIsSpace value := by
          rw [parameterIsSpace_iff]
          simp only [Layout.Ignored, GuardSpace] at *
          grind
        simpa [Layout.text, Readable, tab, reject_space space] using behind
    | line dashes body =>
      have left := reject_line (layout.flatMap Layout.text ++ (word ++ rest)) first.1
      have opens : (body ++ 10 :: (layout.flatMap Layout.text ++ (word ++ rest))).head?.all
          parameterIsSpace ↔ ∀ value ∈ body.head?, GuardSpace value := by
        cases body <;> simp [← parameterIsSpace_iff, parameterIsSpace]
      rw [Readable, ← behind, ← left, ← opens]
      cases dashes <;> simp [Layout.text, reject_hash, reject_dashes]
    | block body =>
      have plain : (body ++ 42 :: 47 :: (layout.flatMap Layout.text ++ (word ++ rest))).head? ≠
          some 33 := by
        cases body with
        | nil => simp
        | cons value body => exact first.1
      rw [Layout.text, cons_append, cons_append, append_assoc, cons_append, cons_append, nil_append,
        reject_block, decide_eq_false plain, skipBlock_append first.2]
      simpa [Readable] using behind

theorem sqlRejectManagedTransaction_comment :
    sqlRejectManagedTransaction (ascii "/* a */ # b\n-- c\n\tCommit;") = true := by
  refine (sqlRejectManagedTransaction_layout [.block (ascii " a "), .space 32,
    .line false (ascii " b"), .line true (ascii " c"), .space 9] (ascii "Commit") (ascii ";")
    ?_ ?_ ?_).mpr ?_
  · simp [Layout.Ignored]
    decide +kernel
  · rw [keyword_iff]
    decide
  · simp [← sqlIsAlpha_iff]
    decide +kernel
  · have noReturn : 13 ∉ ascii " b" ∧ 13 ∉ ascii " c" := by decide
    simp only [Readable, if_neg noReturn.1, if_neg noReturn.2]
    simp [← parameterIsSpace_iff]
    decide +kernel

/-- The server ignores a vertical tab; the guard takes it for the statement. -/
theorem sqlRejectManagedTransaction_verticalTab :
    (Layout.space 11).Ignored ∧
      sqlRejectManagedTransaction ((Layout.space 11).text ++ ascii "COMMIT") = false :=
  ⟨.inr (by decide), reject_verticalTab⟩

end Layout

end TurboDb.Mysql.Guard
