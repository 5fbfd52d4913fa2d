import TurboDb.Orm.Script

/-!
What is in a rendered statement.

The text of a statement is read byte by byte. The byte that opens a placeholder
occurs nowhere else, and the digits behind it are its number. Every other byte
belongs to a keyword or punctuation, to the number of the limit or the offset, or
to a name of the plan. No byte of a value is in the text.
-/

namespace TurboDb.Orm

open ByteOrder Decimal Effect List

inductive Backend
  | sqlite | postgres | mysql
  deriving DecidableEq

namespace Backend

def renderer : Backend → Renderer
  | .sqlite => sqlRenderer .sqlite
  | .postgres => sqlRenderer .postgres
  | .mysql => mysqlRenderer

def render (backend : Backend) (limits : Limits) (plan : Plan) : Except Failure SqlQuery :=
  match backend with
  | .sqlite => ormSqlRender limits .sqlite plan
  | .postgres => ormSqlRender limits .postgres plan
  | .mysql => ormMysqlRenderPlan limits plan

def mark : Backend → UInt8
  | .postgres => dollarSign
  | .sqlite | .mysql => questionMark

def label : Backend → Nat → Bytes
  | .mysql, _ => []
  | .sqlite, oneBased | .postgres, oneBased => numeral oneBased

/-- The keywords and the punctuation of the statements of a backend. -/
def words : Backend → List String
  | .sqlite => " limit -1" :: shared
  | .postgres => shared
  | .mysql => "`" :: "`.`" :: " limit 18446744073709551615" :: shared
where
  shared : List String :=
    ["select ", "*", ", ", " from ", " where ", " and ", " is null", " is not null", " = ",
      " != ", " < ", " <= ", " > ", " >= ", " like ", " not like ", " order by ", " desc", " asc",
      " limit ", " offset ", "insert into ", " (", ") values (", "null", ")", "update ", " set ",
      "delete from "]

end Backend

variable {backend : Backend} {limits : Limits} {plan : Plan}

theorem render_eq (structured : plan.kind ≠ .raw) :
    backend.render limits plan =
      rendered (perform backend.renderer limits (fragments backend.renderer plan)) := by
  cases backend with
  | sqlite | postgres => exact ormSqlRender_eq structured
  | mysql => exact ormMysqlRenderPlan_eq structured

variable {separator : String} {rest : Bytes} {first second : List Fragment} {name segment : Bytes}
  {count : Nat}

section Proper

variable {words : String}

def Fragment.Proper (backend : Backend) (plan : Plan) : Fragment → Prop
  | .text words => words ∈ backend.words
  | .name identifier => identifier ∈ plan.names
  | .number value => plan.limit = some value ∨ plan.offset = some value
  | .parameter _ | .refuse _ => True

theorem shared_words (mem : words ∈ Backend.words.shared) : words ∈ backend.words := by
  cases backend with
  | sqlite => exact mem_cons_of_mem _ mem
  | postgres => exact mem
  | mysql => exact mem_cons_of_mem _ (mem_cons_of_mem _ (mem_cons_of_mem _ mem))

theorem proper_text (mem : words ∈ Backend.words.shared) :
    (Fragment.text words).Proper backend plan := shared_words mem

theorem proper_between {α : Type} {body : α → List Fragment} {xs : List α}
    (separates : separator ∈ Backend.words.shared)
    (each : ∀ x ∈ xs, ∀ fragment ∈ body x, fragment.Proper backend plan) :
    ∀ fragment ∈ between separator body xs, fragment.Proper backend plan := by
  cases xs with
  | nil => exact fun fragment mem => absurd mem not_mem_nil
  | cons first others =>
    intro fragment mem
    simp only [between, mem_append, mem_flatMap, mem_cons] at mem
    rcases mem with inFirst | ⟨other, isOther, rfl | inOther⟩
    · exact each first mem_cons_self fragment inFirst
    · exact proper_text separates
    · exact each other (mem_cons_of_mem _ isOther) fragment inOther

theorem proper_refusal {refused : Prop} [Decidable refused] {message : String} :
    ∀ fragment ∈ refusal refused message, fragment.Proper backend plan := by
  rw [refusal]
  split <;> simp [Fragment.Proper]

theorem proper_value (value : Value) :
    ∀ fragment ∈ valueFragments value, fragment.Proper backend plan := by
  rw [valueFragments]
  split
  case isTrue => simpa using proper_text (by decide)
  case isFalse => simp [Fragment.Proper]

theorem proper_predicate {predicate : Predicate} (mem : predicate ∈ plan.predicates) :
    ∀ fragment ∈ predicateFragments predicate, fragment.Proper backend plan := by
  have named : (Fragment.name predicate.column).Proper backend plan := by
    simp only [Fragment.Proper, Plan.names, mem_append, mem_map]
    exact .inl (.inr ⟨predicate, mem, rfl⟩)
  have compared : comparison predicate.comparison ∈ Backend.words.shared := by
    cases predicate.comparison <;> decide
  rw [predicateFragments, forall_mem_cons]
  refine ⟨named, ?_⟩
  split
  case isTrue =>
    cases predicate.comparison with
    | equal | notEqual => simpa using proper_text (by decide)
    | less | lessEqual | greater | greaterEqual | like | notLike => simp [Fragment.Proper]
  case isFalse => simpa [Fragment.Proper] using shared_words compared

theorem proper_where : ∀ fragment ∈ whereFragments plan, fragment.Proper backend plan := by
  rw [whereFragments]
  split
  case isTrue => simp
  case isFalse =>
    rw [forall_mem_cons]
    exact ⟨proper_text (by decide), proper_between (by decide) fun _ mem => proper_predicate mem⟩

theorem proper_column : ∀ fragment ∈ columnFragments plan, fragment.Proper backend plan := by
  rw [columnFragments]
  split
  case isTrue => simpa using proper_text (by decide)
  case isFalse =>
    refine proper_between (by decide) fun column mem => ?_
    simp [Fragment.Proper, Plan.names, mem]

theorem proper_order : ∀ fragment ∈ orderFragments plan, fragment.Proper backend plan := by
  rw [orderFragments]
  cases ordered : plan.ordering with
  | none => simp
  | some ordering =>
    have direction : (if ordering.descending then " desc" else " asc") ∈
        Backend.words.shared := by
      cases ordering.descending <;> decide
    simp only [forall_mem_cons]
    refine ⟨proper_text (by decide), ?_, proper_text direction, by simp⟩
    simp [Fragment.Proper, Plan.names, ordered]

theorem unlimited_mem (unlimited : backend.renderer.unlimited = some words) :
    words ∈ backend.words := by
  cases backend with
  | sqlite =>
    cases unlimited
    decide
  | postgres => cases unlimited
  | mysql =>
    cases unlimited
    decide

theorem proper_limit :
    ∀ fragment ∈ limitFragments backend.renderer plan, fragment.Proper backend plan := by
  rw [limitFragments]
  cases limited : plan.limit with
  | some limit =>
    simp only [forall_mem_cons]
    exact ⟨proper_text (by decide), .inl limited, by simp⟩
  | none =>
    cases plan.offset with
    | none => simp
    | some offset =>
      cases unlimited : backend.renderer.unlimited with
      | none => simp
      | some words => simpa [Fragment.Proper] using unlimited_mem unlimited

theorem proper_offset : ∀ fragment ∈ offsetFragments plan, fragment.Proper backend plan := by
  rw [offsetFragments]
  cases moved : plan.offset with
  | none => simp
  | some offset =>
    simp only [forall_mem_cons]
    exact ⟨proper_text (by decide), .inr moved, by simp⟩

theorem proper_table : (Fragment.name plan.table).Proper backend plan := by
  simp [Fragment.Proper, Plan.names]

theorem proper_fragments :
    ∀ fragment ∈ fragments backend.renderer plan, fragment.Proper backend plan := by
  have assigned (assignment : Assignment) (mem : assignment ∈ plan.assignments) :
      (Fragment.name assignment.column).Proper backend plan := by
    simp only [Fragment.Proper, Plan.names, mem_append, mem_map]
    exact .inl (.inl (.inr ⟨assignment, mem, rfl⟩))
  rw [fragments]
  cases plan.kind with
  | select =>
    simp only [selectFragments, forall_mem_append, forall_mem_cons]
    exact ⟨proper_refusal, proper_text (by decide), proper_column, proper_text (by decide),
      proper_table, proper_where, proper_order, proper_limit, proper_offset⟩
  | insert =>
    simp only [insertFragments, forall_mem_append, forall_mem_cons]
    refine ⟨proper_refusal, proper_text (by decide), proper_table, proper_text (by decide), ?_,
      proper_text (by decide), ?_, proper_text (by decide), by simp⟩
    · exact proper_between (by decide) fun assignment mem => by simpa using assigned assignment mem
    · exact proper_between (by decide) fun assignment _ => proper_value assignment.value
  | update =>
    simp only [updateFragments, forall_mem_append, forall_mem_cons]
    refine ⟨proper_refusal, proper_text (by decide), proper_table, proper_text (by decide), ?_,
      proper_where⟩
    refine proper_between (by decide) fun assignment mem => ?_
    simp only [assignmentFragments, forall_mem_cons]
    exact ⟨assigned assignment mem, proper_text (by decide), proper_value assignment.value⟩
  | delete =>
    simp only [deleteFragments, forall_mem_cons]
    exact ⟨proper_text (by decide), proper_table, proper_where⟩
  | raw => simp

end Proper

def marksIn (mark : UInt8) : Bytes → List Bytes
  | [] => []
  | b :: rest =>
    if b = mark then rest.takeWhile isDigit :: marksIn mark rest else marksIn mark rest

theorem marksIn_append {mark : UInt8} {text : Bytes} (unmarked : mark ∉ text) :
    marksIn mark (text ++ rest) = marksIn mark rest := by
  induction text with
  | nil => rfl
  | cons b text ih =>
    simp only [mem_cons, not_or] at unmarked
    rw [cons_append, marksIn, if_neg (Ne.symm unmarked.1), ih unmarked.2]

/-- The text begins with something other than a digit, or is empty. -/
def Undigited (text : Bytes) : Prop := ∀ b ∈ text.head?, isDigit b = false

theorem takeWhile_undigited {digits : Bytes} (only : ∀ b ∈ digits, isDigit b)
    (plain : Undigited rest) : (digits ++ rest).takeWhile isDigit = digits := by
  rw [takeWhile_append_of_pos only]
  cases rest with
  | nil => simp
  | cons b rest =>
    have stops := plain b rfl
    simp [stops]

/-- A parameter is followed by a text that does not begin with a digit. -/
def Fragment.Follows : Fragment → Fragment → Prop
  | .parameter _, .text words => ascii words ≠ [] ∧ Undigited (ascii words)
  | .parameter _, _ => False
  | _, _ => True

/-- The fragments may stand behind a parameter. -/
def Opens (fragments : List Fragment) : Prop :=
  ∀ fragment ∈ fragments.head?, ∃ words, fragment = .text words ∧ ascii words ≠ [] ∧
    Undigited (ascii words)

abbrev Chained (fragments : List Fragment) : Prop := fragments.IsChain Fragment.Follows

theorem Chained.append (left : Chained first) (right : Chained second) (opens : Opens second) :
    Chained (first ++ second) := by
  refine isChain_append.mpr ⟨left, right, fun x _ y head => ?_⟩
  obtain ⟨words, rfl, plain⟩ := opens y head
  cases x with
  | parameter value => exact plain
  | text _ | name _ | number _ | refuse _ => trivial

theorem Chained.cons {fragment : Fragment} {rest : List Fragment} (chained : Chained rest)
    (plain : fragment.value? = none) : Chained (fragment :: rest) := by
  refine isChain_cons.mpr ⟨fun y _ => ?_, chained⟩
  cases fragment with
  | parameter value => cases plain
  | text _ | name _ | number _ | refuse _ => trivial

theorem chained_of_free {fragments : List Fragment} (free : values fragments = []) :
    Chained fragments := by
  induction fragments with
  | nil => exact .nil
  | cons fragment rest ih =>
    simp only [values_cons, append_eq_nil_iff, Option.toList_eq_nil_iff] at free
    exact (ih free.2).cons free.1

theorem opens_nil : Opens [] := fun _ mem => nomatch mem

theorem opens_text {words : String} {rest : List Fragment}
    (plain : (ascii words).head?.any (!isDigit ·) = true) : Opens (.text words :: rest) := by
  intro fragment head
  cases head
  refine ⟨words, rfl, ?_, fun b mem => ?_⟩
  · intro empty
    simp [empty] at plain
  · rw [Option.mem_def.mp mem] at plain
    simpa using plain

theorem Opens.append (left : Opens first) (right : Opens second) : Opens (first ++ second) := by
  cases first with
  | nil => exact right
  | cons fragment first => exact left

theorem chained_between {α : Type} {body : α → List Fragment} (xs : List α)
    (plain : (ascii separator).head?.any (!isDigit ·) = true) (each : ∀ x, Chained (body x)) :
    Chained (between separator body xs) := by
  cases xs with
  | nil => exact .nil
  | cons first others =>
    have rest : Chained (others.flatMap fun other => .text separator :: body other) ∧
        Opens (others.flatMap fun other => .text separator :: body other) := by
      induction others with
      | nil => exact ⟨.nil, opens_nil⟩
      | cons other others ih =>
        exact ⟨((each other).cons rfl).append ih.1 ih.2, opens_text plain⟩
    exact (each first).append rest.1 rest.2

theorem chained_value (value : Value) : Chained (valueFragments value) := by
  rw [valueFragments]
  split <;> exact List.IsChain.singleton _

theorem chained_predicate (predicate : Predicate) : Chained (predicateFragments predicate) := by
  rw [predicateFragments]
  split
  case isTrue =>
    cases predicate.comparison <;> exact .cons (List.IsChain.singleton _) rfl
  case isFalse => exact .cons (.cons (List.IsChain.singleton _) rfl) rfl

theorem chained_where : Chained (whereFragments plan) := by
  rw [whereFragments]
  split
  case isTrue => exact .nil
  case isFalse => exact (chained_between _ (by decide) chained_predicate).cons rfl

theorem opens_where : Opens (whereFragments plan) := by
  rw [whereFragments]
  split
  case isTrue => exact opens_nil
  case isFalse => exact opens_text (by decide)

theorem opens_order : Opens (orderFragments plan) := by
  rw [orderFragments]
  cases plan.ordering with
  | none => exact opens_nil
  | some ordering => exact opens_text (by decide)

theorem opens_limit : Opens (limitFragments backend.renderer plan) := by
  rw [limitFragments]
  cases plan.limit with
  | some limit => exact opens_text (by decide)
  | none =>
    cases plan.offset with
    | none => exact opens_nil
    | some offset =>
      cases backend with
      | sqlite | mysql => exact opens_text (by decide)
      | postgres => exact opens_nil

theorem opens_offset : Opens (offsetFragments plan) := by
  rw [offsetFragments]
  cases plan.offset with
  | none => exact opens_nil
  | some offset => exact opens_text (by decide)

theorem chained_fragments : Chained (fragments backend.renderer plan) := by
  rw [fragments]
  cases plan.kind with
  | select =>
    have tail : Chained (orderFragments plan ++
        (limitFragments backend.renderer plan ++ offsetFragments plan)) :=
      chained_of_free (by simp)
    have tailOpens : Opens (orderFragments plan ++
        (limitFragments backend.renderer plan ++ offsetFragments plan)) :=
      opens_order.append (opens_limit.append opens_offset)
    refine (chained_of_free values_refusal).append (.cons ?_ rfl) (opens_text (by decide))
    refine (chained_of_free values_columnFragments).append (.cons (.cons ?_ rfl) rfl)
      (opens_text (by decide))
    exact chained_where.append tail tailOpens
  | insert =>
    refine (chained_of_free values_refusal).append (.cons (.cons (.cons ?_ rfl) rfl) rfl)
      (opens_text (by decide))
    refine Chained.append ?_ (.cons ?_ rfl) (opens_text (by decide))
    · exact chained_between _ (by decide) fun _ => List.IsChain.singleton _
    · exact (chained_between _ (by decide) fun _ => chained_value _).append
        (List.IsChain.singleton _) (opens_text (by decide))
  | update =>
    refine (chained_of_free values_refusal).append (.cons (.cons (.cons ?_ rfl) rfl) rfl)
      (opens_text (by decide))
    refine Chained.append ?_ chained_where opens_where
    exact chained_between _ (by decide) fun assignment =>
      .cons (.cons (chained_value assignment.value) rfl) rfl
  | delete => exact .cons (.cons chained_where rfl) rfl
  | raw => exact .nil

theorem label_digits (oneBased : Nat) : ∀ b ∈ backend.label oneBased, isDigit b := by
  cases backend with
  | sqlite | postgres => exact fun b mem => numeral_digits mem
  | mysql => exact fun b mem => nomatch mem

theorem placeholder_eq (oneBased : Nat) :
    backend.renderer.placeholder oneBased = backend.mark :: backend.label oneBased := by
  cases backend <;> rfl

theorem mark_not_digit : isDigit backend.mark = false := by
  cases backend <;> rfl

theorem mark_not_name : nameByte backend.mark = false ∧ backend.mark ≠ dot := by
  cases backend <;> decide

theorem words_unmarked {words : String} (mem : words ∈ backend.words) :
    backend.mark ∉ ascii words := by
  revert words
  cases backend <;> decide

/-- The parts of a statement, as a reader tells them apart. -/
inductive Piece
  | word (words : String)
  | placeholder (oneBased : Nat)
  | number (value : UInt64)
  | name (part : Bytes)

def Piece.bytes (backend : Backend) : Piece → Bytes
  | .word words => ascii words
  | .placeholder oneBased => backend.mark :: backend.label oneBased
  | .number value => numeral value.toNat
  | .name part => part

/-- A part of a name is a part of a name of the plan, which is an identifier. -/
def Piece.Allowed (backend : Backend) (plan : Plan) : Piece → Prop
  | .word words => words ∈ backend.words
  | .placeholder _ => True
  | .number value => plan.limit = some value ∨ plan.offset = some value
  | .name part => ∃ name ∈ plan.names, IsIdentifier name ∧ part <:+: name

def Spelled (backend : Backend) (plan : Plan) (text : Bytes) : Prop :=
  ∃ pieces : List Piece, (∀ piece ∈ pieces, piece.Allowed backend plan) ∧
    text = pieces.flatMap (Piece.bytes backend)

theorem spelled_nil : Spelled backend plan [] := ⟨[], by simp, rfl⟩

theorem spelled_one (piece : Piece) (allowed : piece.Allowed backend plan) :
    Spelled backend plan (piece.bytes backend) := ⟨[piece], by simpa using allowed, by simp⟩

theorem spelled_word (words : String) (mem : words ∈ backend.words) :
    Spelled backend plan (ascii words) := spelled_one (.word words) mem

theorem Spelled.append {first second : Bytes} (left : Spelled backend plan first)
    (right : Spelled backend plan second) : Spelled backend plan (first ++ second) := by
  obtain ⟨pieces, allowed, rfl⟩ := left
  obtain ⟨others, allowed', rfl⟩ := right
  exact ⟨pieces ++ others, forall_mem_append.mpr ⟨allowed, allowed'⟩,
    flatMap_append.symm⟩

theorem spelled_segments (mem : name ∈ plan.names) (identifier : IsIdentifier name)
    (part : segment ++ rest <:+: name) (unquoted : backquote ∉ rest) :
    Spelled .mysql plan (mysqlSegments segment rest).flatten := by
  have named (part : segment <:+: name) : Spelled .mysql plan segment :=
    spelled_one (.name segment) ⟨name, mem, identifier, part⟩
  induction rest generalizing segment with
  | nil =>
    rw [append_nil] at part
    exact (named part).append (spelled_word "`" (by decide))
  | cons next rest ih =>
    simp only [mem_cons, not_or] at unquoted
    rw [mysqlSegments]
    split
    case isTrue =>
      apply ih _ unquoted.2
      · exact fun part => spelled_one (.name _) ⟨name, mem, identifier, part⟩
      · rwa [append_assoc, singleton_append]
    case isFalse special =>
      have isDot : next = dot := by
        by_contra other
        exact special ⟨other, Ne.symm unquoted.1⟩
      have before : segment <:+: name := (prefix_append _ _).isInfix.trans part
      have behind : [] ++ rest <:+: name := by
        refine List.IsInfix.trans ?_ part
        exact (suffix_append_of_suffix (suffix_cons _ _)).isInfix
      have tail : Spelled .mysql plan (mysqlSegments [] rest).flatten := by
        apply ih behind unquoted.2
        exact fun part => spelled_one (.name _) ⟨name, mem, identifier, part⟩
      rw [if_pos isDot, flatten_cons, flatten_cons]
      exact (named before).append ((spelled_word "`.`" (by decide)).append tail)

theorem spelled_name (mem : name ∈ plan.names) (identifier : IsIdentifier name) :
    Spelled backend plan (backend.renderer.identifier name).flatten := by
  have whole : name <:+: name := infix_rfl
  cases backend with
  | sqlite | postgres =>
    change Spelled _ plan ([name] : List Bytes).flatten
    rw [flatten_singleton]
    exact spelled_one (.name name) ⟨name, mem, identifier, whole⟩
  | mysql =>
    have unquoted : backquote ∉ name := by
      intro quoted
      have := identifier.byte quoted
      revert this
      decide
    exact (spelled_word "`" (by decide)).append
      (spelled_segments mem identifier whole unquoted)

theorem spelled_spelling {fragments : List Fragment}
    (named : ∀ name ∈ plan.names, IsIdentifier name)
    (proper : ∀ fragment ∈ fragments, fragment.Proper backend plan) :
    Spelled backend plan (spelling backend.renderer count fragments) := by
  induction fragments generalizing count with
  | nil => exact spelled_nil
  | cons fragment rest ih =>
    rw [forall_mem_cons] at proper
    obtain ⟨here, proper⟩ := proper
    cases fragment with
    | text words => exact (spelled_word words here).append (ih proper)
    | name identifier => exact (spelled_name here (named _ here)).append (ih proper)
    | number value => exact (spelled_one (.number value) here).append (ih proper)
    | parameter value =>
      rw [spelling, placeholder_eq]
      exact (spelled_one (.placeholder (count + 1)) trivial).append (ih proper)
    | refuse failure => exact ih proper

theorem mem_mysqlSegments {b : UInt8} (mem : b ∈ (mysqlSegments segment rest).flatten) :
    b ∈ segment ∨ b ∈ rest ∨ b = backquote ∨ b = dot := by
  induction rest generalizing segment with
  | nil =>
    have : b ∈ segment ∨ b = backquote := by simpa [mysqlSegments] using mem
    tauto
  | cons next rest ih =>
    rw [mysqlSegments] at mem
    split at mem
    case isTrue =>
      have := ih mem
      simp only [mem_append, mem_cons, not_mem_nil] at this ⊢
      tauto
    case isFalse =>
      simp only [flatten_cons, mem_append] at mem
      rcases mem with inSegment | quoted | behind
      · exact .inl inSegment
      · split at quoted <;> simp at quoted <;> tauto
      · have := ih behind
        tauto

theorem name_unmarked (identifier : IsIdentifier name) :
    backend.mark ∉ (backend.renderer.identifier name).flatten := by
  have unmarked : backend.mark ∉ name := by
    intro mem
    have outside := @mark_not_name backend
    rcases identifier.byte mem with isName | isDot
    · rw [isName] at outside
      exact Bool.noConfusion outside.1
    · exact outside.2 isDot
  cases backend with
  | sqlite | postgres =>
    change _ ∉ ([name] : List Bytes).flatten
    rwa [flatten_singleton]
  | mysql =>
    intro mem
    rcases mem_append.mp mem with quoted | mem
    · exact absurd quoted (by decide)
    · rcases mem_mysqlSegments mem with inNothing | inName | isQuote | isDot
      · exact absurd inNothing not_mem_nil
      · exact unmarked inName
      · exact absurd isQuote (by decide)
      · exact absurd isDot (by decide)

theorem fragment_unmarked {fragment : Fragment} (named : ∀ name ∈ plan.names, IsIdentifier name)
    (proper : fragment.Proper backend plan) :
    backend.mark ∉ fragment.bytes backend.renderer := by
  cases fragment with
  | text words => exact words_unmarked proper
  | name identifier => exact name_unmarked (named _ proper)
  | number value =>
    intro mem
    have digit := numeral_digits mem
    rw [mark_not_digit] at digit
    cases digit
  | parameter _ | refuse _ => exact not_mem_nil

theorem spelling_undigited {fragments : List Fragment} {value : Value}
    (chained : Chained (.parameter value :: fragments)) :
    Undigited (spelling backend.renderer count fragments) := by
  have follows := (isChain_cons.mp chained).1
  cases fragments with
  | nil => exact fun b mem => nomatch mem
  | cons next rest =>
    have behind := follows next rfl
    cases next with
    | text words =>
      obtain ⟨nonempty, plain⟩ := behind
      rw [spelling_plain rfl, Fragment.bytes]
      intro b mem
      rw [head?_append_of_ne_nil _ nonempty] at mem
      exact plain b mem
    | name _ | number _ | parameter _ | refuse _ => exact behind.elim

theorem marksIn_spelling {fragments : List Fragment}
    (named : ∀ name ∈ plan.names, IsIdentifier name)
    (proper : ∀ fragment ∈ fragments, fragment.Proper backend plan) (chained : Chained fragments) :
    marksIn backend.mark (spelling backend.renderer count fragments) =
      (range (values fragments).length).map fun i => backend.label (count + i + 1) := by
  induction fragments generalizing count with
  | nil => rfl
  | cons fragment rest ih =>
    rw [forall_mem_cons] at proper
    obtain ⟨here, proper⟩ := proper
    have following := (isChain_cons.mp chained).2
    cases fragment with
    | parameter value =>
      have unmarked : backend.mark ∉ backend.label (count + 1) := by
        intro mem
        have digit := label_digits _ _ mem
        rw [mark_not_digit] at digit
        cases digit
      rw [spelling, placeholder_eq, cons_append, marksIn, if_pos rfl,
        takeWhile_undigited (label_digits _) (spelling_undigited chained),
        marksIn_append unmarked, ih proper following, values_cons, Fragment.value?,
        Option.toList_some, singleton_append, length_cons, range_succ_eq_map,
        map_cons, map_map]
      congr 1
      apply map_congr_left
      intro i _
      rw [Function.comp_apply, Nat.succ_eq_add_one, Nat.add_right_comm count 1 i, Nat.add_assoc count i 1]
    | text _ | name _ | number _ | refuse _ =>
      rw [spelling_plain rfl, marksIn_append (fragment_unmarked named here),
        ih proper following]
      rfl

/-- Plans that differ only in the contents of their non-NULL values. -/
def SameShape (plan other : Plan) : Prop := plan.erase = other.erase

theorem textOf_render_erase (structured : plan.kind ≠ .raw) :
    textOf (backend.render limits plan.erase) = textOf (backend.render limits plan) := by
  have structured' : plan.erase.kind ≠ .raw := structured
  rw [render_eq structured, render_eq structured', fragments_erase, rendered_erase]

/-- What a statement says is fixed by the shape of its plan, and every byte of it is accounted
for. -/
theorem render_safe (built : Built limits plan) (structured : plan.kind ≠ .raw) :
    (∀ other, Built limits other → SameShape plan other →
      textOf (backend.render limits other) = textOf (backend.render limits plan)) ∧
    ∀ query, backend.render limits plan = .ok query →
      query.parameters = plan.bound ∧
      marksIn backend.mark query.text =
        (range query.parameters.length).map (fun i => backend.label (i + 1)) ∧
      Spelled backend plan query.text := by
  have wf := built.wf structured
  constructor
  · intro other _ same
    have otherStructured : other.kind ≠ .raw := by
      have kinds : plan.erase.kind = other.erase.kind := congrArg Plan.kind same
      change plan.kind = other.kind at kinds
      rwa [kinds] at structured
    rw [← textOf_render_erase structured, ← textOf_render_erase otherStructured, same]
  · intro query ok
    rw [render_eq structured] at ok
    obtain ⟨text, parameters⟩ := rendered_ok ok
    have marks : marksIn backend.mark (spelling backend.renderer 0 _) = _ :=
      marksIn_spelling wf.named proper_fragments chained_fragments
    rw [text, parameters, marks]
    refine ⟨values_fragments wf, ?_, spelled_spelling wf.named proper_fragments⟩
    simp only [Nat.zero_add]

def hostileStart : Plan := { Plan.empty .update with table := ascii "main.t" }

def hostileOps : List PlanOp :=
  [.addAssignment (ascii "a") ⟨0, .text (ascii "1; drop table t")⟩,
    .addAssignment (ascii "b") ⟨0, .null⟩,
    .addPredicate (ascii "t.id") .equal ⟨0, .text (ascii "' or '1'='1")⟩]

def roomyLimits : Limits := ⟨16, 16, 16, 16, 256, 256, 100⟩

/-- An update whose values would be statements of their own. -/
def hostilePlan : Plan := hostileOps.foldl (planStep roomyLimits) hostileStart

theorem render_safe_hostile :
    ∃ query, Backend.mysql.render roomyLimits hostilePlan = .ok query ∧
      query.text = ascii "update `main`.`t` set `a` = ?, `b` = null where `t`.`id` = ?" ∧
      query.parameters = hostilePlan.bound ∧ Spelled .mysql hostilePlan query.text := by
  have built : Built roomyLimits hostilePlan :=
    ⟨.update, ascii "main.t", hostileStart, by decide +kernel, hostileOps, rfl⟩
  have rendered : Backend.mysql.render roomyLimits hostilePlan = .ok
      ⟨ascii "update `main`.`t` set `a` = ?, `b` = null where `t`.`id` = ?",
        [.text (ascii "1; drop table t"), .text (ascii "' or '1'='1")]⟩ := by decide +kernel
  obtain ⟨parameters, -, spelled⟩ := (render_safe built (by decide +kernel)).2 _ rendered
  exact ⟨_, rendered, rfl, parameters, spelled⟩

end TurboDb.Orm
