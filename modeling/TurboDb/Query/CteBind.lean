import TurboDb.Library.ByteOrder
import TurboDb.Library.Effect
import TurboDb.Status

/-!
The definitions that table names stand for under WITH clauses.

Binding goes through the WITH clauses of a document in the order of their nodes
and tells by byte spans which of them a table reference is in; of those with a
definition for the name it keeps the shortest. Lexical scope is stated apart, by
the constructs around a reference from the inside out. The names of definitions
have been read before; the budget is left out.
-/

namespace TurboDb.Query

open ByteOrder Effect List

/-- A piece of the source text, which is shorter than the largest size. -/
structure Span where
  offset : Nat
  length : Nat
  addressable : length < 2 ^ 64 - 1

structure Cte where
  id : Nat
  name : Bytes
  query : Span

structure With where
  span : Span
  recursive : Bool
  bindings : List Cte

structure TableName where
  parts : Nat
  text : Except Failure Bytes

structure TableRef where
  span : Span
  name : Option TableName
  query : Bool
  tableFunction : Bool

def cteBindInside (node root : Span) : Bool :=
  node.offset ≥ root.offset && node.offset - root.offset ≤ root.length &&
    node.length ≤ root.length - (node.offset - root.offset)

/-- The loop over the definitions of one clause: the definition found, and
whether the reference is in it. -/
def cteBindBindings (table : Span) (recursive : Bool) (wanted : Bytes) :
    List Cte → Option (Cte × Bool)
  | [] => none
  | cte :: later =>
    let own := cteBindInside table cte.query
    if own && !recursive then none
    else if cte.name = wanted then some (cte, own)
    else if own then none
    else cteBindBindings table recursive wanted later

structure CteFound where
  shortest : Nat
  found : Option (Cte × Bool)

def cteBindWith (table root : Span) (wanted : Bytes) (state : CteFound) (clause : With) :
    CteFound :=
  if !cteBindInside clause.span root || !cteBindInside table clause.span ||
      clause.span.length ≥ state.shortest then state
  else match cteBindBindings table clause.recursive wanted clause.bindings with
    | none => state
    | some found => ⟨clause.span.length, some found⟩

/-- The name of a reference that may be one to a definition. -/
def TableRef.wanted (table : TableRef) : Option (Except Failure Bytes) :=
  table.name.bind fun name =>
    if name.parts ≠ 1 || table.query || table.tableFunction then none else some name.text

/-- Bind a reference among the WITH clauses of a document, in the order of their nodes. -/
def cteBindTable (document : List With) (root : Span) (recursive : Bool) (table : TableRef) :
    Except Failure (Option Nat) :=
  match table.wanted with
  | none => pure none
  | some name => do
    let wanted ← name
    let state := document.foldl (cteBindWith table.span root wanted) ⟨2 ^ 64 - 1, none⟩
    reject (state.found.any Prod.snd && !recursive)
      ⟨.unsupported, "recursive CTE execution is not supported"⟩
    return state.found.map fun found => found.1.id

/-- A WITH clause around a reference with its definitions in scope there; the mark is for the
one that the reference is in. -/
structure Scope where
  clause : With
  visible : List (Cte × Bool)

def Scope.find (wanted : Bytes) (scope : Scope) : Option (Cte × Bool) :=
  scope.visible.find? fun entry => entry.1.name = wanted

/-- The definition of the innermost scope that has one. -/
def lexical (scopes : List Scope) (wanted : Bytes) : Option (Cte × Bool) :=
  scopes.findSome? (Scope.find wanted)

def Span.In (one other : Span) : Prop :=
  other.offset ≤ one.offset ∧ one.offset + one.length ≤ other.offset + other.length

def Span.Apart (one other : Span) : Prop :=
  one.offset + one.length ≤ other.offset ∨ other.offset + other.length ≤ one.offset

/-- A reference in a piece of a statement whose spans nest: the WITH clauses of the piece, and
the scopes around the reference from the inside out. -/
inductive Lies (table : Span) : Span → List With → List Scope → Prop
  | here : Lies table table [] []
  | beside {span clauses scopes} {others : List With} (lies : Lies table span clauses scopes)
      (apart : ∀ other ∈ others, other.span.Apart span) :
      Lies table span (others ++ clauses) scopes
  | body {span clauses scopes} {clause : With} (lies : Lies table span clauses scopes)
      (inside : span.In clause.span) (less : span.length < clause.span.length)
      (apart : ∀ cte ∈ clause.bindings, cte.query.Apart span) :
      Lies table clause.span (clause :: clauses)
        (scopes ++ [⟨clause, clause.bindings.map (·, false)⟩])
  | definition {span clauses scopes before own after} {clause : With}
      (bindings : clause.bindings = before ++ own :: after)
      (lies : Lies table span clauses scopes) (inner : span.In own.query)
      (inside : own.query.In clause.span) (less : own.query.length < clause.span.length)
      (apart : ∀ cte ∈ before, cte.query.Apart own.query) :
      Lies table clause.span (clause :: clauses) (scopes ++
        [⟨clause, before.map (·, false) ++ if clause.recursive then [(own, true)] else []⟩])

section Lexical

variable {table root span : Span} {clauses document : List With} {scopes : List Scope}
  {wanted : Bytes}

theorem cteBindInside_iff : cteBindInside span root ↔ span.In root := by
  simp only [cteBindInside, Bool.and_eq_true, decide_eq_true_eq, Span.In]
  omega

theorem cteBindInside_trans (first : cteBindInside table span) (second : cteBindInside span root) :
    cteBindInside table root := by
  rw [cteBindInside_iff, Span.In] at *
  omega

theorem Span.Apart.outside {other : Span} (apart : other.Apart span)
    (inside : cteBindInside table span) (nonempty : 0 < table.length) :
    cteBindInside table other = false := by
  rw [← Bool.not_eq_true]
  rw [cteBindInside_iff, In] at *
  unfold Apart at apart
  omega

theorem cteBindBindings_append {recursive : Bool} {before later : List Cte}
    (outside : ∀ cte ∈ before, cteBindInside table cte.query = false) :
    cteBindBindings table recursive wanted (before ++ later) =
      ((before.map (·, false)).find? fun entry => entry.1.name = wanted).or
        (cteBindBindings table recursive wanted later) := by
  induction before with
  | nil => rfl
  | cons cte before ih =>
    rw [forall_mem_cons] at outside
    simp only [cons_append, cteBindBindings, outside.1, ih outside.2, map_cons,
      find?_cons]
    by_cases named : cte.name = wanted <;> simp [named]

/-- What spans tell of a reference: the clauses it is in are those of the scopes around it, which
get longer from the inside out, and the loop over the definitions of such a clause goes through
those in scope. -/
structure Placed (table span : Span) (clauses : List With) (scopes : List Scope) : Prop where
  inside : cteBindInside table span
  around : ∀ clause, clause ∈ clauses ∧ cteBindInside table clause.span ↔
    clause ∈ scopes.map Scope.clause
  find : ∀ scope ∈ scopes, ∀ wanted, cteBindBindings table scope.clause.recursive wanted
    scope.clause.bindings = scope.find wanted
  short : ∀ scope ∈ scopes, scope.clause.span.length ≤ span.length
  longer : scopes.Pairwise fun inner outer => inner.clause.span.length < outer.clause.span.length

theorem Placed.scope {clause : With} {visible : List (Cte × Bool)}
    (placed : Placed table span clauses scopes) (inside : cteBindInside span clause.span)
    (less : span.length < clause.span.length)
    (find : ∀ wanted, cteBindBindings table clause.recursive wanted clause.bindings =
      Scope.find wanted ⟨clause, visible⟩) :
    Placed table clause.span (clause :: clauses) (scopes ++ [⟨clause, visible⟩]) where
  inside := cteBindInside_trans placed.inside inside
  around := by
    have inside := cteBindInside_trans placed.inside inside
    simp only [mem_cons, map_append, map_cons, map_nil, mem_append,
      not_mem_nil, or_false, ← placed.around]
    grind
  find := forall_mem_append.mpr ⟨placed.find, forall_mem_singleton.mpr find⟩
  short := by
    have short := placed.short
    grind
  longer := by
    refine pairwise_append.mpr ⟨placed.longer, pairwise_singleton _ _, ?_⟩
    simpa using fun scope member => Nat.lt_of_le_of_lt (placed.short scope member) less

theorem Lies.placed (lies : Lies table span clauses scopes) (nonempty : 0 < table.length) :
    Placed table span clauses scopes := by
  induction lies with
  | here => exact ⟨by simp [cteBindInside_iff, Span.In], by simp, by simp, by simp, by simp⟩
  | beside _ apart placed =>
    refine { placed with around := fun clause => ?_ }
    rw [← placed.around, mem_append]
    refine and_congr_left fun inside => or_iff_right fun other => ?_
    simp [(apart clause other).outside placed.inside nonempty] at inside
  | @body _ _ _ clause _ inside less apart placed =>
    refine placed.scope (cteBindInside_iff.mpr inside) less fun wanted => ?_
    rw [← append_nil clause.bindings, cteBindBindings_append fun cte member =>
      (apart cte member).outside placed.inside nonempty, append_nil]
    exact Option.or_none
  | @definition _ _ _ _ own _ clause bindings _ inner inside less apart placed =>
    have within := cteBindInside_trans placed.inside (cteBindInside_iff.mpr inner)
    have inside' := cteBindInside_trans (cteBindInside_iff.mpr inner) (cteBindInside_iff.mpr inside)
    refine placed.scope inside' ?_ fun wanted => ?_
    · unfold Span.In at inner
      omega
    · rw [bindings, cteBindBindings_append fun cte member =>
        (apart cte member).outside within nonempty, cteBindBindings, within, Scope.find,
        find?_append]
      cases clause.recursive <;> by_cases named : own.name = wanted <;> simp [named]

def With.hit (table root : Span) (wanted : Bytes) (clause : With) : Option (Cte × Bool) :=
  if cteBindInside clause.span root && cteBindInside table clause.span then
    cteBindBindings table clause.recursive wanted clause.bindings
  else none

theorem cteBindWith_eq (state : CteFound) (clause : With) :
    cteBindWith table root wanted state clause =
      match clause.hit table root wanted with
      | none => state
      | some found =>
        if clause.span.length ≥ state.shortest then state else ⟨clause.span.length, some found⟩ := by
  unfold cteBindWith With.hit
  cases cteBindInside clause.span root <;> cases cteBindInside table clause.span <;>
    cases cteBindBindings table clause.recursive wanted clause.bindings <;> simp

/-- The shortest of the clauses gone through that has something for the reference. -/
def CteFound.Best (hit : With → Option (Cte × Bool)) (done : List With) (state : CteFound) : Prop :=
  state = ⟨2 ^ 64 - 1, none⟩ ∧ (∀ clause ∈ done, hit clause = none) ∨
    ∃ clause ∈ done, ∃ found, hit clause = some found ∧
      state = ⟨clause.span.length, some found⟩ ∧
      ∀ other ∈ done, hit other ≠ none → clause.span.length ≤ other.span.length

theorem CteFound.Best.foldl {done : List With} {state : CteFound}
    (best : state.Best (With.hit table root wanted) done) (document : List With) :
    (document.foldl (cteBindWith table root wanted) state).Best (With.hit table root wanted)
      (done ++ document) := by
  induction document generalizing done state with
  | nil => simpa using best
  | cons clause document ih =>
    have step : (cteBindWith table root wanted state clause).Best (With.hit table root wanted)
        (done ++ [clause]) := by
      have addressable := clause.span.addressable
      rw [cteBindWith_eq]
      cases found : clause.hit table root wanted with
      | none => grind [CteFound.Best]
      | some entry => split_ifs <;> grind [CteFound.Best]
    simpa using ih step

/-- Among scopes that get longer the shortest one with a definition is the innermost. -/
theorem Placed.lexical {state : CteFound} (placed : Placed table span clauses scopes)
    (all : ∀ clause, clause ∈ document ∧ clause.span.In root ↔ clause ∈ clauses)
    (best : state.Best (With.hit table root wanted) document) :
    state.found = lexical scopes wanted := by
  have hits : ∀ scope ∈ scopes, scope.clause ∈ document ∧
      scope.clause.hit table root wanted = scope.find wanted := by
    intro scope member
    obtain ⟨here, inside⟩ := (placed.around _).mpr (mem_map_of_mem member)
    obtain ⟨listed, within⟩ := (all _).mpr here
    exact ⟨listed, by rw [With.hit, cteBindInside_iff.mpr within, inside, ← placed.find scope member]; rfl⟩
  rcases best with ⟨rfl, none⟩ | ⟨clause, listed, found, hit, rfl, least⟩
  · refine (findSome?_eq_none_iff.mpr fun scope member => ?_).symm
    rw [← (hits scope member).2, none _ (hits scope member).1]
  have inside : cteBindInside clause.span root ∧ cteBindInside table clause.span := by
    by_contra outside
    simp [With.hit, outside] at hit
  obtain ⟨scope, member, rfl⟩ := mem_map.mp
    ((placed.around clause).mp ⟨(all clause).mp ⟨listed, cteBindInside_iff.mp inside.1⟩, inside.2⟩)
  rw [(hits scope member).2] at hit
  cases resolved : Query.lexical scopes wanted with
  | none => simp [findSome?_eq_none_iff.mp resolved scope member] at hit
  | some entry =>
    obtain ⟨inner, first, outer, rfl, here, before⟩ := findSome?_eq_some_iff.mp resolved
    have shorter := least _ (hits first (by simp)).1 (by rw [(hits first (by simp)).2, here]; nofun)
    obtain within | rfl | around : scope ∈ inner ∨ scope = first ∨ scope ∈ outer := by
      simpa using member
    · simp [before scope within] at hit
    · exact hit.symm.trans here
    · have longer := (pairwise_cons.mp (pairwise_append.mp placed.longer).2.1).1
      exact absurd (longer scope around) (by omega)

end Lexical

/-- A table name stands for the definition that lexical scope gives it: the one of the innermost
WITH clause around it with a definition of that name in scope, or none. A reference to the
definition it is in is refused where recursive execution is not supported. -/
theorem cte_bind_table_lexical {document clauses : List With} {root span : Span}
    {scopes : List Scope} {table : TableRef} (lies : Lies table.span span clauses scopes)
    (nonempty : 0 < table.span.length)
    (all : ∀ clause, clause ∈ document ∧ clause.span.In root ↔ clause ∈ clauses)
    (recursive : Bool) :
    (table.wanted = none → cteBindTable document root recursive table = .ok none) ∧
    ∀ wanted, table.wanted = some (.ok wanted) →
      cteBindTable document root recursive table =
        match lexical scopes wanted with
        | none => .ok none
        | some (cte, own) =>
          if own && !recursive then
            .error ⟨.unsupported, "recursive CTE execution is not supported"⟩
          else .ok (some cte.id) := by
  refine ⟨fun other => by rw [cteBindTable, other]; rfl, fun wanted named => ?_⟩
  have start : (⟨2 ^ 64 - 1, none⟩ : CteFound).Best (With.hit table.span root wanted) [] :=
    .inl ⟨rfl, by simp⟩
  have found := (lies.placed nonempty).lexical all (start.foldl document)
  rw [cteBindTable, named]
  simp only [ok_bind, found]
  cases lexical scopes wanted with
  | none => rfl
  | some entry =>
    obtain ⟨cte, own⟩ := entry
    cases own <;> cases recursive <;> rfl

/-- A name that a clause in the second definition of another one defines again. -/
theorem cte_bind_table_lexical_nested :
    let first : Cte := ⟨1, [97], ⟨5, 10, by decide⟩⟩
    let second : Cte := ⟨2, [98], ⟨20, 60, by decide⟩⟩
    let outer : With := ⟨⟨0, 100, by decide⟩, false, [first, second]⟩
    let again : Cte := ⟨3, [97], ⟨26, 10, by decide⟩⟩
    let inner : With := ⟨⟨21, 58, by decide⟩, false, [again]⟩
    let table : TableRef := ⟨⟨60, 1, by decide⟩, some ⟨1, .ok [97]⟩, false, false⟩
    cteBindTable [outer, inner] outer.span false table = .ok (some 3) := by
  intro first second outer again inner table
  have body : Lies table.span inner.span [inner] [⟨inner, [(again, false)]⟩] :=
    .body .here ⟨by decide, by decide⟩ (by decide) (forall_mem_singleton.mpr (.inl (by decide)))
  have lies : Lies table.span outer.span [outer, inner]
      [⟨inner, [(again, false)]⟩, ⟨outer, [(first, false)]⟩] :=
    .definition rfl body ⟨by decide, by decide⟩ ⟨by decide, by decide⟩ (by decide)
      (forall_mem_singleton.mpr (.inl (by decide)))
  have within : ∀ clause ∈ [outer, inner], clause.span.In outer.span := by
    simp [Span.In, outer, inner]
  exact (cte_bind_table_lexical lies Nat.one_pos
    (fun clause => and_iff_left_of_imp (within clause)) false).2 [97] rfl

end TurboDb.Query
