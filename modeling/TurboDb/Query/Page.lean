import Mathlib.Logic.Relation
import TurboDb.Library.Effect
import TurboDb.Library.Words
import TurboDb.Status

/-!
The single page of a recursive common table expression.

The blocks of the definition are listed before the blocks inside of them. The
fold goes through them from the inside out, and turns their pages into one that is
applied to the collected rows. A page inside an operand of a UNION would cover
only some of the rows and is refused. What a LIMIT clause gives is part of the
block; the budget is left out.
-/

namespace TurboDb.Query

open Effect Words List Relation

structure Page where
  offset : UInt64
  limit : UInt64

def Page.select {α : Type} (page : Page) (rows : List α) : List α :=
  (rows.drop page.offset.toNat).take page.limit.toNat

/-- A block with its LIMIT clause, if it can have one. -/
inductive CteAst
  | union (limit : Option (Except Failure Page))
  | queryGroup (limit : Option (Except Failure Page))
  | other

inductive CteParts
  | initialPart | recursivePart | mixedParts
  deriving DecidableEq

structure CteShapeNode where
  ast : CteAst
  parent : Option Nat
  parts : CteParts

def CteAst.isUnion : CteAst → Bool
  | .union _ => true
  | _ => false

/-- The page of a block that covers both kinds of members. -/
def CteShapeNode.page (node : CteShapeNode) : Option (Except Failure Page) :=
  if node.parts ≠ .mixedParts then none
  else match node.ast with
    | .union limit => limit
    | .queryGroup limit => limit
    | .other => none

structure CteShape where
  nodes : List CteShapeNode
  preorder : ∀ (i : Nat) (node : CteShapeNode) (parent : Nat), nodes[i]? = some node →
    node.parent = some parent → parent < i

def partialPage : Failure := ⟨.unsupported, "recursive pagination must cover the complete CTE"⟩

def pageOverflow : Failure := ⟨.limitExceeded, "recursive pagination offset overflow"⟩

def cteAncestors (shape : CteShape) (parent : Nat) : Except Failure Unit :=
  match _here : shape.nodes[parent]? with
  | none => pure ()
  | some ancestor => do
    reject (ancestor.ast.isUnion = true) partialPage
    match _above : ancestor.parent with
    | none => pure ()
    | some next => cteAncestors shape next
termination_by parent
decreasing_by exact shape.preorder _ _ _ _here _above

/-- The rows that an outer page skips of an inner one. -/
def Page.skip (inner outer : Page) : UInt64 :=
  if outer.offset > inner.limit then inner.limit else outer.offset

def foldPage (inner outer : Page) : Except Failure Page :=
  let skip := inner.skip outer
  let left := inner.limit - skip
  let limit := if outer.limit < left then outer.limit else left
  if limit = 0 then .ok ⟨0, limit⟩
  else if skip > max - inner.offset then .error pageOverflow
  else .ok ⟨inner.offset + skip, limit⟩

def cteCovers (shape : CteShape) (node : CteShapeNode) : Except Failure Unit :=
  match node.parent with
  | none => pure ()
  | some parent => cteAncestors shape parent

def foldNode (shape : CteShape) (inner : Page) (node : CteShapeNode) : Except Failure Page :=
  match node.page with
  | none => pure inner
  | some page => do
    cteCovers shape node
    foldPage inner (← page)

def cteQueryPage (shape : CteShape) : Except Failure Page :=
  shape.nodes.reverse.foldlM (foldNode shape) ⟨0, max⟩

/-- A block over both kinds of members has this LIMIT clause. -/
def CteShapeNode.Paged (node : CteShapeNode) (limit : Except Failure Page) : Prop :=
  node.parts = .mixedParts ∧ (node.ast = .union (some limit) ∨ node.ast = .queryGroup (some limit))

def CteShape.Inside (shape : CteShape) (i parent : Nat) : Prop :=
  ∃ node, shape.nodes[i]? = some node ∧ node.parent = some parent

def CteShape.IsUnion (shape : CteShape) (i : Nat) : Prop :=
  ∃ node limit, shape.nodes[i]? = some node ∧ node.ast = .union limit

/-- The block lies in an operand of a UNION. -/
def CteShape.Partial (shape : CteShape) (i : Nat) : Prop :=
  ∃ above, TransGen shape.Inside i above ∧ shape.IsUnion above

/-- A page that covers only some of the rows is refused, or its LIMIT clause is wrong. -/
def CteShape.Refuses (shape : CteShape) (i : Nat) (e : Failure) : Prop :=
  ∃ node limit, shape.nodes[i]? = some node ∧ node.Paged limit ∧
    (shape.Partial i ∧ e = partialPage ∨ ¬ shape.Partial i ∧ limit = .error e)

def CteShapeNode.given (node : CteShapeNode) : Option Page :=
  match node.parts, node.ast with
  | .mixedParts, .union (some (.ok page)) => some page
  | .mixedParts, .queryGroup (some (.ok page)) => some page
  | _, _ => none

/-- The pages from the inside out. -/
def CteShape.pages (shape : CteShape) : List Page :=
  shape.nodes.reverse.filterMap CteShapeNode.given

def Page.Bounded (page : Page) : Prop := AddExact page.offset page.limit

theorem Page.skip_eq (inner outer : Page) :
    (inner.skip outer).toNat = min outer.offset.toNat inner.limit.toNat := by
  unfold skip
  split_ifs with beyond <;> rw [gt_iff_lt, UInt64.lt_iff_toNat_lt] at beyond <;> omega

variable {inner : Page} {shape : CteShape}

theorem Page.Bounded.skip (bounded : inner.Bounded) (outer : Page) :
    AddExact inner.offset (inner.skip outer) := by
  unfold Page.Bounded AddExact at *
  rw [Page.skip_eq]
  omega

/-- A page of a page is one page, and the fold finds it. -/
theorem foldPage_spec (bounded : inner.Bounded) (outer : Page) :
    ∃ page, foldPage inner outer = .ok page ∧ page.Bounded ∧
      ∀ (α : Type) (rows : List α), page.select rows = outer.select (inner.select rows) := by
  have skip := inner.skip_eq outer
  have exact := bounded.skip outer
  have left : (inner.limit - inner.skip outer).toNat =
      inner.limit.toNat - (inner.skip outer).toNat :=
    UInt64.toNat_sub_of_le _ _ (by rw [UInt64.le_iff_toNat_le]; omega)
  have room := UInt64.toNat_sub_of_le max inner.offset (le_max _)
  have selects {α : Type} (rows : List α) : outer.select (inner.select rows) =
      (rows.drop (inner.offset.toNat + outer.offset.toNat)).take
        (min outer.limit.toNat (inner.limit.toNat - outer.offset.toNat)) := by
    simp only [Page.select, drop_take, take_take, drop_drop]
  simp only [foldPage, selects]
  generalize inner.skip outer = skipped at *
  generalize limited : (if outer.limit < inner.limit - skipped then outer.limit
    else inner.limit - skipped) = limit
  have least : limit.toNat = min outer.limit.toNat (inner.limit.toNat - skipped.toNat) := by
    rw [← limited]
    split_ifs with less <;> rw [UInt64.lt_iff_toNat_lt] at less <;> omega
  simp only [Page.Bounded, AddExact, Page.select] at bounded exact ⊢
  split_ifs with empty past
  · refine ⟨_, rfl, by simpa using limit.toNat_lt, fun _ rows => ?_⟩
    have none : limit.toNat = 0 := by rw [empty]; rfl
    rw [none, take_zero, eq_comm, take_eq_nil_iff]
    exact .inl (by omega)
  · rw [gt_iff_lt, UInt64.lt_iff_toNat_lt, room] at past
    have largest : max.toNat = 2 ^ 64 - 1 := rfl
    omega
  · have some : limit.toNat ≠ 0 := fun zero => empty (UInt64.toNat_inj.mp zero)
    have sum : (inner.offset + skipped).toNat = inner.offset.toNat + outer.offset.toNat := by
      rw [UInt64.toNat_add, Nat.mod_eq_of_lt exact]
      omega
    have same : limit.toNat =
        min outer.limit.toNat (inner.limit.toNat - outer.offset.toNat) := by omega
    refine ⟨_, rfl, ?_, fun _ rows => by rw [sum, same]⟩
    dsimp only
    omega

theorem partial_iff {i : Nat} {node : CteShapeNode} (here : shape.nodes[i]? = some node) :
    shape.Partial i ↔ ∃ parent, node.parent = some parent ∧ (shape.IsUnion parent ∨ shape.Partial parent) := by
  have inside {parent : Nat} : shape.Inside i parent ↔ node.parent = some parent := by
    simp [CteShape.Inside, here]
  constructor
  · rintro ⟨above, path, union⟩
    obtain ⟨parent, step, path⟩ := TransGen.head'_iff.mp path
    obtain rfl | path := reflTransGen_iff_eq_or_transGen.mp path
    · exact ⟨_, inside.mp step, .inl union⟩
    · exact ⟨parent, inside.mp step, .inr ⟨above, path, union⟩⟩
  · rintro ⟨parent, step, union | ⟨above, path, union⟩⟩
    · exact ⟨parent, .single (inside.mpr step), union⟩
    · exact ⟨above, .head (inside.mpr step) path, union⟩

theorem cteAncestors_eq (parent : Nat) : cteAncestors shape parent =
    match shape.nodes[parent]? with
    | none => .ok ()
    | some ancestor => if ancestor.ast.isUnion then .error partialPage else cteCovers shape ancestor := by
  rw [cteAncestors]
  split
  · simp only [*]
    rfl
  · rename_i ancestor here
    simp only [here, cteCovers]
    cases union : ancestor.ast.isUnion <;> cases above : ancestor.parent <;> simp [reject]

theorem cteCovers_spec (i : Nat) {node : CteShapeNode} (here : shape.nodes[i]? = some node) :
    match cteCovers shape node with
    | .ok _ => ¬ shape.Partial i
    | .error e => e = partialPage ∧ shape.Partial i := by
  induction i using Nat.strong_induction_on generalizing node with
  | h i ih =>
    rw [cteCovers, partial_iff here]
    cases inside : node.parent with
    | none => rintro ⟨_, outer, -⟩; cases outer
    | some parent =>
      simp only [cteAncestors_eq, Option.some.injEq, exists_eq_left', not_or]
      cases there : shape.nodes[parent]? with
      | none =>
        refine ⟨by simp [CteShape.IsUnion, there], fun ⟨above, path, _⟩ => ?_⟩
        obtain ⟨_, ⟨_, missing, -⟩, -⟩ := TransGen.head'_iff.mp path
        simp [there] at missing
      | some ancestor =>
        have isUnion : shape.IsUnion parent ↔ ancestor.ast.isUnion := by
          cases kind : ancestor.ast <;> simp [CteShape.IsUnion, there, kind, CteAst.isUnion]
        have outer := ih parent (shape.preorder _ _ _ here inside) there
        by_cases union : ancestor.ast.isUnion
        · simp [isUnion, union]
        · simp only [isUnion, union, Bool.false_eq_true, if_false, not_false_eq_true, true_and, false_or]
          exact outer

theorem page_eq_some {node : CteShapeNode} {limit : Except Failure Page} :
    node.page = some limit ↔ node.Paged limit := by
  obtain ⟨ast, parent, parts⟩ := node
  cases ast <;> cases parts <;> simp [CteShapeNode.page, CteShapeNode.Paged]

theorem given_eq {node : CteShapeNode} : node.given = node.page.bind Except.toOption := by
  obtain ⟨ast, parent, parts⟩ := node
  rcases ast with (_ | _ | _) | (_ | _ | _) | _ <;> cases parts <;> rfl

theorem foldPages_ok (bounded : inner.Bounded) (pages : List Page) :
    ∃ page, pages.foldlM foldPage inner = .ok page ∧ page.Bounded := by
  induction pages generalizing inner with
  | nil => exact ⟨inner, rfl, bounded⟩
  | cons outer pages ih =>
    obtain ⟨folded, run, bounded, -⟩ := foldPage_spec bounded outer
    simpa only [foldlM_cons, run, ok_bind] using ih bounded

theorem foldNode_spec {i : Nat} {node : CteShapeNode} (bounded : inner.Bounded)
    (here : shape.nodes[i]? = some node) :
    match foldNode shape inner node with
    | .ok page => (∀ e, ¬ shape.Refuses i e) ∧ page.Bounded ∧
        ∀ (α : Type) (rows : List α), page.select rows =
          node.given.toList.foldl (fun rows page => page.select rows) (inner.select rows)
    | .error e => shape.Refuses i e := by
  have refuses {e : Failure} : shape.Refuses i e ↔ ∃ limit, node.Paged limit ∧
      (shape.Partial i ∧ e = partialPage ∨ ¬ shape.Partial i ∧ limit = .error e) := by
    simp [CteShape.Refuses, here]
  have covers := cteCovers_spec i here
  simp only [refuses, ← page_eq_some]
  rw [foldNode]
  cases paged : node.page with
  | none => exact ⟨by simp, bounded, fun _ rows => by rw [given_eq, paged]; rfl⟩
  | some limit =>
    dsimp only
    split at covers <;> rename_i run <;> rw [run]
    · cases limit with
      | error e => exact ⟨_, rfl, .inr ⟨covers, rfl⟩⟩
      | ok outer =>
        obtain ⟨folded, run, bounded, selects⟩ := foldPage_spec bounded outer
        simp only [ok_bind, run, given_eq, paged, selects]
        exact ⟨by simp [covers], bounded, fun _ _ => rfl⟩
    · exact ⟨limit, rfl, .inl covers.symm⟩

theorem bounded_all : Page.Bounded ⟨0, max⟩ := by
  unfold Page.Bounded
  decide

/-- What the fold over the blocks from `k` on comes to. -/
theorem foldNodes_spec (k : Nat) (nodes : List CteShapeNode) (behind : shape.nodes.drop k = nodes) :
    match nodes.reverse.foldlM (foldNode shape) ⟨0, max⟩ with
    | .ok page => (∀ i e, k ≤ i → ¬ shape.Refuses i e) ∧ page.Bounded ∧
        ∀ (α : Type) (rows : List α), page.select rows =
          (nodes.reverse.filterMap CteShapeNode.given).foldl (fun rows page => page.select rows)
            (Page.select ⟨0, max⟩ rows)
    | .error e => ∃ i, k ≤ i ∧ shape.Refuses i e ∧ ∀ j e', i < j → ¬ shape.Refuses j e' := by
  induction nodes generalizing k with
  | nil =>
    refine ⟨?_, bounded_all, fun _ rows => rfl⟩
    rintro i e past ⟨node, limit, here, -⟩
    have inside := (List.getElem?_eq_some_iff.mp here).1
    have := drop_eq_nil_iff.mp behind
    omega
  | cons node nodes ih =>
    have rest := ih (k + 1) (by rw [← drop_drop, behind]; rfl)
    have here : shape.nodes[k]? = some node := by
      rw [← Nat.add_zero k, ← getElem?_drop, behind]
      rfl
    rw [reverse_cons, foldlM_append]
    split at rest <;> rename_i run <;> rw [run]
    · obtain ⟨later, bounded, selects⟩ := rest
      have spec := foldNode_spec bounded here
      rw [ok_bind, foldlM_cons]
      split at spec <;> rename_i run <;> rw [run]
      · obtain ⟨covers, bounded, selected⟩ := spec
        refine ⟨fun i e past => ?_, bounded, fun α rows => ?_⟩
        · obtain rfl | past := past.eq_or_lt
          · exact covers e
          · exact later i e past
        · rw [selected, selects, filterMap_append, foldl_append]
          cases given : node.given <;> simp [given]
      · exact ⟨k, le_refl k, spec, later⟩
    · obtain ⟨i, past, refused⟩ := rest
      exact ⟨i, by omega, refused⟩

theorem CteShape.Refuses.unique {i : Nat} {e e' : Failure} (refuses : shape.Refuses i e)
    (refuses' : shape.Refuses i e') : e = e' := by
  obtain ⟨node, limit, here, paged, why⟩ := refuses
  obtain ⟨node', limit', here', paged', why'⟩ := refuses'
  obtain rfl : node = node' := Option.some.inj (here.symm.trans here')
  obtain rfl : limit = limit' :=
    Option.some.inj ((page_eq_some.mpr paged).symm.trans (page_eq_some.mpr paged'))
  grind

/-- The page of a recursive definition selects what its pages select one after the other from the
inside out, and the innermost page that is refused says why there is none. No addition wraps on the
way, so that the overflow it guards against is not reported. -/
theorem cte_page_selects (shape : CteShape) :
    ((∀ i e, ¬ shape.Refuses i e) → ∃ page, cteQueryPage shape = .ok page ∧
      ∀ (α : Type) (rows : List α), rows.length < 2 ^ 64 →
        page.select rows = shape.pages.foldl (fun rows page => page.select rows) rows) ∧
    (∀ i e, shape.Refuses i e → (∀ j e', i < j → ¬ shape.Refuses j e') →
      cteQueryPage shape = .error e) ∧
    ∀ inner outer rest, shape.pages = inner ++ outer :: rest → ∃ page,
      inner.foldlM foldPage ⟨0, max⟩ = .ok page ∧ AddExact page.offset (page.skip outer) ∧
        ∃ folded, foldPage page outer = .ok folded := by
  have spec := foldNodes_spec 0 shape.nodes rfl
  rw [← cteQueryPage] at spec
  refine ⟨fun covers => ?_, fun i e refused last => ?_, fun inner outer rest _ => ?_⟩
  · split at spec <;> rename_i run
    · obtain ⟨-, -, selects⟩ := spec
      refine ⟨_, run, fun α rows short => ?_⟩
      have all : Page.select ⟨0, max⟩ rows = rows := take_of_length_le (Nat.le_of_lt_succ short)
      rw [selects, all]
      rfl
    · obtain ⟨i, -, refused, -⟩ := spec
      exact absurd refused (covers i _)
  · split at spec <;> rename_i run
    · exact absurd refused (spec.1 i e (Nat.zero_le i))
    · obtain ⟨j, -, refused', last'⟩ := spec
      obtain rfl : i = j := le_antisymm (not_lt.mp fun less => last' i e less refused)
        (not_lt.mp fun less => last j _ less refused')
      rw [run, refused.unique refused']
  · obtain ⟨page, run, bounded⟩ := foldPages_ok bounded_all inner
    obtain ⟨folded, next, -⟩ := foldPage_spec bounded outer
    exact ⟨page, run, bounded.skip outer, folded, next⟩

def groupInGroup : CteShape where
  nodes := [⟨.queryGroup (some (.ok ⟨1, 10⟩)), none, .mixedParts⟩,
    ⟨.queryGroup (some (.ok ⟨4, 3⟩)), some 0, .mixedParts⟩, ⟨.union none, some 1, .mixedParts⟩]
  preorder := by rintro (_ | _ | _ | i) _ parent ⟨⟩ ⟨⟩ <;> decide

def groupInUnion : CteShape where
  nodes := [⟨.union (some (.ok ⟨1, 10⟩)), none, .mixedParts⟩,
    ⟨.queryGroup (some (.ok ⟨4, 3⟩)), some 0, .mixedParts⟩]
  preorder := by
    rintro (_ | _ | i) _ parent ⟨⟩ ⟨⟩
    decide

theorem cte_page_selects_groups :
    (∃ page, cteQueryPage groupInGroup = .ok page ∧ page.select [0, 1, 2, 3, 4, 5, 6, 7] = [5, 6]) ∧
      cteQueryPage groupInUnion = .error partialPage := by
  constructor
  · have outer : ¬ groupInGroup.Partial 0 := by
      rw [partial_iff rfl]
      simp
    have inner : ¬ groupInGroup.Partial 1 := by
      have group : ¬ groupInGroup.IsUnion 0 := by simp [CteShape.IsUnion, groupInGroup]
      rw [partial_iff rfl]
      simp [outer, group]
    obtain ⟨page, run, selects⟩ := (cte_page_selects groupInGroup).1 (by
      rintro (_ | _ | _ | i) e ⟨node, limit, here, paged, why⟩
      all_goals cases here
      all_goals simp_all [CteShapeNode.Paged])
    refine ⟨page, run, ?_⟩
    rw [selects _ _ (by decide)]
    rfl
  · refine (cte_page_selects groupInUnion).2.1 1 _ ?_ ?_
    · exact ⟨_, _, rfl, ⟨rfl, .inr rfl⟩, .inl ⟨⟨0, .single ⟨_, rfl, rfl⟩, _, _, rfl, rfl⟩, rfl⟩⟩
    · rintro (_ | _ | i) e past ⟨node, limit, here, -⟩
      all_goals simp [groupInUnion] at past here

end TurboDb.Query
