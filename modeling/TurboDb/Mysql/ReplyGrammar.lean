import TurboDb.Library.Grammar
import TurboDb.Mysql.Dispatch

/-!
The grammar of replies.

What the server may answer to each command, as a language over the packets it
sends, and for each phase of the dispatcher the words it is still to send. A
packet that is sent leads from the language of a phase to that of the next.
-/

namespace TurboDb.Mysql

open ByteOrder Effect Grammar Language
open scoped Computability

def IsColumn (r : Response) : Prop := ∃ definition, r = .column definition

def IsEof (r : Response) : Prop := ∃ packet, r = .eof packet

def IsErr (r : Response) : Prop := ∃ code sqlstate message, r = .err code sqlstate message

def IsOk (deprecated : Bool) (r : Response) : Prop :=
  ∃ packet, packet.header = 0 ∧ r = .ok packet deprecated

def IsRow (binary : Bool) (r : Response) : Prop := ∃ values, r = .row values binary

def IsTerminator (deprecated : Bool) (r : Response) : Prop :=
  if deprecated then ∃ packet, packet.header = responseEofMarker ∧ r = .ok packet true
  else IsEof r

def mark (deprecated : Bool) : Language Response := if deprecated then 1 else letter IsEof

def definitions (deprecated : Bool) (n : Nat) : Language Response :=
  if n = 0 then 1 else letter IsColumn ^ n * mark deprecated

def rowsTail (deprecated binary : Bool) : Language Response :=
  (letter (IsRow binary))∗ * letter (IsTerminator deprecated)

def rowsReply (deprecated binary : Bool) (n : Nat) : Language Response :=
  letter (· = .count n) * (letter IsColumn ^ n * (mark deprecated * rowsTail deprecated binary))

def prepareReply (deprecated : Bool) (p : PrepareOk) : Language Response :=
  letter (· = .prepare p) *
    (definitions deprecated p.parameterCount.toNat * definitions deprecated p.columnCount.toNat)

/-- The replies of a command that returns rows or not. -/
def queryReply (deprecated binary : Bool) : Language Response :=
  letter (IsOk deprecated) + union fun n => rowsReply deprecated binary (n + 1)

def replyWords (deprecated : Bool) : CommandKind → Language Response
  | .quit | .stmtClose => 1
  | .ping | .stmtReset => letter (IsOk deprecated)
  | .stmtPrepare => union (prepareReply deprecated)
  | .query => queryReply deprecated false
  | .stmtExecute => queryReply deprecated true

def replies (deprecated : Bool) : Option CommandKind → Language Response
  | none => letter IsErr
  | some kind => interrupted (replyWords deprecated kind) IsErr

variable {deprecated binary : Bool} {r : Response}

theorem prefixFree_mark : PrefixFree (mark deprecated) := by
  unfold mark
  split_ifs
  exacts [prefixFree_one, prefixFree_letter]

theorem prefixFree_definitions (n : Nat) : PrefixFree (definitions deprecated n) := by
  unfold definitions
  split_ifs
  exacts [prefixFree_one, (prefixFree_letter.pow n).mul prefixFree_mark]

theorem IsTerminator.not_row (last : IsTerminator deprecated r) : ¬IsRow binary r := by
  rintro ⟨values, rfl⟩
  cases deprecated with
  | true =>
    obtain ⟨packet, -, h⟩ := last
    cases h
  | false =>
    obtain ⟨packet, h⟩ := last
    cases h

theorem prefixFree_rowsTail : PrefixFree (rowsTail deprecated binary) := by
  refine prefixFree_letter.star_mul ?_ fun a w mem => ?_
  · rintro ⟨a, -, h⟩
    cases h
  · obtain ⟨b, last, h⟩ := mem
    rw [(List.cons.inj h).1]
    exact last.not_row

theorem prefixFree_rowsReply (n : Nat) : PrefixFree (rowsReply deprecated binary n) :=
  prefixFree_letter.mul ((prefixFree_letter.pow n).mul (prefixFree_mark.mul prefixFree_rowsTail))

theorem prefixFree_prepareReply (p : PrepareOk) : PrefixFree (prepareReply deprecated p) :=
  prefixFree_letter.mul ((prefixFree_definitions _).mul (prefixFree_definitions _))

theorem prefixFree_queryReply : PrefixFree (queryReply deprecated binary) := by
  refine prefixFree_letter.add (prefixFree_union (fun n => prefixFree_rowsReply (n + 1)) ?_ ?_)
    nil_notMem_letter ?_ ?_
  · exact fun n => nil_notMem_letter_mul
  · intro i j a u v hi hj
    have first := head_of_letter_mul (p := (· = Response.count (i + 1))) hi
    have second := head_of_letter_mul (p := (· = Response.count (j + 1))) hj
    simpa using first.symm.trans second
  · rintro ⟨n, mem⟩
    exact nil_notMem_letter_mul mem
  · rintro a u v ⟨b, ⟨packet, -, rfl⟩, h⟩ ⟨n, mem⟩
    cases (head_of_letter_mul mem).symm.trans (List.cons.inj h).1

theorem prefixFree_replyWords (kind : CommandKind) : PrefixFree (replyWords deprecated kind) := by
  cases kind with
  | quit | stmtClose => exact prefixFree_one
  | ping | stmtReset => exact prefixFree_letter
  | query | stmtExecute => exact prefixFree_queryReply
  | stmtPrepare =>
    refine prefixFree_union prefixFree_prepareReply (fun p => nil_notMem_letter_mul) ?_
    intro p q a u v hp hq
    have first := head_of_letter_mul (p := (· = Response.prepare p)) hp
    have second := head_of_letter_mul (p := (· = Response.prepare q)) hq
    simpa using first.symm.trans second

theorem avoids_mark : Avoids IsErr (mark deprecated) := by
  unfold mark
  split_ifs
  · exact avoids_one
  · exact avoids_letter (by rintro _ ⟨packet, rfl⟩ ⟨_, _, _, h⟩; cases h)

theorem avoids_columns (n : Nat) : Avoids IsErr (letter IsColumn ^ n) :=
  (avoids_letter (by rintro _ ⟨definition, rfl⟩ ⟨_, _, _, h⟩; cases h)).pow n

theorem avoids_definitions (n : Nat) : Avoids IsErr (definitions deprecated n) := by
  unfold definitions
  split_ifs
  exacts [avoids_one, (avoids_columns n).mul avoids_mark]

theorem IsTerminator.not_err (last : IsTerminator deprecated r) : ¬IsErr r := by
  rintro ⟨_, _, _, rfl⟩
  cases deprecated with
  | true =>
    obtain ⟨packet, -, h⟩ := last
    cases h
  | false =>
    obtain ⟨packet, h⟩ := last
    cases h

theorem avoids_rowsTail : Avoids IsErr (rowsTail deprecated binary) :=
  (avoids_letter (by rintro _ ⟨values, rfl⟩ ⟨_, _, _, h⟩; cases h)).star.mul
    (avoids_letter fun _ last => last.not_err)

theorem avoids_ok : Avoids IsErr (letter (IsOk deprecated)) :=
  avoids_letter (by rintro _ ⟨packet, -, rfl⟩ ⟨_, _, _, h⟩; cases h)

theorem avoids_queryReply : Avoids IsErr (queryReply deprecated binary) := by
  refine avoids_ok.add (avoids_union fun n => (avoids_letter ?_).mul
    ((avoids_columns _).mul (avoids_mark.mul avoids_rowsTail)))
  rintro _ rfl ⟨_, _, _, h⟩
  cases h

theorem avoids_replyWords (kind : CommandKind) : Avoids IsErr (replyWords deprecated kind) := by
  cases kind with
  | quit | stmtClose => exact avoids_one
  | ping | stmtReset => exact avoids_ok
  | query | stmtExecute => exact avoids_queryReply
  | stmtPrepare =>
    refine avoids_union fun p => (avoids_letter ?_).mul
      ((avoids_definitions _).mul (avoids_definitions _))
    rintro _ rfl ⟨_, _, _, h⟩
    cases h

/-- A reply tells where it ends. -/
theorem prefixFree_replies (kind : Option CommandKind) : PrefixFree (replies deprecated kind) := by
  cases kind with
  | none => exact prefixFree_letter
  | some kind => exact (prefixFree_replyWords kind).interrupted (avoids_replyWords kind)

section Phases

variable {σ : Type} (sdk : Sdk σ)

/-- What is still to be sent in a phase. -/
def rest (d : Dispatch) : Language Response :=
  let columns := definitions d.deprecateEof d.prepared.columnCount.toNat
  let rows := rowsTail d.deprecateEof d.binary
  match d.phase with
  | .prepare => prepareReply d.deprecateEof d.prepared
  | .parameters =>
    letter IsColumn ^ (d.prepared.parameterCount.toNat - d.index) * (mark d.deprecateEof * columns)
  | .parameterEnd => letter IsEof * columns
  | .prepareColumns =>
    letter IsColumn ^ (d.prepared.columnCount.toNat - d.index) * mark d.deprecateEof
  | .prepareEnd => letter IsEof
  | .count => rowsReply d.deprecateEof d.binary (dispatchColumns sdk d.response.result)
  | .columns =>
    letter IsColumn ^ (dispatchColumns sdk d.response.result - d.index) *
      (mark d.deprecateEof * rows)
  | .metadataEnd => letter IsEof * rows
  | .rows => rows
  | .ending => letter (IsTerminator d.deprecateEof)
  | .ok => letter (IsOk d.deprecateEof)
  | .error => letter IsErr
  | .idle | .terminal => 1

def dispatchAcknowledged (d : Dispatch) : Dispatch :=
  { d with
    sequence := d.nextSequence
    pending := false
    emitted := false
    phase := (dispatchNext sdk d).1
    index := (dispatchNext sdk d).2 }

def Bounds (d : Dispatch) (phase : Phase) (index : Nat) : Prop :=
  match phase with
  | .parameters => index < d.prepared.parameterCount.toNat
  | .parameterEnd => d.deprecateEof = false ∧ index = 0
  | .prepareColumns => index < d.prepared.columnCount.toNat
  | .prepareEnd | .metadataEnd => d.deprecateEof = false
  | .count => 0 < dispatchColumns sdk d.response.result
  | .columns => index < dispatchColumns sdk d.response.result
  | _ => True

def InPhase (d : Dispatch) : Prop := Bounds sdk d d.phase d.index

/-- The packets that a phase may send. -/
def Fits (d : Dispatch) (r : Response) : Prop :=
  match d.phase with
  | .prepare => r = .prepare d.prepared
  | .parameters | .prepareColumns | .columns => IsColumn r
  | .parameterEnd | .prepareEnd | .metadataEnd => IsEof r
  | .count => r = .count (dispatchColumns sdk d.response.result)
  | .rows => IsRow d.binary r
  | .ending => IsTerminator d.deprecateEof r
  | .ok => IsOk d.deprecateEof r
  | .error => IsErr r
  | .idle | .terminal => False

variable {sdk} {d : Dispatch}

theorem rest_prepareColumns (phase : d.phase = dispatchPrepareColumns d) (index : d.index = 0) :
    rest sdk d = definitions d.deprecateEof d.prepared.columnCount.toNat := by
  unfold dispatchPrepareColumns at phase
  split_ifs at phase with some
  · have : d.prepared.columnCount.toNat ≠ 0 := fun h => some (UInt16.toNat_inj.mp h)
    simp [rest, phase, definitions, this, index]
  · simp only [not_not] at some
    simp [rest, phase, definitions, some]

/-- The definitions of one group: the last one leads to the mark, if there is one. -/
theorem advance_definition (deprecated : Bool) {index count : Nat} {m : Language Response}
    (column : IsColumn r) (inside : index < count) :
    Advance r (letter IsColumn ^ (count - index) * (mark deprecated * m))
      (if index + 1 = count then (if deprecated then m else letter IsEof * m)
        else letter IsColumn ^ (count - (index + 1)) * (mark deprecated * m)) := by
  have next := advance_pow (m := mark deprecated * m) column (Nat.sub_pos_of_lt inside)
  rw [Nat.sub_sub] at next
  split_ifs with last deprecated
  · simpa [last, mark, deprecated] using next
  · simpa [last, mark, deprecated] using next
  · exact next

/-- A packet leads from what is to be sent in a phase to what is to be sent in the next. -/
theorem Fits.advance (fits : Fits sdk d r) (inPhase : InPhase sdk d) :
    Advance r (rest sdk d) (rest sdk (dispatchAcknowledged sdk d)) := by
  have columns (phase : (dispatchAcknowledged sdk d).phase = dispatchPrepareColumns d)
      (index : (dispatchAcknowledged sdk d).index = 0) :
      rest sdk (dispatchAcknowledged sdk d) =
        definitions d.deprecateEof d.prepared.columnCount.toNat :=
    rest_prepareColumns phase index
  unfold Fits at fits
  unfold InPhase at inPhase
  cases phase : d.phase <;> rw [phase] at fits inPhase
  case idle | terminal => exact fits.elim
  case prepare =>
      have before : rest sdk d = prepareReply d.deprecateEof d.prepared := by simp [rest, phase]
      have next := advance_letter_mul (p := (· = .prepare d.prepared))
        (m := definitions d.deprecateEof d.prepared.parameterCount.toNat *
          definitions d.deprecateEof d.prepared.columnCount.toNat) fits
      rw [before, prepareReply]
      by_cases none : d.prepared.parameterCount = 0
      · rw [columns (by simp [dispatchAcknowledged, dispatchNext, phase, none])
          (by simp [dispatchAcknowledged, dispatchNext, phase])]
        simpa [definitions, none] using next
      · have some : d.prepared.parameterCount.toNat ≠ 0 := fun h => none (UInt16.toNat_inj.mp h)
        simpa [rest, dispatchAcknowledged, dispatchNext, phase, none, definitions, some,
          mul_assoc] using next
  case parameters =>
      have next := advance_definition d.deprecateEof
        (m := definitions d.deprecateEof d.prepared.columnCount.toNat) fits inPhase
      have before : rest sdk d = letter IsColumn ^ (d.prepared.parameterCount.toNat - d.index) *
          (mark d.deprecateEof * definitions d.deprecateEof d.prepared.columnCount.toNat) := by
        simp [rest, phase]
      rw [before]
      split_ifs at next with last deprecated
      · rwa [columns (by simp [dispatchAcknowledged, dispatchNext, phase, last, deprecated])
          (by simp [dispatchAcknowledged, dispatchNext, phase, last])]
      · simpa [rest, dispatchAcknowledged, dispatchNext, phase, last, deprecated] using next
      · simpa [rest, dispatchAcknowledged, dispatchNext, phase, last] using next
  case parameterEnd =>
      rw [columns (by simp [dispatchAcknowledged, dispatchNext, phase])
        (by simp [dispatchAcknowledged, dispatchNext, phase, inPhase.2])]
      simp only [rest, phase]
      exact advance_letter_mul fits
  case prepareColumns =>
      have next := advance_definition d.deprecateEof (m := 1) fits inPhase
      split_ifs at next
      all_goals simpa [rest, dispatchAcknowledged, dispatchNext, phase, *] using next
  case columns =>
      have next := advance_definition d.deprecateEof (m := rowsTail d.deprecateEof d.binary) fits
        inPhase
      split_ifs at next with last deprecated
      · simpa [rest, dispatchAcknowledged, dispatchNext, phase, last, deprecated] using next
      · simpa [rest, dispatchAcknowledged, dispatchNext, phase, last, deprecated] using next
      · simpa [rest, dispatchAcknowledged, dispatchNext, phase, last] using next
  case count | metadataEnd =>
      simp only [rest, dispatchAcknowledged, dispatchNext, phase, rowsReply, Nat.sub_zero]
      exact advance_letter_mul fits
  case rows =>
      simp only [rest, dispatchAcknowledged, dispatchNext, phase, rowsTail]
      exact advance_star fits
  case prepareEnd | ending | ok =>
      simp only [rest, dispatchAcknowledged, dispatchNext, phase]
      exact advance_letter fits
  case error =>
      have past : rest sdk (dispatchAcknowledged sdk d) = 1 := by
        by_cases close : d.closeAfterReply = true <;>
          simp [rest, dispatchAcknowledged, dispatchNext, phase, close]
      rw [past]
      simp only [rest, phase]
      exact advance_letter fits

theorem isColumn_some : IsColumn (.column ⟨none, none, none, none, none, none, 0, 0, 0, 0, 0⟩) :=
  ⟨_, rfl⟩

theorem isEof_some : IsEof (.eof ⟨0, 0⟩) := ⟨_, rfl⟩

theorem isOk_some : IsOk deprecated (.ok ⟨0, 0, 0, 0, 0, none, []⟩ deprecated) := ⟨_, rfl, rfl⟩

theorem isTerminator_some (deprecated : Bool) : ∃ r, IsTerminator deprecated r := by
  cases deprecated with
  | true => exact ⟨_, ⟨responseEofMarker, 0, 0, 0, 0, none, []⟩, rfl, rfl⟩
  | false => exact ⟨_, isEof_some⟩

theorem mark_some (deprecated : Bool) : ∃ w, w ∈ mark deprecated := by
  cases deprecated with
  | true => exact ⟨[], nil_mem_one⟩
  | false => exact ⟨[_], singleton_mem_letter.mpr isEof_some⟩

theorem definitions_some (deprecated : Bool) (n : Nat) : ∃ w, w ∈ definitions deprecated n := by
  unfold definitions
  split_ifs
  · exact ⟨[], nil_mem_one⟩
  · obtain ⟨w, mem⟩ := mark_some deprecated
    exact ⟨_, append_mem_mul (exists_mem_pow isColumn_some n) mem⟩

theorem rowsTail_some (deprecated binary : Bool) : ∃ w, w ∈ rowsTail deprecated binary := by
  obtain ⟨r, last⟩ := isTerminator_some deprecated
  exact ⟨_, append_mem_mul (nil_mem_kstar _) (singleton_mem_letter.mpr last)⟩

theorem markRows_some (deprecated binary : Bool) : ∃ w, w ∈ mark deprecated * rowsTail deprecated binary := by
  obtain ⟨u, hu⟩ := mark_some deprecated
  obtain ⟨v, hv⟩ := rowsTail_some deprecated binary
  exact ⟨_, append_mem_mul hu hv⟩

theorem proper_rowsReply (n : Nat) : Proper (rowsReply deprecated binary n) := by
  obtain ⟨w, mem⟩ := markRows_some deprecated binary
  exact (proper_letter (p := (· = .count n)) rfl).mul
    (append_mem_mul (exists_mem_pow isColumn_some n) mem)

theorem proper_prepareReply (p : PrepareOk) : Proper (prepareReply deprecated p) := by
  obtain ⟨u, hu⟩ := definitions_some deprecated p.parameterCount.toNat
  obtain ⟨v, hv⟩ := definitions_some deprecated p.columnCount.toNat
  exact (proper_letter (p := (· = .prepare p)) rfl).mul (append_mem_mul hu hv)

def Phase.active : Phase → Bool
  | .idle | .terminal | .error => false
  | _ => true

theorem proper_rest (active : d.phase.active) (inPhase : InPhase sdk d) :
    Proper (rest sdk d) := by
  unfold InPhase at inPhase
  unfold rest
  cases phase : d.phase with
  | idle | terminal | error => rw [phase] at active; cases active
  | prepare => exact proper_prepareReply _
  | parameters =>
    rw [phase] at inPhase
    obtain ⟨u, hu⟩ := mark_some d.deprecateEof
    obtain ⟨v, hv⟩ := definitions_some d.deprecateEof d.prepared.columnCount.toNat
    exact (proper_pow isColumn_some (Nat.sub_pos_of_lt inPhase)).mul
      (append_mem_mul hu hv)
  | parameterEnd =>
    obtain ⟨v, hv⟩ := definitions_some d.deprecateEof d.prepared.columnCount.toNat
    exact (proper_letter isEof_some).mul hv
  | prepareColumns =>
    rw [phase] at inPhase
    obtain ⟨u, hu⟩ := mark_some d.deprecateEof
    exact (proper_pow isColumn_some (Nat.sub_pos_of_lt inPhase)).mul hu
  | prepareEnd => exact proper_letter isEof_some
  | count => exact proper_rowsReply _
  | columns =>
    rw [phase] at inPhase
    obtain ⟨u, hu⟩ := markRows_some d.deprecateEof d.binary
    exact (proper_pow isColumn_some (Nat.sub_pos_of_lt inPhase)).mul hu
  | metadataEnd =>
    obtain ⟨u, hu⟩ := rowsTail_some d.deprecateEof d.binary
    exact (proper_letter isEof_some).mul hu
  | rows =>
    obtain ⟨r, last⟩ := isTerminator_some d.deprecateEof
    exact (proper_letter last).mono le_star_mul
  | ending =>
    obtain ⟨r, last⟩ := isTerminator_some d.deprecateEof
    exact proper_letter last
  | ok => exact proper_letter isOk_some

end Phases

end TurboDb.Mysql
