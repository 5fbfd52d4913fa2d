import TurboDb.Library.Effect
import TurboDb.Redis.Resp

/-!
A reader does not see how its input was cut.

How far the reader has looked for the end of a line is only kept to avoid
looking twice: a reader that looks from the offset again finds the same line.
Without that position its state depends on the bytes alone.
-/

namespace TurboDb.Redis

open ByteOrder Decimal Incremental Effect ReplyReader Outcome

/-- The reader that looks for the end of its line from the start. -/
def ReplyReader.core (impl : ReplyReader) : ReplyReader := { impl with lineScan := 0 }

def ReaderStep.core : ReaderStep → ReaderStep
  | .next impl => .next impl.core
  | .more impl => .more impl.core
  | .done reply consumed charged => .done reply consumed charged
  | .fail error => .fail error

/-- No line ends between the offset and the position looked up to. -/
def ReplyReader.Scanned (buffer : Bytes) (impl : ReplyReader) : Prop :=
  ∀ i, impl.offset ≤ i → i < impl.lineScan →
    ∃ a b, buffer[i]? = some a ∧ buffer[i + 1]? = some b ∧ ¬ (a = 13 ∧ b = 10)

variable {limits : ReplyLimits} {p q : Bytes} {impl impl' : ReplyReader} {n : Nat}

theorem crlf_append {i : Nat} (h : crlf p = some i) : crlf (p ++ q) = some i := by
  induction p generalizing i with
  | nil => cases h
  | cons b rest ih =>
    rw [List.cons_append]
    rw [crlf] at h ⊢
    split at h
    · rename_i here
      cases h
      cases rest with
      | nil => simp at here
      | cons c tail => exact if_pos here
    · rename_i elsewhere
      obtain ⟨k, found, rfl⟩ := Option.map_eq_some_iff.mp h
      cases rest with
      | nil => cases found
      | cons c tail =>
        have elsewhere : ¬ (b = 13 ∧ (c :: tail ++ q).head? = some 10) := elsewhere
        rw [if_neg elsewhere, ih found]
        rfl

theorem crlf_none (h : crlf p = none) {i : Nat} {a b : UInt8} (first : p[i]? = some a)
    (second : p[i + 1]? = some b) : ¬ (a = 13 ∧ b = 10) := by
  induction p generalizing i with
  | nil => cases first
  | cons c rest ih =>
    rw [crlf] at h
    split at h
    · cases h
    · rename_i elsewhere
      rw [Option.map_eq_none_iff] at h
      cases i with
      | zero =>
        rintro ⟨rfl, rfl⟩
        cases first
        exact elsewhere ⟨rfl, by simpa [List.head?_eq_getElem?] using second⟩
      | succ i => exact ih h (by simpa using first) (by simpa using second)

theorem crlf_drop {lo hi : Nat} (le : lo ≤ hi)
    (none : ∀ i, lo ≤ i → i < hi → ∃ a b, p[i]? = some a ∧ p[i + 1]? = some b ∧ ¬ (a = 13 ∧ b = 10)) :
    crlf (p.drop lo) = (crlf (p.drop hi)).map (· + (hi - lo)) := by
  induction k : hi - lo generalizing lo with
  | zero =>
    have same : lo = hi := by omega
    subst same
    simp
  | succ k ih =>
    obtain ⟨a, b, first, second, ne⟩ := none lo le_rfl (by omega)
    obtain ⟨lt, rfl⟩ := List.getElem?_eq_some_iff.mp first
    have head : (p.drop (lo + 1)).head? = some b := by
      rw [List.head?_drop, second]
    rw [List.drop_eq_getElem_cons lt, crlf, head, if_neg (by simpa using ne),
      ih (by omega) (fun i low high => none i (by omega) high) (by omega), Option.map_map]
    rfl

theorem take_drop_append {a n : Nat} (h : a + n ≤ p.length) :
    ((p ++ q).drop a).take n = (p.drop a).take n := by
  rw [List.drop_append_of_le_length (by omega), List.take_append_of_le_length]
  rw [List.length_drop]
  omega

section Items

variable {item : RespItem}

theorem replyReaderLine_core (scanned : impl.Scanned p) :
    replyReaderLine p impl.core = replyReaderLine p impl := by
  have skipped := crlf_drop (Nat.le_max_right impl.lineScan impl.offset)
    (fun i low high => scanned i low (by omega))
  rw [replyReaderLine, replyReaderLine]
  have start : max impl.core.lineScan impl.core.offset = impl.offset := Nat.zero_max _
  have offset : impl.core.offset = impl.offset := rfl
  rw [start, offset, skipped]
  cases crlf (p.drop (max impl.lineScan impl.offset)) with
  | none => rfl
  | some i =>
    have len : impl.offset + (i + (max impl.lineScan impl.offset - impl.offset)) + 2 - impl.offset =
        max impl.lineScan impl.offset + i + 2 - impl.offset := by omega
    simp only [Option.map_some, len]

theorem replyReaderItem_core (scanned : impl.Scanned p) :
    (replyReaderItem p impl.core).map core = (replyReaderItem p impl).map core := by
  have offset : impl.core.offset = impl.offset := rfl
  cases bulk : impl.bulk with
  | some due =>
    have bulk' : impl.core.bulk = some due := bulk
    simp only [replyReaderItem, bulk, bulk', offset]
    split_ifs <;> rfl
  | none =>
    have bulk' : impl.core.bulk = none := bulk
    simp only [replyReaderItem, bulk, bulk', offset, replyReaderLine_core scanned]
    cases replyReaderLine p impl with
    | more lineScan => rfl
    | fail _ => rfl
    | done token headerLen => rfl

theorem replyReaderTake_core :
    (replyReaderTake limits impl.core n item).core = (replyReaderTake limits impl n item).core := by
  have skip (charged : Nat) : impl.core.skip charged n = impl.skip charged n := rfl
  have charged : impl.core.charged = impl.charged := rfl
  cases item with
  | bulk bytes => rw [replyReaderTake, replyReaderTake]; simp only [skip, charged]
  | token token =>
    rw [replyReaderTake, replyReaderTake]
    split
    · rfl
    · rfl

theorem replyReaderStep_core (scanned : impl.Scanned p) :
    (replyReaderStep limits p impl.core).core = (replyReaderStep limits p impl).core := by
  have items := replyReaderItem_core scanned
  have same : impl.core.frames = impl.frames := rfl
  rw [replyReaderStep, replyReaderStep, same]
  split
  · rfl
  · cases found : replyReaderItem p impl <;> rw [found] at items
    case more =>
      obtain ⟨_, core, same⟩ := map_eq_more.mp items
      rw [core]
      exact congrArg ReaderStep.more same
    case fail => rw [map_eq_fail.mp items]
    case done =>
      rw [map_eq_done.mp items]
      exact replyReaderTake_core

theorem replyReaderLine_more {k : Nat} (scanned : impl.Scanned p)
    (h : replyReaderLine p impl = .more k) : { impl with lineScan := k }.Scanned p := by
  rw [replyReaderLine] at h
  split at h
  · rename_i none
    intro i low high
    change impl.offset ≤ i at low
    change i < k at high
    have bound : i + 1 < p.length := by
      have := more.inj h
      split at this <;> omega
    by_cases before : i < impl.lineScan
    · exact scanned i low before
    · refine ⟨p[i], p[i + 1], List.getElem?_eq_getElem _, List.getElem?_eq_getElem _, ?_⟩
      have skipped : max impl.lineScan impl.offset + (i - max impl.lineScan impl.offset) = i := by omega
      refine crlf_none none (i := i - max impl.lineScan impl.offset) ?_ ?_
      · rw [List.getElem?_drop, skipped, List.getElem?_eq_getElem]
      · rw [List.getElem?_drop, ← Nat.add_assoc, skipped, List.getElem?_eq_getElem]
  · dsimp only at h
    split at h
    · split at h <;> cases h
    · cases h

theorem replyReaderItem_more (h : replyReaderItem p impl = .more impl') :
    impl'.core = impl.core ∧ (impl.Scanned p → impl'.Scanned p) := by
  rw [replyReaderItem] at h
  split at h
  · dsimp only at h
    split at h
    · cases h
    · split at h
      · cases h
        exact ⟨rfl, id⟩
      · split at h <;> cases h
  · split at h
    · rename_i found
      cases h
      exact ⟨rfl, fun scanned => replyReaderLine_more scanned found⟩
    · cases h
    · split at h <;> cases h

theorem attachValue_ne_more {reply : Reply} : attachValue impl reply ≠ .more impl' := by
  rw [attachValue]
  split
  · simp
  · split <;> simp

theorem replyReaderTake_ne_more : replyReaderTake limits impl n item ≠ .more impl' := by
  cases item with
  | bulk bytes =>
    rw [replyReaderTake]
    split
    · simp
    · exact attachValue_ne_more
  | token token =>
    rw [replyReaderTake]
    split
    · simp
    · split
      · simp
      · exact attachValue_ne_more
      · rw [attachArray]
        split <;> simp

theorem replyReaderStep_more (h : replyReaderStep limits p impl = .more impl') :
    impl'.core = impl.core ∧ (impl.Scanned p → impl'.Scanned p) := by
  rw [replyReaderStep] at h
  split at h
  · cases h
  · split at h
    · rename_i found
      cases h
      exact replyReaderItem_more found
    · cases h
    · exact absurd h replyReaderTake_ne_more

theorem ReplyReader.Scanned.next (scanned : impl.Scanned p)
    (h : replyReaderStep limits p impl = .next impl') : impl'.Scanned p := by
  obtain ⟨item, n, _, taken⟩ := replyReaderStep_next h
  rcases replyReaderTake_next taken with ⟨charged, frames, rfl⟩ | ⟨token, len, _, rfl⟩
  · intro i low high
    exact absurd high (Nat.not_lt.mpr low)
  · exact scanned

theorem ReplyReader.Scanned.append (scanned : impl.Scanned p) : impl.Scanned (p ++ q) := by
  intro i low high
  obtain ⟨a, b, first, second, ne⟩ := scanned i low high
  obtain ⟨lt, _⟩ := List.getElem?_eq_some_iff.mp second
  refine ⟨a, b, ?_, ?_, ne⟩
  · rw [List.getElem?_append_left (by omega), first]
  · rw [List.getElem?_append_left lt, second]

theorem replyReaderLine_append (h : ∀ k, replyReaderLine p impl ≠ .more k) :
    replyReaderLine (p ++ q) impl = replyReaderLine p impl := by
  cases found : crlf (p.drop (max impl.lineScan impl.offset)) with
  | none => exact absurd (by rw [replyReaderLine, found]) (h _)
  | some i =>
    have bound := crlf_le found
    rw [List.length_drop] at bound
    have same : crlf ((p ++ q).drop (max impl.lineScan impl.offset)) = some i := by
      rw [List.drop_append_of_le_length (by omega)]
      exact crlf_append found
    rw [replyReaderLine, replyReaderLine, found, same]
    dsimp only
    rw [take_drop_append (by omega)]

theorem replyReaderItem_append (h : ∀ impl', replyReaderItem p impl ≠ .more impl') :
    replyReaderItem (p ++ q) impl = replyReaderItem p impl := by
  cases bulk : impl.bulk with
  | some due =>
    obtain ⟨headerLen, len⟩ := due
    simp only [replyReaderItem, bulk] at h ⊢
    by_cases overflow : intMax < headerLen + len + 2 ∨ intMax - (headerLen + len + 2) < impl.offset
    · rw [if_pos overflow, if_pos overflow]
    · rw [if_neg overflow] at h ⊢
      by_cases short : p.length - impl.offset < headerLen + len + 2
      · exact absurd (if_pos short) (h impl)
      · rw [if_neg overflow, if_neg short, if_neg (by rw [List.length_append]; omega),
          take_drop_append (by omega), take_drop_append (by omega)]
  | none =>
    simp only [replyReaderItem, bulk] at h ⊢
    rw [replyReaderLine_append]
    intro k more
    rw [more] at h
    exact h _ rfl

theorem replyReaderStep_append (h : ∀ impl', replyReaderStep limits p impl ≠ .more impl') :
    replyReaderStep limits (p ++ q) impl = replyReaderStep limits p impl := by
  rw [replyReaderStep, replyReaderStep]
  split
  · rfl
  · rename_i shallow
    rw [replyReaderItem_append]
    intro impl' more
    refine h impl' ?_
    rw [replyReaderStep, if_neg shallow, more]

end Items

section Loop

variable {v : Reply × Nat} {e : RespError}

def ReaderStep.resume (limits : ReplyLimits) (buffer : Bytes) :
    ReaderStep → Outcome ReplyReader (Reply × Nat) RespError
  | .next impl => replyReaderLoop limits buffer impl
  | .more impl => .more impl
  | .done reply consumed charged => .done (reply, charged) consumed
  | .fail error => .fail error

theorem replyReaderLoop_eq (buffer : Bytes) (impl : ReplyReader) :
    replyReaderLoop limits buffer impl = (replyReaderStep limits buffer impl).resume limits buffer := by
  rw [replyReaderLoop]
  split <;> simp_all [ReaderStep.resume]

theorem ReplyReader.scanned_core : impl.core.Scanned p := by
  intro i _ high
  exact absurd high (Nat.not_lt_zero i)

/-- A reader that looks for its lines from the start comes to the same. -/
theorem replyReaderLoop_core (scanned : impl.Scanned p) :
    (replyReaderLoop limits p impl.core).map core =
      (replyReaderLoop limits p impl).map core := by
  induction left : impl.left p using Nat.strongRecOn generalizing impl with
  | ind k ih =>
    subst left
    have unrolled {i : ReplyReader} (same : i.left p = impl.left p) (scanned : i.Scanned p) :
        (replyReaderLoop limits p i).map core =
          ((replyReaderStep limits p i).core.resume limits p).map core := by
      rw [replyReaderLoop_eq]
      cases step : replyReaderStep limits p i with
      | next i1 => exact (ih _ (same ▸ replyReaderStep_left step) (scanned.next step) rfl).symm
      | more _ | done _ _ _ | fail _ => rfl
    have cleared := unrolled (i := impl.core) rfl scanned_core
    rw [cleared, unrolled rfl scanned, replyReaderStep_core scanned]

theorem replyReaderLoop_induction (limits : ReplyLimits) (p : Bytes) {motive : ReplyReader → Prop}
    (turn : ∀ impl, (∀ impl', replyReaderStep limits p impl = .next impl' → motive impl') → motive impl)
    (impl : ReplyReader) : motive impl := by
  induction left : impl.left p using Nat.strongRecOn generalizing impl with
  | ind k ih =>
    refine turn impl fun impl' next => ?_
    exact ih _ (left ▸ replyReaderStep_left next) impl' rfl

/-- More input changes no answer, and a reader that asked for it stands where the
whole input leads. -/
theorem replyReaderLoop_append (limits : ReplyLimits) (p q : Bytes) (impl : ReplyReader) :
    (∀ v n, replyReaderLoop limits p impl = .done v n → replyReaderLoop limits (p ++ q) impl = .done v n) ∧
    (∀ e, replyReaderLoop limits p impl = .fail e → replyReaderLoop limits (p ++ q) impl = .fail e) ∧
    ∀ impl', replyReaderLoop limits p impl = .more impl' → impl.Scanned p →
      ∃ last, replyReaderLoop limits (p ++ q) impl = replyReaderLoop limits (p ++ q) last ∧
        impl'.core = last.core ∧ last.Scanned p ∧ impl'.Scanned p := by
  induction impl using replyReaderLoop_induction limits p with
  | turn impl ih =>
    cases step : replyReaderStep limits p impl with
    | more impl1 =>
      rw [replyReaderLoop_eq p, step]
      refine ⟨nofun, nofun, ?_⟩
      rintro impl' ⟨rfl⟩ scanned
      obtain ⟨core, kept⟩ := replyReaderStep_more step
      exact ⟨impl, rfl, core, scanned, kept scanned⟩
    | next impl1 =>
      rw [replyReaderLoop_eq p, replyReaderLoop_eq (p ++ q),
        replyReaderStep_append (by rw [step]; nofun), step]
      obtain ⟨done, fail, more⟩ := ih impl1 step
      exact ⟨done, fail, fun impl' asked scanned => more impl' asked (scanned.next step)⟩
    | done _ _ _ | fail _ =>
      rw [replyReaderLoop_eq p, replyReaderLoop_eq (p ++ q),
        replyReaderStep_append (by rw [step]; nofun), step]
      exact ⟨fun _ _ => id, fun _ => id, nofun⟩

theorem attachValue_done {reply root : Reply} {charged : Nat}
    (h : attachValue impl reply = .done root n charged) : n = impl.offset ∧ charged = impl.charged := by
  rw [attachValue] at h
  split at h
  · cases h
  · split at h
    · cases h
    · cases h
      exact ⟨rfl, rfl⟩

theorem replyReaderTake_done {item : RespItem} {reply : Reply} {size charged : Nat}
    (h : replyReaderTake limits impl size item = .done reply n charged) : n = impl.offset + size := by
  cases item with
  | bulk bytes =>
    rw [replyReaderTake] at h
    split at h
    · cases h
    · exact (attachValue_done h).1
  | token token =>
    rw [replyReaderTake] at h
    split at h
    · cases h
    · split at h
      · cases h
      · exact (attachValue_done h).1
      · rw [attachArray] at h
        split at h <;> cases h

theorem replyReaderStep_done {reply : Reply} {charged : Nat}
    (h : replyReaderStep limits p impl = .done reply n charged) :
    ∃ item size, replyReaderItem p impl = .done item size ∧
      replyReaderTake limits impl size item = .done reply n charged := by
  rw [replyReaderStep] at h
  split at h
  · cases h
  · split at h
    · cases h
    · cases h
    · rename_i item size found
      exact ⟨item, size, found, h⟩

theorem replyReaderLoop_le (h : replyReaderLoop limits p impl = .done v n) :
    0 < n ∧ n ≤ p.length := by
  induction impl using replyReaderLoop_induction limits p with
  | turn impl ih =>
    rw [replyReaderLoop_eq] at h
    cases step : replyReaderStep limits p impl with
    | next impl1 => exact ih impl1 step (by rwa [step] at h)
    | more _ | fail _ =>
      rw [step] at h
      cases h
    | done reply m charged =>
      rw [step] at h
      cases h
      obtain ⟨item, size, found, taken⟩ := replyReaderStep_done step
      have bounds := replyReaderItem_done found
      have := replyReaderTake_done taken
      omega

end Loop

/-- The reader without the position it has looked up to. -/
def replyReaderCore (limits : ReplyLimits) : Reader UInt8 (Option ReplyReader) (Reply × Nat) RespError :=
  fun buffer reader =>
    (replyReaderNextBuffer limits buffer (reader.map core)).map (Option.map core)

/-- The reader of a session knows where no line ends. -/
def ReaderScanned (buffer : Bytes) (reader : Option ReplyReader) : Prop :=
  ∀ impl, reader = some impl → impl.Scanned buffer

section Cut

variable {reader reader' : Option ReplyReader}

theorem replyReaderBegin_ok {impl : ReplyReader} (h : replyReaderBegin limits reader = .ok impl) :
    reader = some impl ∨
      ∃ charged, ownerCharge limits 0 limits.ownerBytes = .ok charged ∧ impl = ⟨charged, [], 0, 0, none⟩ := by
  cases reader with
  | some impl' =>
    cases h
    exact .inl rfl
  | none =>
    rw [replyReaderBegin] at h
    cases charge : ownerCharge limits 0 limits.ownerBytes with
    | error e => rw [charge] at h; cases h
    | ok charged =>
      rw [charge] at h
      cases h
      exact .inr ⟨charged, rfl, rfl⟩

theorem replyReaderBegin_scanned {impl : ReplyReader} (good : ReaderScanned p reader)
    (h : replyReaderBegin limits reader = .ok impl) : impl.Scanned p := by
  obtain rfl | ⟨charged, -, rfl⟩ := replyReaderBegin_ok h
  · exact good _ rfl
  · exact fun i _ high => absurd high (Nat.not_lt_zero i)

theorem replyReaderBegin_core :
    replyReaderBegin limits (reader.map core) =
      (replyReaderBegin limits reader).map core := by
  cases reader with
  | some impl => rfl
  | none =>
    rw [Option.map_none, replyReaderBegin]
    cases ownerCharge limits 0 limits.ownerBytes <;> rfl

theorem replyReaderNextBuffer_loop (limit : limits.maxReplyBytes ≠ 0) (bytes : p ≠ []) :
    replyReaderNextBuffer limits p reader =
      match replyReaderBegin limits reader with
      | .error error => .fail error
      | .ok impl => (replyReaderLoop limits p impl).map some :=
  (if_neg limit).trans (if_neg bytes)

theorem map_some_core {outcome : Outcome ReplyReader (Reply × Nat) RespError} :
    (outcome.map some).map (Option.map core) = (outcome.map core).map some := by
  rw [map_map, map_map]
  rfl

theorem replyReaderNextBuffer_core (good : ReaderScanned p reader) :
    (replyReaderNextBuffer limits p (reader.map core)).map (Option.map core) =
      (replyReaderNextBuffer limits p reader).map (Option.map core) := by
  by_cases limit : limits.maxReplyBytes = 0
  · simp only [replyReaderNextBuffer, if_pos limit]
  by_cases bytes : p = []
  · simp only [replyReaderNextBuffer, if_neg limit, if_pos bytes, map, Option.map_map]
    rfl
  rw [replyReaderNextBuffer_loop limit bytes, replyReaderNextBuffer_loop limit bytes,
    replyReaderBegin_core]
  cases begun : replyReaderBegin limits reader with
  | error error => rfl
  | ok impl =>
    have same : (replyReaderLoop limits p impl.core).map core =
        (replyReaderLoop limits p impl).map core :=
      replyReaderLoop_core (replyReaderBegin_scanned good begun)
    change ((replyReaderLoop limits p impl.core).map some).map _ = _
    rw [map_some_core, map_some_core, same]

theorem replyReaderNextBuffer_append (q : Bytes) :
    (∀ v n, replyReaderNextBuffer limits p reader = .done v n →
      (0 < n ∧ n ≤ p.length) ∧ replyReaderNextBuffer limits (p ++ q) reader = .done v n) ∧
    (∀ e, replyReaderNextBuffer limits p reader = .fail e →
      replyReaderNextBuffer limits (p ++ q) reader = .fail e) ∧
    ∀ reader', replyReaderNextBuffer limits p reader = .more reader' → ReaderScanned p reader →
      ReaderScanned p reader' ∧
      (replyReaderNextBuffer limits (p ++ q) (reader'.map core)).map
          (Option.map core) =
        (replyReaderNextBuffer limits (p ++ q) reader).map (Option.map core) := by
  by_cases limit : limits.maxReplyBytes = 0
  · simp only [replyReaderNextBuffer, if_pos limit]
    exact ⟨nofun, fun _ same => same, nofun⟩
  by_cases bytes : p = []
  · subst bytes
    have empty : replyReaderNextBuffer limits [] reader = .more reader := by
      rw [replyReaderNextBuffer, if_neg limit, if_pos rfl]
    rw [empty]
    refine ⟨nofun, nofun, ?_⟩
    rintro reader' ⟨rfl⟩ good
    refine ⟨good, replyReaderNextBuffer_core fun impl same => ?_⟩
    exact (good impl same).append
  have longer : p ++ q ≠ [] := by simp [bytes]
  rw [replyReaderNextBuffer_loop limit bytes, replyReaderNextBuffer_loop limit longer]
  cases begun : replyReaderBegin limits reader with
  | error error => exact ⟨nofun, fun _ same => same, nofun⟩
  | ok impl =>
    obtain ⟨done, fail, more⟩ := replyReaderLoop_append limits p q impl
    refine ⟨fun v n h => ?_, fun e h => ?_, fun reader' h good => ?_⟩
    · rw [map_eq_done] at h ⊢
      exact ⟨replyReaderLoop_le h, done v n h⟩
    · rw [map_eq_fail] at h ⊢
      exact fail e h
    · obtain ⟨impl', asked, rfl⟩ := map_eq_more.mp h
      obtain ⟨last, same, core, scanned, scanned'⟩ :=
        more impl' asked (replyReaderBegin_scanned good begun)
      refine ⟨fun _ found => Option.some.inj found ▸ scanned', ?_⟩
      rw [replyReaderNextBuffer_loop limit longer]
      change ((replyReaderLoop limits (p ++ q) impl'.core).map some).map _ = _
      rw [map_some_core, map_some_core, same, core, replyReaderLoop_core scanned.append]

theorem replyReaderNextBuffer_simulates :
    Simulates (replyReaderNextBuffer limits) (replyReaderCore limits) (Option.map core) none
      ReaderScanned where
  good_fresh := nofun
  good_append := fun q good impl same => (good impl same).append
  good_more := fun good h => ((replyReaderNextBuffer_append []).2.2 _ h good).1
  outcome := by
    intro p reader good
    rw [replyReaderCore, Option.map_map]
    exact (replyReaderNextBuffer_core good).symm

theorem readerScanned_core : ReaderScanned p (reader.map core) := by
  intro impl found
  obtain ⟨impl', _, rfl⟩ := Option.map_eq_some_iff.mp found
  exact scanned_core

theorem replyReaderCore_resumable : Resumable (replyReaderCore limits) where
  consumed := fun h => ((replyReaderNextBuffer_append []).1 _ _ (map_eq_done.mp h)).1
  done_append := fun q h => map_eq_done.mpr
    ((replyReaderNextBuffer_append q).1 _ _ (map_eq_done.mp h)).2
  fail_append := fun q h => map_eq_fail.mpr
    ((replyReaderNextBuffer_append q).2.1 _ (map_eq_fail.mp h))
  more_append := by
    intro p reader reader' q h
    obtain ⟨asked, found, rfl⟩ := map_eq_more.mp h
    rw [replyReaderCore, replyReaderCore, Option.map_map]
    exact ((replyReaderNextBuffer_append q).2.2 _ found readerScanned_core).2

end Cut

section Charge

variable {charged charged' bytes : Nat}

theorem ownerCharge_le (h : ownerCharge limits charged bytes = .ok charged')
    (le : charged ≤ limits.maxReplyBytes) : charged' ≤ limits.maxReplyBytes := by
  rw [ownerCharge] at h
  split at h
  · cases h
  · cases h
    omega

theorem parsedToken_le {token : RespToken} {parsed : Parsed}
    (h : parsedToken limits charged token = .ok (charged', parsed))
    (le : charged ≤ limits.maxReplyBytes) : charged' ≤ limits.maxReplyBytes := by
  rw [parsedToken, bind_eq_ok] at h
  obtain ⟨own, first, h⟩ := h
  have le := ownerCharge_le first le
  split at h
  · obtain ⟨text, second, h⟩ := bind_eq_ok.mp h
    cases h
    exact ownerCharge_le second le
  · obtain ⟨text, second, h⟩ := bind_eq_ok.mp h
    cases h
    exact ownerCharge_le second le
  · cases h
    exact le
  · split at h
    · cases h
    · cases h
      exact le
  · split at h
    · cases h
      exact le
    · split at h
      · cases h
      · split at h
        · split at h
          · cases h
          · obtain ⟨elements, second, h⟩ := bind_eq_ok.mp h
            cases h
            exact ownerCharge_le second le
        · cases h
          exact le

theorem replyReaderTake_le {item : RespItem} (le : impl.charged ≤ limits.maxReplyBytes) :
    (∀ impl', replyReaderTake limits impl n item = .next impl' → impl'.charged ≤ limits.maxReplyBytes) ∧
    ∀ reply consumed charged, replyReaderTake limits impl n item = .done reply consumed charged →
      charged ≤ limits.maxReplyBytes := by
  have attached {i : ReplyReader} (le : i.charged ≤ limits.maxReplyBytes) (reply : Reply) :
      (∀ impl', attachValue i reply = .next impl' → impl'.charged ≤ limits.maxReplyBytes) ∧
      ∀ root consumed charged, attachValue i reply = .done root consumed charged →
        charged ≤ limits.maxReplyBytes := by
    refine ⟨fun impl' next => ?_, fun root consumed charged' done => ?_⟩
    · obtain ⟨frames, rfl⟩ := attachValue_next next
      exact le
    · rw [(attachValue_done done).2]
      exact le
  cases item with
  | bulk bytes =>
    rw [replyReaderTake]
    split
    · exact ⟨by simp, by simp⟩
    · rename_i charged charge
      obtain ⟨own, first, second⟩ := bind_eq_ok.mp charge
      have le : charged ≤ limits.maxReplyBytes := ownerCharge_le second (ownerCharge_le first le)
      exact attached le _
  | token token =>
    rw [replyReaderTake]
    split
    · refine ⟨?_, by simp⟩
      rintro impl' ⟨rfl⟩
      exact le
    · split
      · exact ⟨by simp, by simp⟩
      · rename_i charged reply parsed
        exact attached (parsedToken_le parsed le) reply
      · rename_i charged count nonempty parsed
        have le := parsedToken_le parsed le
        refine ⟨fun impl' next => ?_, fun reply consumed charged' done => ?_⟩
        · obtain ⟨frames, rfl⟩ := attachArray_next next
          exact le
        · rw [attachArray] at done
          split at done <;> cases done

theorem replyReaderLoop_charged (le : impl.charged ≤ limits.maxReplyBytes) :
    (∀ impl', replyReaderLoop limits p impl = .more impl' → impl'.charged ≤ limits.maxReplyBytes) ∧
    ∀ v n, replyReaderLoop limits p impl = .done v n → v.2 ≤ limits.maxReplyBytes := by
  induction impl using replyReaderLoop_induction limits p with
  | turn impl ih =>
    rw [replyReaderLoop_eq]
    cases step : replyReaderStep limits p impl with
    | next impl1 =>
      obtain ⟨item, n, _, taken⟩ := replyReaderStep_next step
      exact ih impl1 step ((replyReaderTake_le le).1 impl1 taken)
    | more impl1 =>
      refine ⟨?_, nofun⟩
      rintro impl' ⟨rfl⟩
      have same : impl1.core.charged = impl.core.charged :=
        congrArg charged (replyReaderStep_more step).1
      exact same.trans_le le
    | done reply consumed charged =>
      refine ⟨nofun, ?_⟩
      rintro v n ⟨rfl⟩
      obtain ⟨item, size, _, taken⟩ := replyReaderStep_done step
      exact (replyReaderTake_le le).2 _ _ _ taken
    | fail error => exact ⟨nofun, nofun⟩

def ReaderCharged (limits : ReplyLimits) (reader : Option ReplyReader) : Prop :=
  ∀ impl, reader = some impl → impl.charged ≤ limits.maxReplyBytes

theorem replyReaderNextBuffer_charged {reader : Option ReplyReader} (le : ReaderCharged limits reader) :
    (∀ reader', replyReaderNextBuffer limits p reader = .more reader' → ReaderCharged limits reader') ∧
    ∀ v n, replyReaderNextBuffer limits p reader = .done v n → v.2 ≤ limits.maxReplyBytes := by
  rw [replyReaderNextBuffer]
  split
  · exact ⟨nofun, nofun⟩
  · split
    · refine ⟨?_, nofun⟩
      rintro reader' ⟨rfl⟩
      exact le
    · split
      · exact ⟨nofun, nofun⟩
      · rename_i impl begun
        have charged : impl.charged ≤ limits.maxReplyBytes := by
          obtain rfl | ⟨charged, charge, rfl⟩ := replyReaderBegin_ok begun
          · exact le _ rfl
          · exact ownerCharge_le charge (Nat.zero_le _)
        obtain ⟨more, done⟩ := replyReaderLoop_charged (p := p) charged
        refine ⟨fun reader' h => ?_, fun v n h => done v n (map_eq_done.mp h)⟩
        obtain ⟨impl', asked, rfl⟩ := map_eq_more.mp h
        rintro impl'' ⟨rfl⟩
        exact more _ asked

end Charge

end TurboDb.Redis
