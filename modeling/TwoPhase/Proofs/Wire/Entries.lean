import TwoPhase.Participant.JournalJson
import TwoPhase.Proofs.Wire.Payloads
/-
Journal entries are read back. The text of an entry nests four levels of brackets at most: the entry, the
tag of its event, the fields of the event and the failure among them. So there is room for every entry, and
a journal that was written out and read in again tells a recovery what the journal itself would have told.
-/

set_option autoImplicit false

namespace TwoPhase

open Json Json.Reader

/-! ## Words -/

/-- **A whole number of sixty-four bits is read back.** -/
theorem unsigned_yields (n : UInt64) : Yields (unsigned "u64") (Json.integer n.toNat) True n := by
  have hlt := n.toNat_lt
  have hsize : ((UInt64.size : ℕ) : ℤ) = 18446744073709551616 := rfl
  have hinteger : Yields (Reader.integer 0 (UInt64.size - 1) "u64") (Json.integer n.toNat) True
      (n.toNat : ℤ) := by
    apply integer_yields <;> omega
  have hmap := hinteger.map fun i => UInt64.ofNat i.toNat
  rw [Int.toNat_natCast, UInt64.ofNat_toNat] at hmap
  exact hmap

/-- **An alternative without content is read back** from its tag. -/
theorem enumerated_yields {α : Type} {alternatives : List (String × α)} {tag : String} {x : α}
    (hknown : (alternatives.map (·.1)).contains tag = true) (htag : alternatives.lookup tag = some x)
    (deeper : Bool) : Yields (enumerated alternatives deeper) (quoted tag) True x := by
  apply bare_yields hknown
  intro rest
  rw [htag]
  rfl

theorem Decision.ofJson_yields (d : Decision) (k : ℕ) : Yields (ofJson k) d.toJson True d := by
  rcases d with _ | _ <;> exact enumerated_yields rfl rfl (k != 0)

theorem FailureKind.ofJson_yields (kind : FailureKind) (k : ℕ) :
    Yields (ofJson k) kind.toJson True kind := by
  rcases kind with _ | _ | _ <;> exact enumerated_yields rfl rfl (k != 0)

/-- **A failure is read back**, whatever its message. -/
theorem Failure.ofJson_yields (f : Failure) (k : ℕ) : Yields (ofJson (k + 1)) f.toJson True f := by
  have hkind := FailureKind.ofJson_yields f.kind k
  have hfilling : Filling (shape k).slots (shape k).blank
      [("kind", f.kind.toJson), ("message", Json.quoted f.message)] (True ∧ True ∧ True)
      ⟨some f.kind, some f.message⟩ := by
    refine .next rfl rfl (hkind.bind_pure fun kind => Fields.mk (some kind) none) ?_
    refine .next rfl rfl ((string_yields f.message).bind_pure fun s => Fields.mk (some f.kind) (some s)) ?_
    exact .done _
  exact (record_yields "struct FailureDescription" hfilling rfl).congr (by simp)

/-! ## Events -/

namespace JournalEvent

variable {make : UInt64 → JournalEvent} {name tag : String}

/-- An event is read back from behind its tag if its fields are. -/
theorem ofJson_tagged {members : List (String × List UInt8)} {acc : Fields} {fits : Prop}
    {e : JournalEvent} {k : ℕ} (hknown : tags.contains tag = true)
    (hfilling : Filling (shape k tag).slots (shape k tag).blank members fits acc)
    (hfinish : (shape k tag).finish acc = .ok e) :
    Yields (ofJson (k + 2)) (tagged tag (object (members.map fun m => member m.1 m.2))) fits e := by
  apply tagged_yields hknown
  exact record_yields _ hfilling hfinish

/-- An event that is only a time is read back. -/
theorem timed_yields {k : ℕ} (hknown : tags.contains tag = true)
    (hshape : shape k tag = timeShape name make) (t : UInt64) :
    Yields (ofJson (k + 2)) (tagged tag (object [timeField name t])) True (make t) := by
  have hslots : (shape k tag).slots.find? (·.name == name) = some (timeSlot name) := by
    rw [hshape]
    exact List.find?_cons_of_pos (beq_self_eq_true name)
  have hblank : (shape k tag).blank = {} := by rw [hshape]; rfl
  have hfinish : (shape k tag).finish { time := some t } = .ok (make t) := by rw [hshape]; rfl
  have hfilling : Filling (shape k tag).slots (shape k tag).blank
      [(name, Json.integer t.toNat)] (True ∧ True) { time := some t } := by
    rw [hblank]
    refine .next hslots rfl ((unsigned_yields t).bind_pure fun t => ({ time := some t } : Fields)) ?_
    exact .done _
  exact (ofJson_tagged hknown hfilling hfinish).congr (by simp)

/-- **An event is read back.** -/
theorem ofJson_yields (e : JournalEvent) (k : ℕ) : Yields (ofJson (k + 3)) e.toJson True e := by
  rcases e with t | t | ⟨f, t⟩ | t | t | ⟨d, f, t⟩
  · exact timed_yields rfl rfl t
  · exact timed_yields rfl rfl t
  · have hfilling : Filling (shape (k + 1) "Rejected").slots (shape (k + 1) "Rejected").blank
        [("failure", f.toJson), ("rejected_at_millis", Json.integer t.toNat)] (True ∧ True ∧ True)
        ⟨none, some f, some t⟩ := by
      refine .next rfl rfl ((f.ofJson_yields k).bind_pure fun f => Fields.mk none (some f) none) ?_
      refine .next rfl rfl ((unsigned_yields t).bind_pure fun t => Fields.mk none (some f) (some t)) ?_
      exact .done _
    exact (ofJson_tagged rfl hfilling rfl).congr (by simp)
  · exact timed_yields rfl rfl t
  · exact timed_yields rfl rfl t
  · have hfilling : Filling (shape (k + 1) "FinalizeFailed").slots
        (shape (k + 1) "FinalizeFailed").blank
        [("decision", d.toJson), ("failure", f.toJson), ("failed_at_millis", Json.integer t.toNat)]
        (True ∧ True ∧ True ∧ True) ⟨some d, some f, some t⟩ := by
      refine .next rfl rfl ((d.ofJson_yields (k + 1)).bind_pure fun d => Fields.mk (some d) none none) ?_
      refine .next rfl rfl ((f.ofJson_yields k).bind_pure fun f => Fields.mk (some d) (some f) none) ?_
      refine .next rfl rfl
        ((unsigned_yields t).bind_pure fun t => Fields.mk (some d) (some f) (some t)) ?_
      exact .done _
    exact (ofJson_tagged rfl hfilling rfl).congr (by simp)

end JournalEvent

/-! ## Entries -/

namespace JournalEntry

/-- An entry is read back, by a reader with room for its four levels. -/
theorem ofJson_yields (e : JournalEntry) (k : ℕ) : Yields (ofJson (k + 4)) e.toJson True e := by
  have hfilling : Filling (shape (k + 3)).slots (shape (k + 3)).blank
      [("sequence", Json.integer e.sequence.toNat),
        ("recorded_at_millis", Json.integer e.recordedAt.toNat), ("event", e.event.toJson)]
      (True ∧ True ∧ True ∧ True) ⟨some e.sequence, some e.recordedAt, some e.event⟩ := by
    refine .next rfl rfl ((unsigned_yields e.sequence).bind_pure fun n => Fields.mk (some n) none none) ?_
    refine .next rfl rfl
      ((unsigned_yields e.recordedAt).bind_pure fun n => Fields.mk (some e.sequence) (some n) none) ?_
    refine .next rfl rfl ((e.event.ofJson_yields k).bind_pure fun event =>
      Fields.mk (some e.sequence) (some e.recordedAt) (some event)) ?_
    exact .done _
  exact (record_yields "struct JournalEntry" hfilling rfl).congr (by simp)

/-- **What is read from the text of an entry is that entry.** -/
theorem read_toJson (e : JournalEntry) : Json.read (ofJson depthLimit) e.toJson = .ok e :=
  (e.ofJson_yields 123).read.1 trivial

/-- The text of an entry is its own: whoever could not tell two texts apart would read one entry from
both. -/
theorem toJson_injective : Function.Injective toJson := by
  intro e e' htext
  have hread := read_toJson e
  rw [htext, read_toJson e'] at hread
  exact (Except.ok.inj hread).symm

/-- A history that is written out entry by entry and read in again. A text that cannot be read counts as a
fault of the storage. -/
def reread (entries : List JournalEntry) : Except JournalError (List JournalEntry) :=
  entries.mapM fun e =>
    match Json.read (ofJson depthLimit) e.toJson with
    | .ok e => .ok e
    | .error fault => .error (.storage fault.message)

theorem reread_eq (entries : List JournalEntry) : reread entries = .ok entries := by
  unfold reread
  induction entries with
  | nil => rfl
  | cons e entries ih =>
    rw [List.mapM_cons, read_toJson, ih]
    rfl

/-- **Entries survive their wire form.** Every entry is read back from its text, different entries have
different texts, and whatever lists and reads the histories of operations, a recovery from histories that
were written out and read in again ends as one from the histories themselves. -/
theorem survives :
    (∀ e : JournalEntry, Json.read (ofJson depthLimit) e.toJson = .ok e) ∧
      Function.Injective toJson ∧
      ∀ (operations : Except JournalError (List OperationId))
        (read : OperationId → Except JournalError (List JournalEntry)),
        recoverPrepared operations (fun id => read id >>= reread) = recoverPrepared operations read := by
  refine ⟨read_toJson, toJson_injective, ?_⟩
  intro operations read
  have hread : (fun id => read id >>= reread) = read := by
    funext id
    rcases read id with e | entries
    · rfl
    · exact reread_eq entries
  rw [hread]

end JournalEntry

end TwoPhase
