import TwoPhase.Operation.Payload
import TwoPhase.Proofs.Wire.Values
/-
Payloads are read back. Encoding refuses a payload for one of two reasons only, and the octets of any
other spell that payload and nothing else, but for one limit: a text that nests more levels of brackets
than a reader admits is refused for that reason, however well it was written.
-/

set_option autoImplicit false

namespace TwoPhase

open Json

/-- A double that is no number is a NaN or an infinity. -/
theorem Double.not_isFinite_iff (d : Double) :
    ¬ (d.isFinite = true) ↔ d.isNaN = true ∨ d.magnitude = infinityBits := by
  unfold isFinite isNaN
  simp only [decide_eq_true_eq]
  omega

/-! ## Attachments -/

namespace Attachment

/-- How many levels of brackets the text of some attachments nests: a list, an object for each of them
and the list of its octets. -/
def depthOfAll (attachments : List Attachment) : Nat := deepestOf (attachments.map fun _ => 2) + 1

theorem depthOfAll_le {attachments : List Attachment} {k : Nat} :
    depthOfAll attachments ≤ k + 1 ↔ ∀ a ∈ attachments, 2 ≤ k := by
  rw [depthOfAll, Nat.succ_le_succ_iff]
  induction attachments with
  | nil => simp [deepestOf]
  | cons a attachments ih =>
    rw [List.map_cons, deepestOf, List.foldr_cons, Nat.max_le, List.forall_mem_cons, ← ih, deepestOf]

theorem nests_toJson (a : Attachment) : Nests a.toJson 2 := by
  have hmembers : ∀ part ∈ [(Json.member "name" (Json.quoted a.name), 0),
      (Json.member "data" (Json.list (a.data.map fun o => Json.integer o.toNat)), 1)],
      Nests part.1 part.2 := by
    simp [nests_member, nests_quoted, Value.nests_octets]
  exact nests_object hmembers

theorem nests_allToJson (attachments : List Attachment) :
    Nests (allToJson attachments) (depthOfAll attachments) :=
  nests_list fun a _ => a.nests_toJson

/-- An attachment is read back by a reader with room for its two levels. -/
theorem ofJson_yields (a : Attachment) (k : Nat) : Yields (ofJson k) a.toJson (2 ≤ k) a := by
  cases k with
  | zero => exact (record_tooDeep _ _ a).congr (by simp)
  | succ k =>
    have hdata := (Value.octets_yields a.data k).map (List.map fun i => UInt8.ofNat i.toNat)
    rw [Value.map_ofNat_toNat] at hdata
    have hfilling : Filling (shape k).slots (shape k).blank
        [("name", Json.quoted a.name),
          ("data", Json.list (a.data.map fun o => Json.integer o.toNat))]
        (True ∧ 1 ≤ k ∧ True) ⟨some a.name, some a.data⟩ := by
      refine .next rfl rfl ((string_yields a.name).bind_pure fun s => Fields.mk (some s) none) ?_
      refine .next rfl rfl (hdata.bind_pure fun b => Fields.mk (some a.name) (some b)) ?_
      exact .done _
    refine (record_yields "struct Attachment" hfilling rfl).congr ?_
    rw [true_and, and_true, Nat.succ_le_succ_iff]

/-- The attachments of an operation are read back by a reader with room for their depth. -/
theorem allOfJson_yields (attachments : List Attachment) (k : Nat) :
    Yields (allOfJson k) (allToJson attachments) (depthOfAll attachments ≤ k) attachments := by
  cases k with
  | zero => exact (list_tooDeep _ attachments).congr (by simp [depthOfAll])
  | succ k =>
    have hyields := list_yields fun a (_ : a ∈ attachments) =>
      ⟨⟨Ascii.objectOpen, _, rfl, by decide, by decide⟩, ofJson_yields a k⟩
    rw [List.map_id'] at hyields
    exact hyields.congr depthOfAll_le.symm

end Attachment

/-! ## Payloads -/

namespace Payload

/-- How many levels of brackets the text of a payload nests. -/
def depth (p : Payload) : Nat := max p.request.depth (Attachment.depthOfAll p.attachments) + 1

/-- **The text of a payload nests as deep as the payload.** -/
theorem nesting_toJson {p : Payload} (hfinite : p.request.isFinite = true) :
    nesting p.toJson = p.depth := by
  have hmembers : ∀ part ∈ [(Json.member "request" p.request.toJson, p.request.depth),
      (Json.member "attachments" (Attachment.allToJson p.attachments),
        Attachment.depthOfAll p.attachments)], Nests part.1 part.2 := by
    simp [nests_member, Value.nests_toJson hfinite, Attachment.nests_allToJson]
  have hnests := (nests_object hmembers).nesting_eq
  simp only [List.map_cons, List.map_nil, deepestOf, List.foldr_cons, List.foldr_nil, Nat.max_zero]
    at hnests
  exact hnests

/-- **A payload is read back**, by a reader with room for its depth. -/
theorem ofJson_yields {p : Payload} (hfinite : p.request.isFinite = true) (k : Nat) :
    Yields (ofJson k) p.toJson (p.depth ≤ k) p := by
  cases k with
  | zero => exact (record_tooDeep _ _ p).congr (by simp [depth])
  | succ k =>
    have hrequest := Value.ofJson_yields hfinite k
    have hattachments := Attachment.allOfJson_yields p.attachments k
    have hfilling : Filling (shape k).slots (shape k).blank
        [("request", p.request.toJson), ("attachments", Attachment.allToJson p.attachments)]
        (p.request.depth ≤ k ∧ Attachment.depthOfAll p.attachments ≤ k ∧ True)
        ⟨some p.request, some p.attachments⟩ := by
      refine .next rfl rfl (hrequest.bind_pure fun v => Fields.mk (some v) none) ?_
      refine .next rfl rfl (hattachments.bind_pure fun as => Fields.mk (some p.request) (some as)) ?_
      exact .done _
    refine (record_yields "struct ExecutePayload" hfilling rfl).congr ?_
    rw [depth, Nat.succ_le_succ_iff, Nat.max_le, and_true]

end Payload

/-- A text is read as a whole if a reader gets what was written, and is refused as too deep if not. -/
theorem Json.Yields.read {α : Type} {r : Reader α} {text : List UInt8} {fits : Prop} {x : α}
    (h : Yields r text fits x) :
    (fits → Json.read r text = .ok x) ∧
      (¬ fits → ∃ e, Json.read r text = .error e ∧ e.fault = .tooDeep) := by
  have hgives := h [] delimited_nil
  rw [List.append_nil] at hgives
  unfold Json.read
  constructor
  · intro hfits
    rw [hgives.ok hfits]
    rfl
  · intro hnot
    obtain ⟨halt, herror, hfault⟩ := hgives.tooDeep hnot
    rw [herror]
    exact ⟨_, rfl, hfault⟩

namespace Payload

/-- Encoding succeeds with the text of the payload, if at all. -/
theorem encode_eq_ok {p : Payload} {limit : Nat} {bytes : List UInt8} :
    p.encode limit = .ok bytes ↔
      p.request.isFinite = true ∧ p.toJson.length ≤ limit ∧ p.toJson = bytes := by
  unfold encode
  by_cases hfinite : p.request.isFinite = true
  · rw [if_pos hfinite]
    dsimp only
    by_cases hlong : limit < p.toJson.length
    · rw [if_pos hlong]
      constructor
      · intro h
        contradiction
      · rintro ⟨-, hle, -⟩
        omega
    · rw [if_neg hlong, Except.ok.injEq]
      exact ⟨fun h => ⟨hfinite, Nat.le_of_not_lt hlong, h⟩, fun h => h.2.2⟩
  · rw [if_neg hfinite]
    constructor
    · intro h
      contradiction
    · rintro ⟨h, -⟩
      exact absurd h hfinite

/-- Encoding fails if there is no wire form, or if the limit does not admit it. -/
theorem encode_eq_error {p : Payload} {limit : Nat} :
    (∃ e, p.encode limit = .error e) ↔
      ¬ (p.request.isFinite = true) ∨ limit < p.toJson.length := by
  constructor
  · rintro ⟨e, he⟩
    by_contra hnot
    obtain ⟨hfinite, hlong⟩ := not_or.mp hnot
    have hok : p.encode limit = .ok p.toJson :=
      encode_eq_ok.mpr ⟨not_not.mp hfinite, Nat.le_of_not_lt hlong, rfl⟩
    rw [hok] at he
    contradiction
  · intro hrefused
    cases hencode : p.encode limit with
    | error e => exact ⟨e, rfl⟩
    | ok bytes =>
      obtain ⟨hfinite, hle, -⟩ := encode_eq_ok.mp hencode
      obtain hinfinite | hlong := hrefused
      · exact absurd hfinite hinfinite
      · omega

/-- **What was encoded is decoded**, up to the limit on brackets and not beyond. -/
theorem decode_encode {p : Payload} {limit : Nat} {bytes : List UInt8}
    (h : p.encode limit = .ok bytes) :
    (nesting bytes ≤ depthLimit → decode bytes = .ok p) ∧
      (depthLimit < nesting bytes → ∃ e, decode bytes = .error e ∧ e.fault = .tooDeep) := by
  obtain ⟨hfinite, -, rfl⟩ := encode_eq_ok.mp h
  obtain ⟨hok, htooDeep⟩ := (ofJson_yields hfinite depthLimit).read
  rw [nesting_toJson hfinite]
  exact ⟨hok, fun hlt => htooDeep (Nat.not_le_of_lt hlt)⟩

/-- **The round trip of a payload, with its exact limit.** Encoding fails exactly if a double somewhere in
the request is a NaN or an infinity or if the text is longer than the limit. The octets that it gives are
decoded to the same payload if they nest at most 127 levels of brackets, and are refused for their depth
otherwise. -/
theorem round_trip (p : Payload) (limit : Nat) :
    ((∃ e, p.encode limit = .error e) ↔
        (∃ d, p.request.Holds d ∧ (d.isNaN = true ∨ d.magnitude = Double.infinityBits)) ∨
          limit < p.toJson.length) ∧
      ∀ bytes, p.encode limit = .ok bytes → bytes = p.toJson ∧
        (nesting bytes ≤ 127 → decode bytes = .ok p) ∧
        (127 < nesting bytes → ∃ e, decode bytes = .error e ∧ e.fault = .tooDeep ∧
          e.message = "recursion limit exceeded" ++ e.place.message) := by
  constructor
  · rw [encode_eq_error, Value.isFinite_iff]
    refine or_congr ?_ Iff.rfl
    simp only [not_forall, exists_prop]
    exact exists_congr fun d => and_congr Iff.rfl d.not_isFinite_iff
  · intro bytes h
    obtain ⟨hok, htooDeep⟩ := decode_encode h
    refine ⟨(encode_eq_ok.mp h).2.2.symm, hok, fun hlt => ?_⟩
    obtain ⟨e, herror, hfault⟩ := htooDeep hlt
    refine ⟨e, herror, hfault, ?_⟩
    rw [ReadError.message, hfault]
    rfl

/-- A value inside so many lists. -/
def nested (v : Value) : Nat → Value
  | 0 => v
  | n + 1 => .list [nested v n]

/-- Each list takes two levels. -/
theorem depth_nested (v : Value) (n : Nat) : (nested v n).depth = v.depth + 2 * n := by
  induction n with
  | zero => rfl
  | succ n ih =>
    rw [nested, Value.depth, Value.itemDepth, Value.itemDepth, ih]
    omega

theorem isFinite_nested {v : Value} (hfinite : v.isFinite = true) (n : Nat) :
    (nested v n).isFinite = true := by
  induction n with
  | zero => exact hfinite
  | succ n ih => rw [nested, Value.isFinite, Value.areFinite, Value.areFinite, ih, Bool.and_true]

/-- Inside sixty-three lists, an undefined value is decoded and a truth value is refused. -/
theorem round_trip_of_nested :
    decode (Payload.mk (nested .undefined 63) []).toJson = .ok ⟨nested .undefined 63, []⟩ ∧
      ∃ e, decode (Payload.mk (nested (.boolean true) 63) []).toJson = .error e ∧
        e.message = "recursion limit exceeded" ++ e.place.message := by
  have hbelow : (Payload.mk (nested .undefined 63) []).request.isFinite = true :=
    isFinite_nested rfl 63
  have habove : (Payload.mk (nested (.boolean true) 63) []).request.isFinite = true :=
    isFinite_nested rfl 63
  have hfits : nesting (Payload.mk (nested .undefined 63) []).toJson ≤ 127 := by
    rw [nesting_toJson hbelow, depth, depth_nested]
    decide
  have hdeep : 127 < nesting (Payload.mk (nested (.boolean true) 63) []).toJson := by
    rw [nesting_toJson habove, depth, depth_nested]
    decide
  constructor
  · obtain ⟨-, hok, -⟩ := (round_trip _ _).2 _ (encode_eq_ok.mpr ⟨hbelow, Nat.le_refl _, rfl⟩)
    exact hok hfits
  · obtain ⟨-, -, htooDeep⟩ := (round_trip _ _).2 _ (encode_eq_ok.mpr ⟨habove, Nat.le_refl _, rfl⟩)
    obtain ⟨e, herror, -, hmessage⟩ := htooDeep hdeep
    exact ⟨e, herror, hmessage⟩

end Payload

end TwoPhase
