import TwoPhase.Proofs.Wire.Images
import TwoPhase.Proofs.Wire.Payloads
/-
Whatever can be read can be written, and is then read again. The writer has one spelling for each payload
and the reader admits many, but none of them leads to a payload that the writer refuses or that the reader
would find too deep: a reader with room for `k` levels makes only values that nest at most `k` levels, as
each of its alternatives spends the levels that the writer will need.
-/

set_option autoImplicit false

namespace TwoPhase

open Json Json.Reader

/-! ## Values -/

namespace Value

/-- The values that a reader with room for `k` levels can make: all their doubles are numbers, and they
nest no deeper. -/
structure Fits (k : ℕ) (v : Value) : Prop where
  finite : v.isFinite = true
  depth_le : v.depth ≤ k

variable {k : ℕ}

/-- A list takes two levels more than its items, of which one is left behind the tag. -/
theorem fits_list {inner : ℕ} {items : List Value} (h : ∀ v ∈ items, v.Fits inner) :
    (Value.list items).Fits (inner + 2) := by
  constructor
  · rw [isFinite, areFinite_iff]
    exact fun v hv => (h v hv).finite
  · rw [depth, Nat.add_le_add_iff_right, itemDepth_le]
    exact fun v hv => (h v hv).depth_le

/-- A map takes two levels more than its entries. -/
theorem fits_object (inner : ℕ) {fields : List (String × Value)}
    (h : ∀ f ∈ fields, f.2.isFinite = true ∧ f.2.depth + 1 ≤ inner) :
    (Value.object fields).Fits (inner + 2) := by
  constructor
  · rw [isFinite, areFiniteEntries_iff]
    exact fun f hf => (h f hf).1
  · rw [depth, Nat.add_le_add_iff_right, entryDepth_le]
    exact fun f hf => (h f hf).2

theorem scalarContent_produces (tag : String) (bytes : Option (Reader Int))
    (hbytes : ∀ r ∈ bytes, 1 ≤ k) : Produces (scalarContent tag bytes) (Fits (k + 1)) := by
  have hany {α : Type} {r : Reader α} : Produces r fun _ => True := fun _ _ _ _ => trivial
  have hone {v : Value} (hfinite : v.isFinite = true) (hdepth : v.depth ≤ 1) : v.Fits (k + 1) :=
    ⟨hfinite, Nat.le_add_left_of_le hdepth⟩
  unfold scalarContent
  split
  · exact .after fun _ => .pure ⟨rfl, Nat.zero_le _⟩
  · exact hany.map fun b _ => hone rfl (Nat.le_refl 1)
  · exact hany.map fun i _ => hone rfl (Nat.le_refl 1)
  · exact hany.map fun i _ => hone rfl (Nat.le_refl 1)
  · exact double_produces.map fun d hd => hone hd (Nat.le_refl 1)
  · exact hany.map fun s _ => hone rfl (Nat.le_refl 1)
  · have hlist : Produces (Reader.list bytes) fun _ => 1 ≤ k := by
      refine bracketed_produces fun r hr => ?_
      obtain ⟨octet, hoctet, -⟩ := Option.map_eq_some_iff.mp hr
      exact fun _ _ _ _ => hbytes octet hoctet
    exact hlist.map fun b hk => ⟨rfl, Nat.add_le_add_right hk 1⟩
  · exact produces_fail _

/-- The content of a value takes its levels from those that the value may nest. -/
theorem content_produces (ih : ∀ inner < k, Produces (ofJson inner) (Fits inner)) (tag : String) :
    Produces (content k tag) (Fits (k + 1)) := by
  unfold content
  refine .ite (fun _ => ?_) fun _ => .ite (fun _ => ?_) fun _ => ?_
  · obtain _ | inner := k
    · exact (list_none_produces (R := fun _ => False)).map fun _ => False.elim
    · refine (list_produces (P := Fits inner) ?_).map fun items => fits_list
      rintro r ⟨rfl⟩
      exact ih inner (Nat.lt_succ_self inner)
  · obtain _ | _ | inner := k
    · exact (list_none_produces (R := fun _ => False)).map fun _ => False.elim
    · refine (list_produces (P := fun _ => False) ?_).map fun fields h => ?_
      · rintro r ⟨rfl⟩
        exact bracketed_produces (by simp)
      · exact fits_object 0 fun f hf => (h f hf).elim
    · refine (list_produces (P := fun f => f.2.Fits inner) ?_).map fun fields h => ?_
      · rintro r ⟨rfl⟩
        refine pair_produces ?_
        rintro r ⟨rfl⟩
        exact ih inner (by omega)
      · exact fits_object (inner + 1) fun f hf => ⟨(h f hf).finite, Nat.succ_le_succ (h f hf).depth_le⟩
  · refine scalarContent_produces tag _ fun r hr => ?_
    by_contra hk
    rw [if_pos (by omega)] at hr
    contradiction

/-- **A reader makes only values that it has room for, and no double but a finite one.** -/
theorem ofJson_produces (k : ℕ) : Produces (ofJson k) (Fits k) := by
  have hbare (k : ℕ) (tag : String) : Produces (ofBareTag tag) (Fits k) :=
    .ite (fun _ => .pure ⟨rfl, Nat.zero_le k⟩) fun _ => produces_fail _
  induction k using Nat.strong_induction_on with
  | _ k ih =>
    cases k with
    | zero => exact variant_produces (hbare 0) (by simp)
    | succ k =>
      rw [ofJson_succ]
      refine variant_produces (hbare (k + 1)) ?_
      rintro content ⟨rfl⟩ tag
      exact content_produces (fun inner hinner => ih inner (by omega)) tag

end Value

/-! ## Attachments -/

namespace Attachment

/-- Octets are made only where there is room for their list. -/
theorem dataOfJson_produces (k : ℕ) : Produces (dataOfJson k) fun _ => 1 ≤ k := by
  refine Produces.map (P := fun _ => 1 ≤ k) ?_ fun _ hk => hk
  refine bracketed_produces fun r hr => ?_
  by_cases hk : k = 0
  · rw [if_pos hk] at hr
    contradiction
  · exact fun _ _ _ _ => Nat.pos_of_ne_zero hk

/-- An attachment is made only where there is room for its two levels. -/
theorem ofJson_produces (k : ℕ) : Produces (ofJson k) fun _ => 2 ≤ k := by
  obtain _ | inner := k
  · exact record_produces (P := fun _ => True) (by simp) (by simp) (by simp)
  refine record_produces (P := fun acc : Fields => acc.data.isSome = true → 2 ≤ inner + 1) ?_ ?_ ?_
  · rintro s ⟨rfl⟩ hdata
    contradiction
  · rintro s ⟨rfl⟩
    refine List.forall_mem_cons.mpr ⟨fun acc hacc => ?_, List.forall_mem_singleton.mpr ?_⟩
    · exact .after fun name => .pure hacc
    · intro acc _
      exact (dataOfJson_produces inner).bind fun data hinner => .pure fun _ => Nat.succ_le_succ hinner
  · rintro s ⟨rfl⟩ acc a hacc hfinish
    obtain ⟨name, data⟩ := acc
    cases data with
    | none => cases name <;> contradiction
    | some data => exact hacc rfl

/-- Attachments are made only where there is room for them. -/
theorem allOfJson_produces (k : ℕ) :
    Produces (allOfJson k) fun attachments => depthOfAll attachments ≤ k := by
  obtain _ | inner := k
  · exact list_none_produces
  · refine (list_produces (P := fun _ => 2 ≤ inner) ?_).mono fun attachments => depthOfAll_le.mpr
    rintro r ⟨rfl⟩
    exact ofJson_produces inner

end Attachment

/-! ## Payloads -/

namespace Payload

/-- The fields of a payload met so far, as a reader with room for `k` levels can make them. -/
structure Fields.Fit (k : ℕ) (acc : Fields) : Prop where
  request : ∀ v ∈ acc.request, v.Fits k
  attachments : ∀ attachments ∈ acc.attachments, Attachment.depthOfAll attachments ≤ k

/-- A payload is made of the two fields that were met. -/
theorem finish_eq_ok {k : ℕ} {acc : Fields} {p : Payload} (h : (shape k).finish acc = .ok p) :
    acc.request = some p.request ∧ acc.attachments = some p.attachments := by
  obtain ⟨request, attachments⟩ := acc
  cases request with
  | none => contradiction
  | some request =>
    cases attachments with
    | none => contradiction
    | some attachments =>
      obtain rfl := Except.ok.inj h
      exact ⟨rfl, rfl⟩

/-- A reader makes only payloads that it has room for and that have a wire form. -/
theorem ofJson_produces (k : ℕ) :
    Produces (ofJson k) fun p => p.request.isFinite = true ∧ p.depth ≤ k := by
  obtain _ | inner := k
  · exact record_produces (P := fun _ => True) (by simp) (by simp) (by simp)
  refine record_produces (P := Fields.Fit inner) ?_ ?_ ?_
  · rintro s ⟨rfl⟩
    exact ⟨by simp [shape], by simp [shape]⟩
  · rintro s ⟨rfl⟩
    refine List.forall_mem_cons.mpr ⟨fun acc hacc => ?_, List.forall_mem_singleton.mpr ?_⟩
    · refine (Value.ofJson_produces inner).bind fun v hv => .pure ⟨?_, hacc.attachments⟩
      rintro w ⟨rfl⟩
      exact hv
    · intro acc hacc
      refine (Attachment.allOfJson_produces inner).bind fun as has => .pure ⟨hacc.request, ?_⟩
      rintro bs ⟨rfl⟩
      exact has
  · rintro s ⟨rfl⟩ acc p hacc hfinish
    obtain ⟨hrequest, hattachments⟩ := finish_eq_ok hfinish
    have hfits := hacc.request _ hrequest
    exact ⟨hfits.finite,
      Nat.succ_le_succ (Nat.max_le.mpr ⟨hfits.depth_le, hacc.attachments _ hattachments⟩)⟩

/-- Reading a whole text makes what its reader makes. -/
theorem decode_sound {bytes : List UInt8} {p : Payload} (h : decode bytes = .ok p) :
    p.request.isFinite = true ∧ p.depth ≤ depthLimit := by
  unfold decode Json.read at h
  split at h
  · contradiction
  · rename_i x rest hread
    split at h
    · obtain rfl := Except.ok.inj h
      exact ofJson_produces depthLimit bytes x rest hread
    · contradiction

/-- **Whatever is decoded can be sent again.** Of a payload that some octets were decoded to, however they
spelled it, every double in the request is finite, and there is a text as which every operation with that
request and those attachments is encoded, under any limit that admits the length of the text; and the
text is decoded to the same payload. -/
theorem sendable_of_decoded {bytes : List UInt8} {p : Payload} (h : decode bytes = .ok p) :
    (∀ d, p.request.Holds d → d.isFinite = true) ∧
      ∃ text, decode text = .ok p ∧
        ∀ op : Operation, op.request = p.request → op.attachments = p.attachments →
          ∀ limit, text.length ≤ limit → op.payload.encode limit = .ok text := by
  obtain ⟨hfinite, hdepth⟩ := decode_sound h
  refine ⟨(p.request.isFinite_iff).mp hfinite, p.toJson, ?_, ?_⟩
  · exact ((ofJson_yields hfinite depthLimit).read).1 hdepth
  · rintro ⟨request, attachments, sink⟩ rfl rfl limit hlimit
    exact encode_eq_ok.mpr ⟨hfinite, hlimit, rfl⟩

/-- A payload spelled as lists where records are written, with blanks, an escape, a number that is not
written as doubles are, and content where a bare tag would do. -/
def unusual : List UInt8 := Text.octets
  " [ \x7b\"List\" : [ \x7b\"Undefined\":null\x7d, \x7b\"Double\":10e-1\x7d ]\x7d , [[\"\\u0061\", [7]]] ]"

/-- The text that an unusual one is sent as differs from it, and says the same. -/
theorem sendable_of_unusual :
    let p : Payload := ⟨.list [.undefined, .double (.ofNat false 1)], [⟨"a", [7]⟩]⟩
    decode unusual = .ok p ∧ ∃ text, text ≠ unusual ∧ decode text = .ok p ∧
      Payload.encode p text.length = .ok text := by
  intro p
  have hdecode : decode unusual = .ok p := rfl
  obtain ⟨-, text, htext, hencode⟩ := sendable_of_decoded hdecode
  have hsent := hencode ⟨p.request, p.attachments, .discard⟩ rfl rfl text.length (Nat.le_refl _)
  refine ⟨hdecode, text, ?_, htext, hsent⟩
  rintro rfl
  -- the one begins with a brace, the other with a blank
  have hhead : p.toJson.head? = unusual.head? := congrArg List.head? (encode_eq_ok.mp hsent).2.2
  have hbrace : p.toJson.head? = some Ascii.objectOpen := rfl
  have hblank : unusual.head? = some (Ascii.octet ' ') := rfl
  rw [hbrace, hblank] at hhead
  exact absurd hhead (by decide)

end Payload

end TwoPhase
