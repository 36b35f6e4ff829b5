import TwoPhase.Proofs.Wire.Reading
/-
Lists, pairs, alternatives and records: what is read from one that was written, given what is read from
each of its parts. A list fits if every element does, and the fault of the first that does not is the
fault of the list.
-/

set_option autoImplicit false

namespace TwoPhase.Json

open Ascii

/-! ## Lists -/

/-- The items of a list, each behind a comma. -/
def behindCommas (items : List (List UInt8)) : List UInt8 := items.flatMap (comma :: ·)

theorem separated_cons (item : List UInt8) (items : List (List UInt8)) :
    separated (item :: items) = item ++ behindCommas items := by
  induction items generalizing item with
  | nil => simp [separated, behindCommas]
  | cons next items ih =>
    rw [separated, ih next]
    · rfl
    · simp

theorem delimited_behindCommas (items : List (List UInt8)) {rest : List UInt8}
    (hrest : Delimited rest) : Delimited (behindCommas items ++ rest) := by
  cases items with
  | nil => exact hrest
  | cons item items => exact delimited_comma _

namespace Reader

theorem nextElement_close (first : Bool) (rest : List UInt8) :
    nextElement first (listClose :: rest) = .ok (false, listClose :: rest) := by
  rw [nextElement, bind_ok (peek_run (by decide) _ _), if_pos rfl]
  rfl

theorem nextElement_first {item : List UInt8} (h : Begins item) (rest : List UInt8) :
    nextElement true (item ++ rest) = .ok (true, item ++ rest) := by
  obtain ⟨b, tail, rfl, hblank, hne⟩ := h
  rw [List.cons_append, nextElement, bind_ok (peek_run hblank _ _), if_neg hne, if_pos rfl]
  rfl

theorem nextElement_comma {item : List UInt8} (h : Begins item) (rest : List UInt8) :
    nextElement false (comma :: (item ++ rest)) = .ok (true, item ++ rest) := by
  obtain ⟨b, tail, rfl, hblank, hne⟩ := h
  rw [nextElement, bind_ok (peek_run (by decide) _ _), if_neg (by decide), if_neg (by decide),
    if_pos rfl, bind_ok (advance_run _ _), List.cons_append, bind_ok (peek_run hblank _ _),
    if_neg hne]
  rfl

theorem closeList_run (rest : List UInt8) : closeList (listClose :: rest) = .ok ((), rest) := by
  rw [closeList, bind_ok (peek_run (by decide) _ _), if_pos rfl]
  rfl

section
variable {ι α : Type} {item : Reader α} {text : ι → List UInt8} {fits : ι → Prop} {value : ι → α}

/-- The elements of a list behind the first are read one after the other. -/
theorem elements_behind {l : List ι}
    (h : ∀ i ∈ l, Begins (text i) ∧ Yields item (text i) (fits i) (value i)) {n : Nat}
    (hn : l.length < n) (seen : List α) (rest : List UInt8) :
    Gives (elements item n false seen (behindCommas (l.map text) ++ listClose :: rest))
      (∀ i ∈ l, fits i) (seen.reverse ++ l.map value) (listClose :: rest) := by
  induction l generalizing n seen with
  | nil =>
    obtain ⟨n, rfl⟩ : ∃ m, n = m + 1 := ⟨n - 1, by simp at hn; omega⟩
    refine (gives_ok ?_).congr (by simp)
    rw [List.map_nil, behindCommas, List.flatMap_nil, List.nil_append, elements,
      bind_ok (nextElement_close false rest), if_neg (by decide), List.map_nil, List.append_nil]
    rfl
  | cons i l ih =>
    obtain ⟨n, rfl⟩ : ∃ m, n = m + 1 := ⟨n - 1, by simp at hn; omega⟩
    obtain ⟨hbegins, hyields⟩ := h i List.mem_cons_self
    have htext : behindCommas ((i :: l).map text) ++ listClose :: rest =
        comma :: (text i ++ (behindCommas (l.map text) ++ listClose :: rest)) := by
      rw [List.map_cons, behindCommas, List.flatMap_cons, List.cons_append, List.cons_append,
        List.append_assoc]
      rfl
    have hrest := ih (fun j hj => h j (List.mem_cons_of_mem i hj)) (n := n)
      (by rw [List.length_cons] at hn; omega) (value i :: seen)
    rw [htext, elements, bind_ok (nextElement_comma hbegins _), if_pos rfl]
    have hboth := (hyields _ (delimited_behindCommas (l.map text) (delimited_listClose rest))).bind
      (f := fun x => elements item n false (x :: seen)) hrest
    rw [List.reverse_cons, List.append_assoc, List.singleton_append] at hboth
    exact hboth.congr (by simp)

/-- All elements of a list are read. -/
theorem elements_run {l : List ι}
    (h : ∀ i ∈ l, Begins (text i) ∧ Yields item (text i) (fits i) (value i)) {n : Nat}
    (hn : l.length < n) (rest : List UInt8) :
    Gives (elements item n true [] (separated (l.map text) ++ listClose :: rest))
      (∀ i ∈ l, fits i) (l.map value) (listClose :: rest) := by
  obtain ⟨n, rfl⟩ : ∃ m, n = m + 1 := ⟨n - 1, by omega⟩
  cases l with
  | nil =>
    refine (gives_ok ?_).congr (by simp)
    rw [List.map_nil, separated, List.nil_append, elements,
      bind_ok (nextElement_close true rest), if_neg (by decide)]
    rfl
  | cons i l =>
    obtain ⟨hbegins, hyields⟩ := h i List.mem_cons_self
    have hrest := elements_behind (fun j hj => h j (List.mem_cons_of_mem i hj)) (n := n)
      (by rw [List.length_cons] at hn; omega) [value i] rest
    rw [List.map_cons, separated_cons, List.append_assoc, elements,
      bind_ok (nextElement_first hbegins _), if_pos rfl]
    exact ((hyields _ (delimited_behindCommas (l.map text) (delimited_listClose rest))).bind
      (f := fun x => elements item n false [x]) hrest).congr (by simp)

end

/-- What stands between brackets is read, and the closing bracket with it. -/
theorem bracketed_run {α : Type} (wanted : String) {inside : Reader α} {text rest : List UInt8}
    {fits : Prop} {x : α} (h : Gives (inside (text ++ listClose :: rest)) fits x (listClose :: rest)) :
    Gives (bracketed wanted (some inside) (listOpen :: (text ++ listClose :: rest))) fits x rest := by
  rw [bracketed, bind_ok (peek_run (by decide) _ _), if_pos rfl, bind_ok (advance_run _ _)]
  refine (h.bind (f := fun x => closeList >>= fun _ => pure x) (gives_ok ?_)).congr (by simp)
  rw [bind_ok (closeList_run rest)]
  rfl

/-- An opening bracket is one too many where no more are allowed. -/
theorem bracketed_tooDeep {α : Type} (wanted : String) (x : α) (text rest : List UInt8) :
    Gives (bracketed (α := α) wanted none (listOpen :: text)) False x rest := by
  refine ⟨False.elim, fun _ => ⟨⟨.tooDeep, text⟩, ?_, rfl⟩⟩
  rw [bracketed, bind_ok (peek_run (by decide) _ _), if_pos rfl]
  rfl

end Reader

theorem begins_list (items : List (List UInt8)) : Begins (list items) :=
  ⟨listOpen, _, rfl, by decide, by decide⟩

section
variable {ι α : Type} {item : Reader α} {text : ι → List UInt8} {fits : ι → Prop} {value : ι → α}

/-- A written list in its context. -/
theorem list_append (items : List (List UInt8)) (rest : List UInt8) :
    list items ++ rest = listOpen :: (separated items ++ listClose :: rest) := by
  rw [list, List.cons_append, List.append_assoc, List.singleton_append]

/-- A written list holds more octets than elements. -/
theorem length_separated {l : List ι} (h : ∀ i ∈ l, Begins (text i)) (rest : List UInt8) :
    l.length < (separated (l.map text) ++ listClose :: rest).length + 1 := by
  have hbehind : ∀ m : List ι, m.length ≤ (behindCommas (m.map text)).length := by
    intro m
    induction m with
    | nil => exact Nat.zero_le _
    | cons i m ih =>
      rw [List.map_cons, behindCommas, List.flatMap_cons, List.length_append, List.length_cons,
        List.length_cons]
      have hm : (behindCommas (m.map text)).length =
        ((m.map text).flatMap (comma :: ·)).length := rfl
      omega
  cases l with
  | nil => simp
  | cons i l =>
    have hl := hbehind l
    rw [List.map_cons, separated_cons, List.length_append, List.length_append, List.length_cons,
      List.length_cons]
    omega

/-- **A list is read back.** -/
theorem list_yields {l : List ι}
    (h : ∀ i ∈ l, Begins (text i) ∧ Yields item (text i) (fits i) (value i)) :
    Yields (Reader.list (some item)) (list (l.map text)) (∀ i ∈ l, fits i) (l.map value) := by
  intro rest hrest
  rw [list_append]
  refine Reader.bracketed_run _ ?_
  dsimp only
  rw [Reader.bind_ok (Reader.get_run _)]
  exact Reader.elements_run h (length_separated (fun i hi => (h i hi).1) rest) rest

/-- A list is nested too deep where no more brackets are allowed. -/
theorem list_tooDeep (items : List (List UInt8)) (x : List α) :
    Yields (Reader.list (α := α) none) (list items) False x := by
  intro rest hrest
  rw [list_append]
  exact Reader.bracketed_tooDeep _ x _ rest

end

/-! ## Pairs -/

section
variable {α β : Type} {first : Reader α} {second : Reader β} {a b : List UInt8} {fits fits' : Prop}
  {x : α} {y : β}

/-- **A pair is read back.** -/
theorem pair_yields (ha : Begins a) (hfirst : Yields first a fits x) (hb : Begins b)
    (hsecond : Yields second b fits' y) :
    Yields (Reader.pair (some (first, second))) (list [a, b]) (fits ∧ fits') (x, y) := by
  intro rest hrest
  rw [list_append]
  refine Reader.bracketed_run _ ?_
  have htext : separated [a, b] ++ listClose :: rest =
      a ++ (comma :: (b ++ listClose :: rest)) := by
    rw [separated_cons]
    simp [behindCommas]
  dsimp only
  rw [htext, Reader.bind_ok (Reader.nextElement_first ha _), if_pos rfl]
  refine (hfirst _ (delimited_comma _)).bind ?_
  rw [Reader.bind_ok (Reader.nextElement_comma hb _), if_pos rfl]
  exact ((hsecond _ (delimited_listClose rest)).bind (f := fun b => pure (x, b))
    (gives_ok rfl)).congr (by simp)

/-- A pair is nested too deep where no more brackets are allowed. -/
theorem pair_tooDeep (items : List (List UInt8)) (x : α) (y : β) :
    Yields (Reader.pair (α := α) (β := β) none) (list items) False (x, y) := by
  intro rest hrest
  rw [list_append]
  exact Reader.bracketed_tooDeep _ _ _ rest

end

/-! ## Alternatives -/

theorem begins_tagged (tag : String) (content : List UInt8) : Begins (tagged tag content) :=
  ⟨objectOpen, _, rfl, by decide, by decide⟩

/-- A written member in its context. -/
theorem member_append (key : String) (value rest : List UInt8) :
    member key value ++ rest =
      quote :: ((Text.octets key).flatMap escape ++ quote :: colon :: (value ++ rest)) := by
  rw [member, List.append_assoc, List.cons_append, Reader.quoted_append]

/-- A written object in its context. -/
theorem object_append (members : List (List UInt8)) (rest : List UInt8) :
    object members ++ rest = objectOpen :: (separated members ++ objectClose :: rest) := by
  rw [object, List.cons_append, List.append_assoc, List.singleton_append]

namespace Reader

theorem keyColon_run (rest : List UInt8) : keyColon (colon :: rest) = .ok ((), rest) := by
  rw [keyColon, bind_ok (peek_run (by decide) _ _), if_pos rfl]
  rfl

theorem knownTag_run {known : List String} {tag : String} (h : known.contains tag = true)
    (rest : List UInt8) : knownTag known tag rest = .ok (tag, rest) := by
  rw [knownTag, if_pos h]
  rfl

end Reader

section
variable {α : Type} {known : List String} {bare : String → Reader α}
  {inside : Option (String → Reader α)} {content : String → Reader α} {tag : String}
  {text : List UInt8} {fits : Prop} {x : α}

/-- **An alternative without content is read back.** -/
theorem bare_yields (hknown : known.contains tag = true)
    (h : ∀ rest, bare tag rest = .ok (x, rest)) :
    Yields (Reader.variant known bare inside) (quoted tag) True x := by
  intro rest hrest
  refine gives_ok ?_
  rw [Reader.quoted_append]
  unfold Reader.variant
  rw [Reader.bind_ok (Reader.peek_run (by decide) _ _), if_pos rfl,
    Reader.bind_ok (Reader.advance_run _ _), Reader.bind_ok (Reader.quotedRest_run tag rest),
    Reader.bind_ok (Reader.knownTag_run hknown rest), h rest]

/-- **An alternative is read back with its content.** -/
theorem tagged_yields (hknown : known.contains tag = true) (h : Yields (content tag) text fits x) :
    Yields (Reader.variant known bare (some content)) (tagged tag text) fits x := by
  intro rest hrest
  rw [tagged, object_append, separated, member_append]
  unfold Reader.variant
  rw [Reader.bind_ok (Reader.peek_run (by decide) _ _), if_neg (by decide), if_pos rfl]
  dsimp only
  rw [Reader.bind_ok (Reader.advance_run _ _), Reader.bind_ok (Reader.peek_run (by decide) _ _),
    if_pos rfl, Reader.bind_ok (Reader.advance_run _ _),
    Reader.bind_ok (Reader.quotedRest_run tag _), Reader.bind_ok (Reader.knownTag_run hknown _),
    Reader.bind_ok (Reader.keyColon_run _)]
  refine ((h _ (delimited_objectClose rest)).bind (gives_ok ?_)).congr (by simp)
  rw [Reader.bind_ok (Reader.peek_run (by decide) _ _), if_pos rfl,
    Reader.bind_ok (Reader.advance_run _ _)]
  rfl

/-- An alternative with content is nested too deep where no more brackets are allowed. -/
theorem tagged_tooDeep (tag : String) (text : List UInt8) (x : α) :
    Yields (Reader.variant known bare none) (tagged tag text) False x := by
  intro rest hrest
  refine ⟨False.elim, fun _ =>
    ⟨⟨.tooDeep, separated [member tag text] ++ objectClose :: rest⟩, ?_, rfl⟩⟩
  rw [tagged, object_append]
  unfold Reader.variant
  rw [Reader.bind_ok (Reader.peek_run (by decide) _ _),
    if_neg (by decide), if_pos rfl]
  rfl

end

/-! ## Records -/

/-- What a record's slots make of its members, one after the other. -/
inductive Filling {σ : Type} (slots : List (Reader.Slot σ)) :
    σ → List (String × List UInt8) → Prop → σ → Prop
  | done (acc : σ) : Filling slots acc [] True acc
  | next {acc acc' acc'' : σ} {key : String} {text : List UInt8} {fits fits' : Prop}
      {members : List (String × List UInt8)} {slot : Reader.Slot σ}
      (hfind : slots.find? (·.name == key) = some slot) (hfilled : slot.filled acc = false)
      (hread : Yields (slot.read acc) text fits acc') (h : Filling slots acc' members fits' acc'') :
      Filling slots acc ((key, text) :: members) (fits ∧ fits') acc''

namespace Reader

variable {σ : Type} {slots : List (Slot σ)}

theorem nextKey_close (first : Bool) (rest : List UInt8) :
    nextKey first (objectClose :: rest) = .ok (false, objectClose :: rest) := by
  rw [nextKey, bind_ok (peek_run (by decide) _ _), if_pos rfl]
  rfl

theorem nextKey_first (rest : List UInt8) :
    nextKey true (quote :: rest) = .ok (true, quote :: rest) := by
  rw [nextKey, bind_ok (peek_run (by decide) _ _), if_neg (by decide), if_pos rfl, if_pos rfl]
  rfl

theorem nextKey_comma (rest : List UInt8) :
    nextKey false (comma :: quote :: rest) = .ok (true, quote :: rest) := by
  rw [nextKey, bind_ok (peek_run (by decide) _ _), if_neg (by decide), if_neg (by decide),
    if_pos rfl, bind_ok (advance_run _ _), bind_ok (peek_run (by decide) _ _), if_pos rfl]
  rfl

/-- A member is read into its slot. -/
theorem fields_member {n : Nat} {first : Bool} {acc : σ} {key : String} {slot : Slot σ}
    {input text rest : List UInt8} (hfind : slots.find? (·.name == key) = some slot)
    (hfilled : slot.filled acc = false)
    (hnext : nextKey first input = .ok (true, member key text ++ rest)) :
    fields slots (n + 1) first acc input =
      (slot.read acc >>= fun acc => fields slots n false acc) (text ++ rest) := by
  rw [fields, bind_ok hnext, if_pos rfl, member_append, bind_ok (advance_run _ _),
    bind_ok (quotedRest_run key _)]
  simp only [hfind, hfilled, Bool.false_eq_true, if_false]
  rw [bind_ok (keyColon_run _)]

/-- The members of a record behind the first are read one after the other. -/
theorem fields_behind {members : List (String × List UInt8)} {acc acc' : σ} {fits : Prop}
    (h : Filling slots acc members fits acc') {n : Nat} (hn : members.length < n)
    (rest : List UInt8) :
    Gives (fields slots n false acc
      (behindCommas (members.map fun m => member m.1 m.2) ++ objectClose :: rest)) fits acc'
      (objectClose :: rest) := by
  induction h generalizing n with
  | done acc =>
    obtain ⟨n, rfl⟩ : ∃ m, n = m + 1 := ⟨n - 1, by simp at hn; omega⟩
    refine gives_ok ?_
    rw [List.map_nil, behindCommas, List.flatMap_nil, List.nil_append, fields,
      bind_ok (nextKey_close false rest), if_neg (by decide)]
    rfl
  | @next acc acc' acc'' key text fits fits' members slot hfind hfilled hread h ih =>
    obtain ⟨n, rfl⟩ : ∃ m, n = m + 1 := ⟨n - 1, by simp at hn; omega⟩
    have htext : behindCommas (((key, text) :: members).map fun m => member m.1 m.2) ++
        objectClose :: rest = comma :: (member key text ++
          (behindCommas (members.map fun m => member m.1 m.2) ++ objectClose :: rest)) := by
      rw [List.map_cons, behindCommas, List.flatMap_cons, List.cons_append, List.cons_append,
        List.append_assoc]
      rfl
    rw [htext, fields_member hfind hfilled (by rw [member_append]; exact nextKey_comma _)]
    exact (hread _ (delimited_behindCommas _ (delimited_objectClose rest))).bind
      (ih (by rw [List.length_cons] at hn; omega))

/-- All members of a record are read. -/
theorem fields_run {members : List (String × List UInt8)} {acc acc' : σ} {fits : Prop}
    (h : Filling slots acc members fits acc') {n : Nat} (hn : members.length < n)
    (rest : List UInt8) :
    Gives (fields slots n true acc
      (separated (members.map fun m => member m.1 m.2) ++ objectClose :: rest)) fits acc'
      (objectClose :: rest) := by
  obtain ⟨n, rfl⟩ : ∃ m, n = m + 1 := ⟨n - 1, by omega⟩
  cases h with
  | done acc =>
    refine gives_ok ?_
    rw [List.map_nil, separated, List.nil_append, fields, bind_ok (nextKey_close true rest),
      if_neg (by decide)]
    rfl
  | @next acc acc' acc'' key text fits fits' members slot hfind hfilled hread h =>
    rw [List.map_cons, separated_cons, List.append_assoc,
      fields_member hfind hfilled (by rw [member_append]; exact nextKey_first _)]
    exact (hread _ (delimited_behindCommas _ (delimited_objectClose rest))).bind
      (fields_behind h (by rw [List.length_cons] at hn; omega) rest)

theorem closeObject_run (rest : List UInt8) : closeObject (objectClose :: rest) = .ok ((), rest) := by
  rw [closeObject, bind_ok (peek_run (by decide) _ _), if_pos rfl]
  rfl

end Reader

/-- A written object holds more octets than members. -/
theorem length_members (members : List (String × List UInt8)) (rest : List UInt8) :
    members.length <
      (separated (members.map fun m => member m.1 m.2) ++ objectClose :: rest).length + 1 := by
  have hmembers : members.length <
      (separated (members.map fun m => member m.1 m.2) ++ listClose :: rest).length + 1 :=
    length_separated (fun m _ => ⟨quote, _, rfl, by decide, by decide⟩) rest
  rw [List.length_append] at hmembers ⊢
  exact hmembers

/-- **A record is read back.** -/
theorem record_yields {σ α : Type} {shape : Reader.Shape σ α} {acc : σ} {fits : Prop} {x : α}
    (wanted : String) {members : List (String × List UInt8)}
    (h : Filling shape.slots shape.blank members fits acc) (hfinish : shape.finish acc = .ok x) :
    Yields (Reader.record wanted (some shape)) (object (members.map fun m => member m.1 m.2)) fits
      x := by
  intro rest hrest
  rw [object_append]
  unfold Reader.record
  rw [Reader.bind_ok (Reader.peek_run (by decide) _ _), if_neg (by decide), if_pos rfl]
  dsimp only
  rw [Reader.bind_ok (Reader.advance_run _ _), Reader.bind_ok (Reader.get_run _)]
  refine ((Reader.fields_run h (length_members members rest) rest).bind (gives_ok ?_)).congr
    (by simp)
  rw [Reader.bind_ok (Reader.closeObject_run rest), hfinish]
  rfl

/-- A record is nested too deep where no more brackets are allowed. -/
theorem record_tooDeep {σ α : Type} (wanted : String) (members : List (List UInt8)) (x : α) :
    Yields (Reader.record (σ := σ) wanted none) (object members) False x := by
  intro rest hrest
  refine ⟨False.elim, fun _ => ⟨⟨.tooDeep, separated members ++ objectClose :: rest⟩, ?_, rfl⟩⟩
  rw [object_append]
  unfold Reader.record
  rw [Reader.bind_ok (Reader.peek_run (by decide) _ _), if_neg (by decide), if_pos rfl]
  rfl

end TwoPhase.Json
