/-
Text as octets and octets as text. Frames travel as lists of octets; the text inside them is UTF-8.
Reading octets back as text either succeeds as a whole (`text?`) or, where a reader only wants to
see what was sent, shows a replacement character for each ill-formed stretch (`readable`).
-/

set_option autoImplicit false

namespace TwoPhase.Text

/-- The UTF-8 octets of a text. -/
def octets (s : String) : List UInt8 := s.toByteArray.data.toList

/-- The text that the octets spell, if they are well-formed UTF-8. -/
def text? (bytes : List UInt8) : Option String := String.fromUTF8? ⟨bytes.toArray⟩

/-- What is written is read back: octets of a text always spell that text. -/
theorem text?_octets (s : String) : text? (octets s) = some s := by
  have h : s.toByteArray.IsValidUTF8 := s.isValidUTF8
  simp [text?, octets, String.fromUTF8?, h, String.fromUTF8]

/-- What the first octet of a character of several octets announces: how many octets follow, the
bounds of the second one, and the bits that the first contributes. -/
structure Lead where
  following : Nat
  low : UInt8
  high : UInt8
  bits : Nat

/-- The bounds on the second octet keep out overlong forms, surrogates and code points past the
last plane. -/
def lead? (b : UInt8) : Option Lead :=
  let bits := b.toNat
  if b < 0xC2 then none
  else if b ≤ 0xDF then some ⟨1, 0x80, 0xBF, bits - 0xC0⟩
  else if b = 0xE0 then some ⟨2, 0xA0, 0xBF, bits - 0xE0⟩
  else if b = 0xED then some ⟨2, 0x80, 0x9F, bits - 0xE0⟩
  else if b ≤ 0xEF then some ⟨2, 0x80, 0xBF, bits - 0xE0⟩
  else if b = 0xF0 then some ⟨3, 0x90, 0xBF, bits - 0xF0⟩
  else if b ≤ 0xF3 then some ⟨3, 0x80, 0xBF, bits - 0xF0⟩
  else if b = 0xF4 then some ⟨3, 0x80, 0x8F, bits - 0xF0⟩
  else none

/-- The octets after a first one that can still belong to its character. -/
def following (l : Lead) : List UInt8 → List UInt8
  | [] => []
  | b :: rest =>
    if l.low ≤ b ∧ b ≤ l.high then
      b :: (rest.takeWhile fun c => 0x80 ≤ c && c ≤ 0xBF).take (l.following - 1)
    else []

/-- The octets as a reader sees them: each ill-formed stretch, as long as it could still have become
a character, is one replacement character. The count bounds the octets left and is never reached. -/
def readableUpTo : Nat → List UInt8 → List Char
  | 0, _ => []
  | _, [] => []
  | n + 1, b :: rest =>
    if b < 0x80 then Char.ofNat b.toNat :: readableUpTo n rest
    else
      match lead? b with
      | none => Char.ofNat 0xFFFD :: readableUpTo n rest
      | some l =>
        let more := following l rest
        let shown :=
          if more.length = l.following then
            Char.ofNat (more.foldl (fun acc c => acc * 64 + (c.toNat - 0x80)) l.bits)
          else Char.ofNat 0xFFFD
        shown :: readableUpTo n (rest.drop more.length)

/-- The octets as text for a reader. -/
def readable (bytes : List UInt8) : String := String.ofList (readableUpTo bytes.length bytes)

end TwoPhase.Text
