-- SUMMARY: UTF-8 encoding and decoding, and the size of a text in bytes.
/-!
# Text as bytes

Files hold bytes, lines hold characters. `decode` reads bytes as UTF-8 and refuses whatever is
not; `encode` writes characters. Offsets into a text count bytes.
-/

namespace WitnessLift.Text

/-- The content of a file. -/
abbrev Bytes := List UInt8

/-- The UTF-8 bytes of a text. -/
def encode (s : List Char) : Bytes :=
  s.flatMap String.utf8EncodeChar

/-- The text that the bytes spell in UTF-8, if they do. -/
def decode (bytes : Bytes) : Option (List Char) :=
  (String.fromUTF8? bytes.toByteArray).map String.toList

/-- The number of bytes of a text. -/
def byteSize (s : List Char) : Nat :=
  s.foldr (fun c n => c.utf8Size + n) 0

/-- What follows the first `n` bytes; `none` if the text is shorter or `n` falls inside a
character. -/
def dropBytes? : Nat → List Char → Option (List Char)
  | 0, s => some s
  | _ + 1, [] => none
  | n + 1, c :: s => if c.utf8Size ≤ n + 1 then dropBytes? (n + 1 - c.utf8Size) s else none

/-- The first `n` bytes; `none` if the text is shorter or `n` falls inside a character. -/
def takeBytes? : Nat → List Char → Option (List Char)
  | 0, _ => some []
  | _ + 1, [] => none
  | n + 1, c :: s =>
    if c.utf8Size ≤ n + 1 then (takeBytes? (n + 1 - c.utf8Size) s).map (c :: ·) else none

/-! ## Laws -/

@[simp] theorem encode_append (s t : List Char) : encode (s ++ t) = encode s ++ encode t := by
  simp [encode]

@[simp] theorem byteSize_nil : byteSize [] = 0 := rfl

@[simp] theorem byteSize_cons (c : Char) (s : List Char) :
    byteSize (c :: s) = c.utf8Size + byteSize s := rfl

@[simp] theorem byteSize_append (s t : List Char) :
    byteSize (s ++ t) = byteSize s + byteSize t := by
  induction s with
  | nil => simp
  | cons c s ih => rw [List.cons_append, byteSize_cons, byteSize_cons, ih, Nat.add_assoc]

/-- A text is what its bytes spell. -/
theorem decode_encode (s : List Char) : decode (encode s) = some s := by
  have h : (encode s).toByteArray = (String.ofList s).toByteArray := by
    simp [encode, List.utf8Encode]
  unfold decode String.fromUTF8?
  rw [h, dif_pos (String.ofList s).isValidUTF8]
  exact congrArg some String.toList_ofList

end WitnessLift.Text
