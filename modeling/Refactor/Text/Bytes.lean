/-!
# Texts as bytes

Sources are addressed by byte offsets into their UTF-8 form. `byteLength` is the size of a
text in bytes, `splitAtByte?` cuts a text at an offset that lies between two characters, and
`pointAt` turns an offset into a row and a column, both counted in bytes.

File contents arrive as bytes: `decode?` accepts well-formed UTF-8 only, and `decodeLossy`
puts one replacement character for each ill-formed sequence, where a sequence is the longest
start of a character's encoding that the bytes hold (at least one byte).
-/

namespace Refactor.Text

/-! ## Offsets -/

/-- The number of bytes that a text takes. -/
def byteLength (cs : List Char) : Nat :=
  cs.foldr (fun c n => c.utf8Size + n) 0

/-- Cuts at byte offset `n`, unless the offset falls inside a character or beyond the end. -/
def splitAtByte? : Nat → List Char → Option (List Char × List Char)
  | 0, cs => some ([], cs)
  | _ + 1, [] => none
  | n + 1, c :: cs =>
    if n + 1 < c.utf8Size then none
    else (splitAtByte? (n + 1 - c.utf8Size) cs).map fun parts => (c :: parts.1, parts.2)

/-- The text between two byte offsets; nothing when one of them is not a character boundary. -/
def slice (cs : List Char) (start stop : Nat) : List Char :=
  match splitAtByte? start cs with
  | none => []
  | some (_, rest) =>
    match splitAtByte? (stop - start) rest with
    | none => []
    | some (inside, _) => inside

/-- Row and column after `n` more bytes, from row `row` and column `column`. -/
def pointFrom (row column : Nat) : Nat → List Char → Nat × Nat
  | 0, _ => (row, column)
  | n + 1, [] => (row, column + (n + 1))
  | n + 1, c :: cs =>
    if n + 1 < c.utf8Size then (row, column + (n + 1))
    else if c = '\n' then pointFrom (row + 1) 0 (n + 1 - c.utf8Size) cs
    else pointFrom row (column + c.utf8Size) (n + 1 - c.utf8Size) cs

/-- The row (line feeds before the offset) and the column (bytes since the last one). -/
def pointAt (cs : List Char) (offset : Nat) : Nat × Nat :=
  pointFrom 0 0 offset cs

/-! ## Decoding -/

/-- For a leading byte, the number of bytes that follow it and the range of the first of them. -/
def leadShape? (b : Nat) : Option (Nat × Nat × Nat) :=
  if 0xC2 ≤ b && b ≤ 0xDF then some (1, 0x80, 0xBF)
  else if b = 0xE0 then some (2, 0xA0, 0xBF)
  else if b = 0xED then some (2, 0x80, 0x9F)
  else if 0xE1 ≤ b && b ≤ 0xEF then some (2, 0x80, 0xBF)
  else if b = 0xF0 then some (3, 0x90, 0xBF)
  else if 0xF1 ≤ b && b ≤ 0xF3 then some (3, 0x80, 0xBF)
  else if b = 0xF4 then some (3, 0x80, 0x8F)
  else none

/-- Takes `count` continuation bytes, the first one within its range. The result says how many
were there and what they add up to. -/
def continuation (low high : Nat) : Nat → Nat → List Nat → Nat × Nat
  | 0, value, _ => (0, value)
  | _ + 1, value, [] => (0, value)
  | count + 1, value, b :: rest =>
    if low ≤ b && b ≤ high then
      let (taken, total) := continuation 0x80 0xBF count (value * 64 + (b - 0x80)) rest
      (taken + 1, total)
    else (0, value)

/-- The payload of a leading byte that `count` bytes follow. -/
def leadPayload (count b : Nat) : Nat :=
  if count = 1 then b - 0xC0 else if count = 2 then b - 0xE0 else b - 0xF0

/-- Reads one character: its value, or `none` when the bytes are ill-formed, with the number of
bytes beyond the first that belong to it. -/
def decodeOne (b : Nat) (rest : List Nat) : Option Char × Nat :=
  if b < 0x80 then (some (Char.ofNat b), 0)
  else
    match leadShape? b with
    | none => (none, 0)
    | some (count, low, high) =>
      let (taken, value) := continuation low high count (leadPayload count b) rest
      if taken = count then (some (Char.ofNat value), taken) else (none, taken)

/-- The characters of the bytes in order, `none` for each ill-formed sequence. -/
def decodeAll : List Nat → List (Option Char)
  | [] => []
  | b :: rest =>
    let (char, more) := decodeOne b rest
    char :: decodeAll (rest.drop more)
termination_by bytes => bytes.length
decreasing_by simp only [List.length_drop, List.length_cons]; omega

/-- The replacement character. -/
def replacement : Char := Char.ofNat 0xFFFD

/-- The text of the bytes, with a replacement character for each ill-formed sequence. -/
def decodeLossy (bytes : List UInt8) : String :=
  String.ofList ((decodeAll (bytes.map UInt8.toNat)).map fun c => c.getD replacement)

/-- The text of well-formed bytes. -/
def decode? (bytes : List UInt8) : Option String :=
  ((decodeAll (bytes.map UInt8.toNat)).mapM id).map String.ofList

end Refactor.Text
