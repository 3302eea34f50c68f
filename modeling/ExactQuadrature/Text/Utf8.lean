/-! # Decoding text and locating its faults

Stored text is encoded in one to four bytes a character. Bytes that encode no text are described
by the first place at which they go wrong: the bytes concerned and what is the matter with them. -/

namespace ExactQuadrature

namespace Text

/-- What is the matter with a byte sequence. -/
inductive EncodingDefect where
  | startByte
  | continuationByte
  | endOfData
deriving DecidableEq, Inhabited

namespace EncodingDefect

/-- The wording of a defect. -/
def message : EncodingDefect → String
  | startByte => "invalid start byte"
  | continuationByte => "invalid continuation byte"
  | endOfData => "unexpected end of data"

end EncodingDefect

/-- The first bytes of a file that encode no character. -/
structure EncodingFault where
  position : Nat
  length : Nat
  byte : Nat
  defect : EncodingDefect
deriving DecidableEq, Inhabited

namespace EncodingFault

/-- The wording of a fault. A single byte is shown by its value. -/
def message (fault : EncodingFault) : String :=
  let digits := Nat.toDigits 16 fault.byte
  let place :=
    if fault.length = 1 then
      "byte 0x" ++ String.ofList (List.replicate (2 - digits.length) '0' ++ digits) ++
        " in position " ++ toString fault.position
    else
      "bytes in position " ++ toString fault.position ++ "-" ++
        toString (fault.position + fault.length - 1)
  "'utf-8' codec can't decode " ++ place ++ ": " ++ fault.defect.message

end EncodingFault

/-- A byte that may follow a start byte. -/
def isContinuation (byte : Nat) : Bool := 0x80 ≤ byte && byte < 0xc0

/-- The second bytes that may follow a start byte: none that would make the character too small
for its length, a surrogate, or too large. -/
def isSecond (first second : Nat) : Bool :=
  isContinuation second &&
    (first != 0xe0 || 0xa0 ≤ second) && (first != 0xed || second < 0xa0) &&
      (first != 0xf0 || 0x90 ≤ second) && (first != 0xf4 || second < 0x90)

/-- The number of bytes that a start byte announces. -/
def announcedLength? (first : Nat) : Option Nat :=
  if first < 0x80 then some 1
  else if first < 0xc2 then none
  else if first < 0xe0 then some 2
  else if first < 0xf0 then some 3
  else if first < 0xf5 then some 4
  else none

/-- The defect of the first character of a nonempty byte sequence, with the number of bytes
concerned. -/
def defectAt? (first : Nat) (rest : List Nat) : Option (Nat × EncodingDefect) :=
  match announcedLength? first with
  | none => some (1, .startByte)
  | some length =>
    let following := rest.take (length - 1)
    let valid := match following with
      | [] => []
      | second :: more =>
        if isSecond first second then second :: more.takeWhile isContinuation else []
    if valid.length < following.length then some (valid.length + 1, .continuationByte)
    else if following.length < length - 1 then some (following.length + 1, .endOfData)
    else none

/-- The first fault in a byte sequence that starts at a given position. -/
def firstFault? (position : Nat) : List Nat → Option EncodingFault
  | [] => none
  | first :: rest =>
    match defectAt? first rest with
    | some (length, defect) => some ⟨position, length, first, defect⟩
    | none =>
      let following := (announcedLength? first).getD 1 - 1
      firstFault? (position + following + 1) (rest.drop following)
termination_by bytes => bytes.length
decreasing_by simp only [List.length_drop, List.length_cons]; omega

/-- The text that bytes encode, or the place where they encode none. -/
def decode (bytes : ByteArray) : Except EncodingFault String :=
  match String.fromUTF8? bytes with
  | some text => .ok text
  | none => .error ((firstFault? 0 (bytes.toList.map UInt8.toNat)).getD ⟨0, 1, 0, .startByte⟩)

end Text

end ExactQuadrature
