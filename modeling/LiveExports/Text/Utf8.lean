/-!
# Bytes of texts

Texts are stored as UTF-8.  Decoding takes a byte sequence apart into characters and faults: a fault
is a longest run of bytes that begins a character without completing it, or a byte that begins none.
-/

namespace LiveExports.Text

/-! ## Encoding -/

/-- A byte of a sequence after the first: six bits of the code point. -/
def continuation (bits : Nat) : UInt8 :=
  UInt8.ofNat (0x80 + bits % 64)

def encodeChar (c : Char) : List UInt8 :=
  let code := c.toNat
  if code < 0x80 then [UInt8.ofNat code]
  else if code < 0x800 then [UInt8.ofNat (0xC0 + code / 64), continuation code]
  else if code < 0x10000 then
    [UInt8.ofNat (0xE0 + code / 4096), continuation (code / 64), continuation code]
  else
    [UInt8.ofNat (0xF0 + code / 262144), continuation (code / 4096), continuation (code / 64),
      continuation code]

/-- The bytes of a text. -/
def encode (text : String) : List UInt8 :=
  text.toList.flatMap encodeChar

/-! ## Decoding -/

def isContinuation (byte : UInt8) : Bool :=
  0x80 ≤ byte && byte ≤ 0xBF

/-- May `second` follow `first` at the head of a sequence of three? -/
def beginsThree (first second : UInt8) : Bool :=
  isContinuation second && (first != 0xE0 || 0xA0 ≤ second) && (first != 0xED || second ≤ 0x9F)

/-- May `second` follow `first` at the head of a sequence of four? -/
def beginsFour (first second : UInt8) : Bool :=
  isContinuation second && (first != 0xF0 || 0x90 ≤ second) && (first != 0xF4 || second ≤ 0x8F)

/-- The six bits of a byte after the first. -/
def bitsOf (byte : UInt8) : Nat :=
  byte.toNat % 64

/-- The characters of a byte sequence, and `none` for every fault. -/
def decode : List UInt8 → List (Option Char)
  | [] => []
  | first :: rest =>
    if first < 0x80 then some (Char.ofNat first.toNat) :: decode rest
    else if 0xC2 ≤ first && first ≤ 0xDF then
      match rest with
      | second :: more =>
        if isContinuation second then
          some (Char.ofNat (first.toNat % 32 * 64 + bitsOf second)) :: decode more
        else none :: decode (second :: more)
      | [] => [none]
    else if 0xE0 ≤ first && first ≤ 0xEF then
      match rest with
      | second :: third :: more =>
        if !beginsThree first second then none :: decode (second :: third :: more)
        else if !isContinuation third then none :: decode (third :: more)
        else
          some (Char.ofNat (first.toNat % 16 * 4096 + bitsOf second * 64 + bitsOf third)) ::
            decode more
      | [second] => if beginsThree first second then [none] else none :: decode [second]
      | [] => [none]
    else if 0xF0 ≤ first && first ≤ 0xF4 then
      match rest with
      | second :: third :: fourth :: more =>
        if !beginsFour first second then none :: decode (second :: third :: fourth :: more)
        else if !isContinuation third then none :: decode (third :: fourth :: more)
        else if !isContinuation fourth then none :: decode (fourth :: more)
        else
          some (Char.ofNat (first.toNat % 8 * 262144 + bitsOf second * 4096 + bitsOf third * 64 +
            bitsOf fourth)) :: decode more
      | [second, third] =>
        if !beginsFour first second then none :: decode [second, third]
        else if !isContinuation third then none :: decode [third]
        else [none]
      | [second] => if beginsFour first second then [none] else none :: decode [second]
      | [] => [none]
    else none :: decode rest

/-- The text of a byte sequence without faults. -/
def decode? (bytes : List UInt8) : Option String :=
  ((decode bytes).mapM id).map String.ofList

/-- The text of a byte sequence, with the replacement character for every fault. -/
def decodeLossy (bytes : List UInt8) : String :=
  String.ofList ((decode bytes).map (·.getD (Char.ofNat 0xFFFD)))

end LiveExports.Text
