import AccountVault.Text.Utf8

/-!
# The block cipher AES-256

A block is four columns of four bytes. Encryption adds the first round key and then, for each
further one, substitutes bytes, shifts rows, mixes columns (not in the last round) and adds the key;
decryption undoes these steps in the opposite order.
-/

namespace AccountVault.Cipher

structure Column where
  a : UInt8
  b : UInt8
  c : UInt8
  d : UInt8
  deriving DecidableEq

structure Block where
  w : Column
  x : Column
  y : Column
  z : Column
  deriving DecidableEq

def substitution : Array UInt8 :=
  #[0x63, 0x7c, 0x77, 0x7b, 0xf2, 0x6b, 0x6f, 0xc5, 0x30, 0x01, 0x67, 0x2b, 0xfe, 0xd7, 0xab, 0x76,
    0xca, 0x82, 0xc9, 0x7d, 0xfa, 0x59, 0x47, 0xf0, 0xad, 0xd4, 0xa2, 0xaf, 0x9c, 0xa4, 0x72, 0xc0,
    0xb7, 0xfd, 0x93, 0x26, 0x36, 0x3f, 0xf7, 0xcc, 0x34, 0xa5, 0xe5, 0xf1, 0x71, 0xd8, 0x31, 0x15,
    0x04, 0xc7, 0x23, 0xc3, 0x18, 0x96, 0x05, 0x9a, 0x07, 0x12, 0x80, 0xe2, 0xeb, 0x27, 0xb2, 0x75,
    0x09, 0x83, 0x2c, 0x1a, 0x1b, 0x6e, 0x5a, 0xa0, 0x52, 0x3b, 0xd6, 0xb3, 0x29, 0xe3, 0x2f, 0x84,
    0x53, 0xd1, 0x00, 0xed, 0x20, 0xfc, 0xb1, 0x5b, 0x6a, 0xcb, 0xbe, 0x39, 0x4a, 0x4c, 0x58, 0xcf,
    0xd0, 0xef, 0xaa, 0xfb, 0x43, 0x4d, 0x33, 0x85, 0x45, 0xf9, 0x02, 0x7f, 0x50, 0x3c, 0x9f, 0xa8,
    0x51, 0xa3, 0x40, 0x8f, 0x92, 0x9d, 0x38, 0xf5, 0xbc, 0xb6, 0xda, 0x21, 0x10, 0xff, 0xf3, 0xd2,
    0xcd, 0x0c, 0x13, 0xec, 0x5f, 0x97, 0x44, 0x17, 0xc4, 0xa7, 0x7e, 0x3d, 0x64, 0x5d, 0x19, 0x73,
    0x60, 0x81, 0x4f, 0xdc, 0x22, 0x2a, 0x90, 0x88, 0x46, 0xee, 0xb8, 0x14, 0xde, 0x5e, 0x0b, 0xdb,
    0xe0, 0x32, 0x3a, 0x0a, 0x49, 0x06, 0x24, 0x5c, 0xc2, 0xd3, 0xac, 0x62, 0x91, 0x95, 0xe4, 0x79,
    0xe7, 0xc8, 0x37, 0x6d, 0x8d, 0xd5, 0x4e, 0xa9, 0x6c, 0x56, 0xf4, 0xea, 0x65, 0x7a, 0xae, 0x08,
    0xba, 0x78, 0x25, 0x2e, 0x1c, 0xa6, 0xb4, 0xc6, 0xe8, 0xdd, 0x74, 0x1f, 0x4b, 0xbd, 0x8b, 0x8a,
    0x70, 0x3e, 0xb5, 0x66, 0x48, 0x03, 0xf6, 0x0e, 0x61, 0x35, 0x57, 0xb9, 0x86, 0xc1, 0x1d, 0x9e,
    0xe1, 0xf8, 0x98, 0x11, 0x69, 0xd9, 0x8e, 0x94, 0x9b, 0x1e, 0x87, 0xe9, 0xce, 0x55, 0x28, 0xdf,
    0x8c, 0xa1, 0x89, 0x0d, 0xbf, 0xe6, 0x42, 0x68, 0x41, 0x99, 0x2d, 0x0f, 0xb0, 0x54, 0xbb, 0x16]

def inverseSubstitution : Array UInt8 :=
  #[0x52, 0x09, 0x6a, 0xd5, 0x30, 0x36, 0xa5, 0x38, 0xbf, 0x40, 0xa3, 0x9e, 0x81, 0xf3, 0xd7, 0xfb,
    0x7c, 0xe3, 0x39, 0x82, 0x9b, 0x2f, 0xff, 0x87, 0x34, 0x8e, 0x43, 0x44, 0xc4, 0xde, 0xe9, 0xcb,
    0x54, 0x7b, 0x94, 0x32, 0xa6, 0xc2, 0x23, 0x3d, 0xee, 0x4c, 0x95, 0x0b, 0x42, 0xfa, 0xc3, 0x4e,
    0x08, 0x2e, 0xa1, 0x66, 0x28, 0xd9, 0x24, 0xb2, 0x76, 0x5b, 0xa2, 0x49, 0x6d, 0x8b, 0xd1, 0x25,
    0x72, 0xf8, 0xf6, 0x64, 0x86, 0x68, 0x98, 0x16, 0xd4, 0xa4, 0x5c, 0xcc, 0x5d, 0x65, 0xb6, 0x92,
    0x6c, 0x70, 0x48, 0x50, 0xfd, 0xed, 0xb9, 0xda, 0x5e, 0x15, 0x46, 0x57, 0xa7, 0x8d, 0x9d, 0x84,
    0x90, 0xd8, 0xab, 0x00, 0x8c, 0xbc, 0xd3, 0x0a, 0xf7, 0xe4, 0x58, 0x05, 0xb8, 0xb3, 0x45, 0x06,
    0xd0, 0x2c, 0x1e, 0x8f, 0xca, 0x3f, 0x0f, 0x02, 0xc1, 0xaf, 0xbd, 0x03, 0x01, 0x13, 0x8a, 0x6b,
    0x3a, 0x91, 0x11, 0x41, 0x4f, 0x67, 0xdc, 0xea, 0x97, 0xf2, 0xcf, 0xce, 0xf0, 0xb4, 0xe6, 0x73,
    0x96, 0xac, 0x74, 0x22, 0xe7, 0xad, 0x35, 0x85, 0xe2, 0xf9, 0x37, 0xe8, 0x1c, 0x75, 0xdf, 0x6e,
    0x47, 0xf1, 0x1a, 0x71, 0x1d, 0x29, 0xc5, 0x89, 0x6f, 0xb7, 0x62, 0x0e, 0xaa, 0x18, 0xbe, 0x1b,
    0xfc, 0x56, 0x3e, 0x4b, 0xc6, 0xd2, 0x79, 0x20, 0x9a, 0xdb, 0xc0, 0xfe, 0x78, 0xcd, 0x5a, 0xf4,
    0x1f, 0xdd, 0xa8, 0x33, 0x88, 0x07, 0xc7, 0x31, 0xb1, 0x12, 0x10, 0x59, 0x27, 0x80, 0xec, 0x5f,
    0x60, 0x51, 0x7f, 0xa9, 0x19, 0xb5, 0x4a, 0x0d, 0x2d, 0xe5, 0x7a, 0x9f, 0x93, 0xc9, 0x9c, 0xef,
    0xa0, 0xe0, 0x3b, 0x4d, 0xae, 0x2a, 0xf5, 0xb0, 0xc8, 0xeb, 0xbb, 0x3c, 0x83, 0x53, 0x99, 0x61,
    0x17, 0x2b, 0x04, 0x7e, 0xba, 0x77, 0xd6, 0x26, 0xe1, 0x69, 0x14, 0x63, 0x55, 0x21, 0x0c, 0x7d]

def substitute (byte : UInt8) : UInt8 := substitution.getD byte.toNat 0

def unsubstitute (byte : UInt8) : UInt8 := inverseSubstitution.getD byte.toNat 0

/-- Twice a byte in the field of 256 elements. -/
def double (byte : UInt8) : UInt8 := (byte <<< 1) ^^^ (if 0x80 ≤ byte then 0x1b else 0)

def triple (byte : UInt8) : UInt8 := double byte ^^^ byte

def eightfold (byte : UInt8) : UInt8 := double (double (double byte))

def times9 (byte : UInt8) : UInt8 := eightfold byte ^^^ byte

def times11 (byte : UInt8) : UInt8 := eightfold byte ^^^ triple byte

def times13 (byte : UInt8) : UInt8 := eightfold byte ^^^ double (double byte) ^^^ byte

def times14 (byte : UInt8) : UInt8 := eightfold byte ^^^ double (double byte) ^^^ double byte

namespace Column

def add (p q : Column) : Column := ⟨p.a ^^^ q.a, p.b ^^^ q.b, p.c ^^^ q.c, p.d ^^^ q.d⟩

def map (f : UInt8 → UInt8) (p : Column) : Column := ⟨f p.a, f p.b, f p.c, f p.d⟩

def rotate (p : Column) : Column := ⟨p.b, p.c, p.d, p.a⟩

def mix (p : Column) : Column :=
  ⟨double p.a ^^^ triple p.b ^^^ p.c ^^^ p.d, p.a ^^^ double p.b ^^^ triple p.c ^^^ p.d,
    p.a ^^^ p.b ^^^ double p.c ^^^ triple p.d, triple p.a ^^^ p.b ^^^ p.c ^^^ double p.d⟩

def unmix (p : Column) : Column :=
  ⟨times14 p.a ^^^ times11 p.b ^^^ times13 p.c ^^^ times9 p.d,
    times9 p.a ^^^ times14 p.b ^^^ times11 p.c ^^^ times13 p.d,
    times13 p.a ^^^ times9 p.b ^^^ times14 p.c ^^^ times11 p.d,
    times11 p.a ^^^ times13 p.b ^^^ times9 p.c ^^^ times14 p.d⟩

def toBytes (p : Column) : Bytes := [p.a, p.b, p.c, p.d]

end Column

namespace Block

def zero : Block := ⟨⟨0, 0, 0, 0⟩, ⟨0, 0, 0, 0⟩, ⟨0, 0, 0, 0⟩, ⟨0, 0, 0, 0⟩⟩

def add (p q : Block) : Block := ⟨p.w.add q.w, p.x.add q.x, p.y.add q.y, p.z.add q.z⟩

def map (f : Column → Column) (p : Block) : Block := ⟨f p.w, f p.x, f p.y, f p.z⟩

def shiftRows (p : Block) : Block :=
  ⟨⟨p.w.a, p.x.b, p.y.c, p.z.d⟩, ⟨p.x.a, p.y.b, p.z.c, p.w.d⟩,
    ⟨p.y.a, p.z.b, p.w.c, p.x.d⟩, ⟨p.z.a, p.w.b, p.x.c, p.y.d⟩⟩

def unshiftRows (p : Block) : Block :=
  ⟨⟨p.w.a, p.z.b, p.y.c, p.x.d⟩, ⟨p.x.a, p.w.b, p.z.c, p.y.d⟩,
    ⟨p.y.a, p.x.b, p.w.c, p.z.d⟩, ⟨p.z.a, p.y.b, p.x.c, p.w.d⟩⟩

def toBytes (p : Block) : Bytes := p.w.toBytes ++ p.x.toBytes ++ p.y.toBytes ++ p.z.toBytes

end Block

def columns : Bytes → List Column
  | a :: b :: c :: d :: rest => ⟨a, b, c, d⟩ :: columns rest
  | _ => []

def blocksOfColumns : List Column → List Block
  | w :: x :: y :: z :: rest => ⟨w, x, y, z⟩ :: blocksOfColumns rest
  | _ => []

def blocks (bytes : Bytes) : List Block := blocksOfColumns (columns bytes)

structure RoundKeys where
  first : Block
  middle : List Block
  last : Block

def nextKeys (constant : UInt8) (p q : Block) : Block × Block :=
  let seed := (q.z.rotate.map substitute).add ⟨constant, 0, 0, 0⟩
  let w := p.w.add seed
  let x := p.x.add w
  let y := p.y.add x
  let z := p.z.add y
  let w' := q.w.add (z.map substitute)
  let x' := q.x.add w'
  let y' := q.y.add x'
  (⟨w, x, y, z⟩, ⟨w', x', y', q.z.add y'⟩)

def expandKeys : (constants : List UInt8) → (p q : Block) → List Block
  | [], p, _ => [p]
  | constant :: rest, p, q =>
    let next := nextKeys constant p q
    p :: q :: expandKeys rest next.1 next.2

def RoundKeys.ofKey (p q : Block) : RoundKeys :=
  let keys := expandKeys [0x01, 0x02, 0x04, 0x08, 0x10, 0x20, 0x40] p q
  ⟨p, keys.tail.dropLast, keys.getLastD p⟩

def round (state key : Block) : Block :=
  (((state.map (Column.map substitute)).shiftRows).map Column.mix).add key

def unround (state key : Block) : Block :=
  ((((state.add key).map Column.unmix)).unshiftRows).map (Column.map unsubstitute)

def encryptBlock (keys : RoundKeys) (plain : Block) : Block :=
  let state := keys.middle.foldl round (plain.add keys.first)
  ((state.map (Column.map substitute)).shiftRows).add keys.last

def decryptBlock (keys : RoundKeys) (sealed : Block) : Block :=
  let state := ((sealed.add keys.last).unshiftRows).map (Column.map unsubstitute)
  (keys.middle.reverse.foldl unround state).add keys.first

/-- The vector that the standard of the cipher gives for keys of this length. -/
theorem encryptBlock_standard_vector :
    let keys := RoundKeys.ofKey
      ⟨⟨0x00, 0x01, 0x02, 0x03⟩, ⟨0x04, 0x05, 0x06, 0x07⟩, ⟨0x08, 0x09, 0x0a, 0x0b⟩,
        ⟨0x0c, 0x0d, 0x0e, 0x0f⟩⟩
      ⟨⟨0x10, 0x11, 0x12, 0x13⟩, ⟨0x14, 0x15, 0x16, 0x17⟩, ⟨0x18, 0x19, 0x1a, 0x1b⟩,
        ⟨0x1c, 0x1d, 0x1e, 0x1f⟩⟩
    let plain : Block := ⟨⟨0x00, 0x11, 0x22, 0x33⟩, ⟨0x44, 0x55, 0x66, 0x77⟩,
      ⟨0x88, 0x99, 0xaa, 0xbb⟩, ⟨0xcc, 0xdd, 0xee, 0xff⟩⟩
    let sealed : Block := ⟨⟨0x8e, 0xa2, 0xb7, 0xca⟩, ⟨0x51, 0x67, 0x45, 0xbf⟩,
      ⟨0xea, 0xfc, 0x49, 0x90⟩, ⟨0x4b, 0x49, 0x60, 0x89⟩⟩
    encryptBlock keys plain = sealed ∧ decryptBlock keys sealed = plain := by
  decide +kernel

end AccountVault.Cipher
