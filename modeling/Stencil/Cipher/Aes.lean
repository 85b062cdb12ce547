/-! The block cipher AES with keys of 128 bits, and the chaining of blocks. A block is four columns
of four bytes. -/
namespace Stencil.Aes

structure Column where
  (a b c d : UInt8)
  deriving DecidableEq, Repr

structure Block where
  (p q r s : Column)
  deriving DecidableEq, Repr

def substitution : List UInt8 :=
  [99, 124, 119, 123, 242, 107, 111, 197, 48, 1, 103, 43, 254, 215, 171, 118, 202, 130, 201, 125,
   250, 89, 71, 240, 173, 212, 162, 175, 156, 164, 114, 192, 183, 253, 147, 38, 54, 63, 247, 204,
   52, 165, 229, 241, 113, 216, 49, 21, 4, 199, 35, 195, 24, 150, 5, 154, 7, 18, 128, 226, 235, 39,
   178, 117, 9, 131, 44, 26, 27, 110, 90, 160, 82, 59, 214, 179, 41, 227, 47, 132, 83, 209, 0, 237,
   32, 252, 177, 91, 106, 203, 190, 57, 74, 76, 88, 207, 208, 239, 170, 251, 67, 77, 51, 133, 69,
   249, 2, 127, 80, 60, 159, 168, 81, 163, 64, 143, 146, 157, 56, 245, 188, 182, 218, 33, 16, 255,
   243, 210, 205, 12, 19, 236, 95, 151, 68, 23, 196, 167, 126, 61, 100, 93, 25, 115, 96, 129, 79,
   220, 34, 42, 144, 136, 70, 238, 184, 20, 222, 94, 11, 219, 224, 50, 58, 10, 73, 6, 36, 92, 194,
   211, 172, 98, 145, 149, 228, 121, 231, 200, 55, 109, 141, 213, 78, 169, 108, 86, 244, 234, 101,
   122, 174, 8, 186, 120, 37, 46, 28, 166, 180, 198, 232, 221, 116, 31, 75, 189, 139, 138, 112, 62,
   181, 102, 72, 3, 246, 14, 97, 53, 87, 185, 134, 193, 29, 158, 225, 248, 152, 17, 105, 217, 142,
   148, 155, 30, 135, 233, 206, 85, 40, 223, 140, 161, 137, 13, 191, 230, 66, 104, 65, 153, 45, 15,
   176, 84, 187, 22]

def sub (b : UInt8) : UInt8 := substitution.getD b.toNat 0

def unsub (b : UInt8) : UInt8 := UInt8.ofNat (substitution.idxOf b)

namespace Column

def map (f : UInt8 → UInt8) (x : Column) : Column := ⟨f x.a, f x.b, f x.c, f x.d⟩

def add (x y : Column) : Column := ⟨x.a ^^^ y.a, x.b ^^^ y.b, x.c ^^^ y.c, x.d ^^^ y.d⟩

def bytes (x : Column) : List UInt8 := [x.a, x.b, x.c, x.d]

end Column

def double (b : UInt8) : UInt8 := (b <<< 1) ^^^ ((b >>> 7) * 0x1b)

def times3 (b : UInt8) : UInt8 := double b ^^^ b
def times9 (b : UInt8) : UInt8 := double (double (double b)) ^^^ b
def times11 (b : UInt8) : UInt8 := double (double (double b) ^^^ b) ^^^ b
def times13 (b : UInt8) : UInt8 := double (double (double b ^^^ b)) ^^^ b
def times14 (b : UInt8) : UInt8 := double (double (double b ^^^ b) ^^^ b)

def Column.mix (x : Column) : Column :=
  ⟨double x.a ^^^ times3 x.b ^^^ x.c ^^^ x.d, x.a ^^^ double x.b ^^^ times3 x.c ^^^ x.d,
    x.a ^^^ x.b ^^^ double x.c ^^^ times3 x.d, times3 x.a ^^^ x.b ^^^ x.c ^^^ double x.d⟩

def Column.unmix (x : Column) : Column :=
  ⟨times14 x.a ^^^ times11 x.b ^^^ times13 x.c ^^^ times9 x.d,
    times9 x.a ^^^ times14 x.b ^^^ times11 x.c ^^^ times13 x.d,
    times13 x.a ^^^ times9 x.b ^^^ times14 x.c ^^^ times11 x.d,
    times11 x.a ^^^ times13 x.b ^^^ times9 x.c ^^^ times14 x.d⟩

namespace Block

def map (f : Column → Column) (x : Block) : Block := ⟨f x.p, f x.q, f x.r, f x.s⟩

def add (x y : Block) : Block := ⟨x.p.add y.p, x.q.add y.q, x.r.add y.r, x.s.add y.s⟩

def shift (x : Block) : Block :=
  ⟨⟨x.p.a, x.q.b, x.r.c, x.s.d⟩, ⟨x.q.a, x.r.b, x.s.c, x.p.d⟩, ⟨x.r.a, x.s.b, x.p.c, x.q.d⟩,
    ⟨x.s.a, x.p.b, x.q.c, x.r.d⟩⟩

def unshift (x : Block) : Block :=
  ⟨⟨x.p.a, x.s.b, x.r.c, x.q.d⟩, ⟨x.q.a, x.p.b, x.s.c, x.r.d⟩, ⟨x.r.a, x.q.b, x.p.c, x.s.d⟩,
    ⟨x.s.a, x.r.b, x.q.c, x.p.d⟩⟩

def bytes (x : Block) : List UInt8 := x.p.bytes ++ x.q.bytes ++ x.r.bytes ++ x.s.bytes

theorem unshift_shift (x : Block) : x.shift.unshift = x := rfl

theorem shift_unshift (x : Block) : x.unshift.shift = x := rfl

end Block

def blocks : List UInt8 → List Block
  | a :: b :: c :: d :: e :: f :: g :: h :: i :: j :: k :: l :: m :: n :: o :: p :: rest =>
    ⟨⟨a, b, c, d⟩, ⟨e, f, g, h⟩, ⟨i, j, k, l⟩, ⟨m, n, o, p⟩⟩ :: blocks rest
  | _ => []

def nextKey (k : Block) (constant : UInt8) : Block :=
  let turned : Column := ⟨sub k.s.b ^^^ constant, sub k.s.c, sub k.s.d, sub k.s.a⟩
  let p := k.p.add turned
  let q := k.q.add p
  let r := k.r.add q
  ⟨p, q, r, k.s.add r⟩

def roundKeys (k : Block) : List UInt8 → List Block
  | [] => []
  | constant :: rest => nextKey k constant :: roundKeys (nextKey k constant) rest

def roundConstants : List UInt8 := [0x01, 0x02, 0x04, 0x08, 0x10, 0x20, 0x40, 0x80, 0x1b, 0x36]

/-- All rounds but the first addition of the key; the last one mixes no columns. -/
def forward : List Block → Block → Block
  | [], x => x
  | [k], x => ((x.map (·.map sub)).shift).add k
  | k :: rest, x => forward rest ((((x.map (·.map sub)).shift).map .mix).add k)

def backward : List Block → Block → Block
  | [], x => x
  | [k], x => ((x.add k).unshift).map (·.map unsub)
  | k :: rest, x => ((((backward rest x).add k).map .unmix).unshift).map (·.map unsub)

def encryptBlock (key x : Block) : Block := forward (roundKeys key roundConstants) (x.add key)

def decryptBlock (key x : Block) : Block := (backward (roundKeys key roundConstants) x).add key

def encryptChain (key previous : Block) : List Block → List Block
  | [] => []
  | x :: rest =>
    let y := encryptBlock key (x.add previous)
    y :: encryptChain key y rest

def decryptChain (key previous : Block) : List Block → List Block
  | [] => []
  | y :: rest => (decryptBlock key y).add previous :: decryptChain key y rest

def blockSize : Nat := 16

def pad (bytes : List UInt8) : List UInt8 :=
  let missing := blockSize - bytes.length % blockSize
  bytes ++ List.replicate missing (UInt8.ofNat missing)

def unpad? (bytes : List UInt8) : Option (List UInt8) :=
  match bytes.getLast? with
  | none => none
  | some last =>
    let size := bytes.length - last.toNat
    if 1 ≤ last.toNat ∧ last.toNat ≤ blockSize ∧ (bytes.drop size).all (· == last) then
      some (bytes.take size)
    else none

end Stencil.Aes
