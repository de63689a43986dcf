import Mathlib.Algebra.Group.Nat.Defs
import UchiNetworks.Lib.Chain

/-!
# sha1.c: the digest that sr_vns_comm sends as proof of the password

The context as the source has it: five words, a 64-byte block with an index, a length in
two words, and two flags. Below it the digest of a whole message as the standard that the
file's head names describes it: padding, word sequence, eighty turns.

Mirroring notes vs the C:
- `unsigned` has 32 bits, so the masks with `0xFFFFFFFF` do nothing.
- A store behind the block is a fault, `none`.
- The four loops over `t` are folds; those that store zeros up to an index store
  as many as are missing.
-/

namespace UchiNetworks.Router

open UchiNetworks.Lib

abbrev Word := BitVec 32

/-- `Message_Digest`, and the word buffers `A` to `E`. -/
structure Digest where
  a : Word
  b : Word
  c : Word
  d : Word
  e : Word
  deriving DecidableEq, Repr

def Digest.add (x y : Digest) : Digest := ⟨x.a + y.a, x.b + y.b, x.c + y.c, x.d + y.d, x.e + y.e⟩

/-- `SHA1Context` -/
structure SHA1Context where
  messageDigest : Digest
  lengthLow : Word
  lengthHigh : Word
  messageBlock : Vector UInt8 64
  messageBlockIndex : Nat
  computed : Bool
  corrupted : Bool

/-! ## One block -/

/-- `SHA1CircularShift` -/
def circularShift (bits : Nat) (word : Word) : Word := (word <<< bits) ||| (word >>> (32 - bits))

/-- Four bytes of a block as one word. -/
def wordAt (block : List UInt8) (t : Nat) : Word :=
  ((block.getD (t * 4) 0).toBitVec.setWidth 32 <<< 24) |||
  ((block.getD (t * 4 + 1) 0).toBitVec.setWidth 32 <<< 16) |||
  ((block.getD (t * 4 + 2) 0).toBitVec.setWidth 32 <<< 8) |||
  (block.getD (t * 4 + 3) 0).toBitVec.setWidth 32

/-- `W[t]` for `t` from 16. -/
def nextWord (w : List Word) (t : Nat) : List Word :=
  w ++ [circularShift 1 (w.getD (t - 3) 0 ^^^ w.getD (t - 8) 0 ^^^ w.getD (t - 14) 0 ^^^
    w.getD (t - 16) 0)]

/-- The word sequence. -/
def wordSequence (block : List UInt8) : List Word :=
  (List.range' 16 64).foldl nextWord ((List.range 16).map (wordAt block))

/-- One turn of the loops over `t`, with the function of `B`, `C` and `D` and the constant
of the loop. -/
def turn (f : Word → Word → Word → Word) (k : Word) (w : List Word) (s : Digest) (t : Nat) : Digest where
  a := circularShift 5 s.a + f s.b s.c s.d + s.e + w.getD t 0 + k
  b := s.a
  c := circularShift 30 s.b
  d := s.c
  e := s.d

def choose (b c d : Word) : Word := (b &&& c) ||| (~~~b &&& d)
def parity (b c d : Word) : Word := b ^^^ c ^^^ d
def majority (b c d : Word) : Word := (b &&& c) ||| (b &&& d) ||| (c &&& d)

/-- The four loops. -/
def eightyTurns (w : List Word) (s : Digest) : Digest :=
  let s := (List.range' 0 20).foldl (turn choose 0x5A827999 w) s
  let s := (List.range' 20 20).foldl (turn parity 0x6ED9EBA1 w) s
  let s := (List.range' 40 20).foldl (turn majority 0x8F1BBCDC w) s
  (List.range' 60 20).foldl (turn parity 0xCA62C1D6 w) s

namespace SHA1Context

/-- `SHA1ProcessMessageBlock` -/
def processMessageBlock (ctx : SHA1Context) : SHA1Context :=
  { ctx with
    messageDigest := ctx.messageDigest.add
      (eightyTurns (wordSequence ctx.messageBlock.toList) ctx.messageDigest)
    messageBlockIndex := 0 }

/-! ## The interface -/

/-- `SHA1Reset` -/
def reset (ctx : SHA1Context) : SHA1Context :=
  { ctx with
    lengthLow := 0
    lengthHigh := 0
    messageBlockIndex := 0
    messageDigest := ⟨0x67452301, 0xEFCDAB89, 0x98BADCFE, 0x10325476, 0xC3D2E1F0⟩
    computed := false
    corrupted := false }

/-- `Message_Block[Message_Block_Index++] = b` -/
def store (ctx : SHA1Context) (b : UInt8) : Option SHA1Context :=
  if h : ctx.messageBlockIndex < 64 then
    some { ctx with
      messageBlock := ctx.messageBlock.set ctx.messageBlockIndex b h
      messageBlockIndex := ctx.messageBlockIndex + 1 }
  else none

/-- Eight more bits. When both words overflow, the message is too long. -/
def count (ctx : SHA1Context) : SHA1Context :=
  let low := ctx.lengthLow + 8
  if low = 0 then
    let high := ctx.lengthHigh + 1
    { ctx with
      lengthLow := low, lengthHigh := high, corrupted := ctx.corrupted || high = 0 }
  else { ctx with lengthLow := low }

/-- One turn of `SHA1Input`'s loop. -/
def inputByte (ctx : SHA1Context) (b : UInt8) : Option SHA1Context :=
  (ctx.store b).map fun ctx =>
    if ctx.count.messageBlockIndex = 64 then ctx.count.processMessageBlock else ctx.count

/-- `SHA1Input`'s loop. -/
def inputLoop (ctx : SHA1Context) : List UInt8 → Option SHA1Context
  | [] => some ctx
  | b :: bs => if ctx.corrupted then some ctx else (ctx.inputByte b).bind (·.inputLoop bs)

/-- `SHA1Input` -/
def input (ctx : SHA1Context) (message : List UInt8) : Option SHA1Context :=
  if message = [] then some ctx
  else if ctx.computed || ctx.corrupted then some { ctx with corrupted := true }
  else ctx.inputLoop message

/-- Store zeros until the index is `n`. -/
def zeroUntil (n : Nat) (ctx : SHA1Context) : Option SHA1Context :=
  (List.replicate (n - ctx.messageBlockIndex) 0).foldlM store ctx

/-- A byte of a word. -/
def byteOf (w : Word) (shift : Nat) : UInt8 := ⟨(w >>> shift).setWidth 8⟩

/-- The message length as the last eight octets. -/
def lengthOctets (ctx : SHA1Context) : List UInt8 :=
  [byteOf ctx.lengthHigh 24, byteOf ctx.lengthHigh 16, byteOf ctx.lengthHigh 8,
    byteOf ctx.lengthHigh 0, byteOf ctx.lengthLow 24, byteOf ctx.lengthLow 16,
    byteOf ctx.lengthLow 8, byteOf ctx.lengthLow 0]

/-- The stores to `Message_Block[56]` up to `[63]`. -/
def storeLength (ctx : SHA1Context) : SHA1Context :=
  { ctx with
    messageBlock := ctx.messageBlock
      |>.set 56 (byteOf ctx.lengthHigh 24)
      |>.set 57 (byteOf ctx.lengthHigh 16)
      |>.set 58 (byteOf ctx.lengthHigh 8)
      |>.set 59 (byteOf ctx.lengthHigh 0)
      |>.set 60 (byteOf ctx.lengthLow 24)
      |>.set 61 (byteOf ctx.lengthLow 16)
      |>.set 62 (byteOf ctx.lengthLow 8)
      |>.set 63 (byteOf ctx.lengthLow 0) }

/-- `SHA1PadMessage` up to the length. Where the block is too small for it, there are two. -/
def padBlock (ctx : SHA1Context) : Option SHA1Context :=
  if ctx.messageBlockIndex > 55 then
    (ctx.store 0x80).bind fun ctx => (ctx.zeroUntil 64).bind fun ctx =>
      ctx.processMessageBlock.zeroUntil 56
  else (ctx.store 0x80).bind fun ctx => ctx.zeroUntil 56

/-- `SHA1PadMessage` -/
def padMessage (ctx : SHA1Context) : Option SHA1Context :=
  ctx.padBlock.map fun ctx => ctx.storeLength.processMessageBlock

/-- `SHA1Result`: was there a digest? -/
def result (ctx : SHA1Context) : Option (Bool × SHA1Context) :=
  if ctx.corrupted then some (false, ctx)
  else if !ctx.computed then ctx.padMessage.map fun ctx => (true, { ctx with computed := true })
  else some (true, ctx)

end SHA1Context

/-! ## The standard -/

/-- The `t`-th word of the sequence. -/
def stdWord (block : List UInt8) (t : Nat) : Word :=
  if t < 16 then
    BitVec.ofNat 32 (((List.range 4).map fun i => (block.getD (4 * t + i) 0).toNat).foldl (256 * · + ·) 0)
  else
    (stdWord block (t - 3) ^^^ stdWord block (t - 8) ^^^ stdWord block (t - 14) ^^^
      stdWord block (t - 16)).rotateLeft 1

/-- The function of the `t`-th turn. -/
def stdFun (t : Nat) : Word → Word → Word → Word :=
  if t < 20 then choose else if t < 40 then parity else if t < 60 then majority else parity

/-- The constant of the `t`-th turn. -/
def stdConst (t : Nat) : Word :=
  if t < 20 then 0x5A827999 else if t < 40 then 0x6ED9EBA1 else if t < 60 then 0x8F1BBCDC
  else 0xCA62C1D6

/-- The `t`-th turn. -/
def stdTurn (block : List UInt8) (s : Digest) (t : Nat) : Digest where
  a := s.a.rotateLeft 5 + stdFun t s.b s.c s.d + s.e + stdWord block t + stdConst t
  b := s.a
  c := s.b.rotateLeft 30
  d := s.c
  e := s.d

/-- One block of 64 bytes. -/
def stdCompression : Compression Digest UInt8 where
  size := 64
  pos := by decide
  compress h block := h.add ((List.range 80).foldl (stdTurn block) h)

/-- Eight octets of a number, the highest first. -/
def octets (n : Nat) : List UInt8 := (List.range 8).map fun i => UInt8.ofNat (n / 256 ^ (7 - i))

/-- A one, the fewest zeros that complete a block with the length, and the length in bits. -/
def padding (n : Nat) : List UInt8 :=
  0x80 :: List.replicate ((119 - n % 64) % 64) 0 ++ octets (8 * n)

def initialDigest : Digest := ⟨0x67452301, 0xEFCDAB89, 0x98BADCFE, 0x10325476, 0xC3D2E1F0⟩

/-- The digest of a message. -/
def sha1 (msg : List UInt8) : Digest :=
  stdCompression.chain ((msg.length + 72) / 64) initialDigest (msg ++ padding msg.length)

end UchiNetworks.Router
