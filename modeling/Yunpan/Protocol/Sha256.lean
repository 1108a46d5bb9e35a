import Mathlib.Data.List.Basic

/-!
# HMAC-SHA256

The function that the relay's and the client's HMAC crate computes, written so
that runs of the whole program can be evaluated.  Nothing is proved about it:
what the protocol needs of the HMAC is stated where it is needed.
-/

namespace Yunpan.Protocol.Sha256

def roundConstants : List UInt32 :=
  [0x428a2f98, 0x71374491, 0xb5c0fbcf, 0xe9b5dba5, 0x3956c25b, 0x59f111f1,
   0x923f82a4, 0xab1c5ed5, 0xd807aa98, 0x12835b01, 0x243185be, 0x550c7dc3,
   0x72be5d74, 0x80deb1fe, 0x9bdc06a7, 0xc19bf174, 0xe49b69c1, 0xefbe4786,
   0x0fc19dc6, 0x240ca1cc, 0x2de92c6f, 0x4a7484aa, 0x5cb0a9dc, 0x76f988da,
   0x983e5152, 0xa831c66d, 0xb00327c8, 0xbf597fc7, 0xc6e00bf3, 0xd5a79147,
   0x06ca6351, 0x14292967, 0x27b70a85, 0x2e1b2138, 0x4d2c6dfc, 0x53380d13,
   0x650a7354, 0x766a0abb, 0x81c2c92e, 0x92722c85, 0xa2bfe8a1, 0xa81a664b,
   0xc24b8b70, 0xc76c51a3, 0xd192e819, 0xd6990624, 0xf40e3585, 0x106aa070,
   0x19a4c116, 0x1e376c08, 0x2748774c, 0x34b0bcb5, 0x391c0cb3, 0x4ed8aa4a,
   0x5b9cca4f, 0x682e6ff3, 0x748f82ee, 0x78a5636f, 0x84c87814, 0x8cc70208,
   0x90befffa, 0xa4506ceb, 0xbef9a3f7, 0xc67178f2]

def rotateRight (x n : UInt32) : UInt32 := (x >>> n) ||| (x <<< (32 - n))

def word (bytes : List UInt8) : UInt32 :=
  bytes.foldl (fun acc byte => (acc <<< 8) ||| byte.toUInt32) 0

def wordBytes (x : UInt32) : List UInt8 :=
  [(x >>> 24).toUInt8, (x >>> 16).toUInt8, (x >>> 8).toUInt8, x.toUInt8]

/-- Extend the message schedule by `n` words; the newest word comes first. -/
def schedule : ℕ → List UInt32 → List UInt32
  | 0, words => words
  | n + 1, words =>
      let w2 := words.getD 1 0
      let w7 := words.getD 6 0
      let w15 := words.getD 14 0
      let w16 := words.getD 15 0
      let s0 := rotateRight w15 7 ^^^ rotateRight w15 18 ^^^ (w15 >>> 3)
      let s1 := rotateRight w2 17 ^^^ rotateRight w2 19 ^^^ (w2 >>> 10)
      schedule n ((w16 + s0 + w7 + s1) :: words)

structure Vars where
  (a b c d e f g h : UInt32)

def Vars.initial : Vars :=
  ⟨0x6a09e667, 0xbb67ae85, 0x3c6ef372, 0xa54ff53a,
   0x510e527f, 0x9b05688c, 0x1f83d9ab, 0x5be0cd19⟩

def Vars.add (v w : Vars) : Vars :=
  ⟨v.a + w.a, v.b + w.b, v.c + w.c, v.d + w.d,
   v.e + w.e, v.f + w.f, v.g + w.g, v.h + w.h⟩

def Vars.round (v : Vars) (input : UInt32 × UInt32) : Vars :=
  let s1 := rotateRight v.e 6 ^^^ rotateRight v.e 11 ^^^ rotateRight v.e 25
  let choice := (v.e &&& v.f) ^^^ (~~~v.e &&& v.g)
  let t1 := v.h + s1 + choice + input.1 + input.2
  let s0 := rotateRight v.a 2 ^^^ rotateRight v.a 13 ^^^ rotateRight v.a 22
  let majority := (v.a &&& v.b) ^^^ (v.a &&& v.c) ^^^ (v.b &&& v.c)
  ⟨t1 + s0 + majority, v.a, v.b, v.c, v.d + t1, v.e, v.f, v.g⟩

/-- At most `count` pieces of `size` elements. -/
def chunks {α : Type*} (size : ℕ) : ℕ → List α → List (List α)
  | 0, _ => []
  | _, [] => []
  | count + 1, xs => xs.take size :: chunks size count (xs.drop size)

def Vars.compress (v : Vars) (block : List UInt8) : Vars :=
  let words := (schedule 48 ((chunks 4 16 block).map word).reverse).reverse
  v.add ((roundConstants.zip words).foldl Vars.round v)

def pad (msg : List UInt8) : List UInt8 :=
  let zeros : List UInt8 := List.replicate ((119 - msg.length % 64) % 64) 0
  let size : List UInt8 :=
    [56, 48, 40, 32, 24, 16, 8, 0].map fun n => UInt8.ofNat ((msg.length * 8) >>> n)
  msg ++ 0x80 :: zeros ++ size

def sha256 (msg : List UInt8) : List UInt8 :=
  let v := (chunks 64 (pad msg).length (pad msg)).foldl Vars.compress .initial
  [v.a, v.b, v.c, v.d, v.e, v.f, v.g, v.h].flatMap wordBytes

def hmac (key msg : List UInt8) : List UInt8 :=
  let short := if 64 < key.length then sha256 key else key
  let block := short ++ List.replicate (64 - short.length) 0
  sha256 (block.map (· ^^^ 0x5c) ++ sha256 (block.map (· ^^^ 0x36) ++ msg))

example : (hmac [] []).take 4 = [0xb6, 0x13, 0x67, 0x9a] := by decide +kernel

end Yunpan.Protocol.Sha256
