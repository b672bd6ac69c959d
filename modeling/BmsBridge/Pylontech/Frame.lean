import BmsBridge.Lib.Words

/-! The Pylontech frame codec: a frame is SOI, an even number of ASCII hex digits that spell
VER ADR CID1 CID2 LENGTH INFO CHKSUM, and EOI. -/

namespace BmsBridge

open Words

structure PylontechFrame where
  ver : UInt8 := 0x20
  adr : UInt8 := 0
  cid1 : UInt8 := 0x46
  cid2 : UInt8 := 0
  info : List UInt8 := []
  deriving DecidableEq, Repr

def kSOI : UInt8 := 0x7E
def kEOI : UInt8 := 0x0D
def kMinBodyLen : Nat := 16
def kMaxFrameLen : Nat := 4096

def hexChar (v : UInt8) : UInt8 := if v < 10 then 0x30 + v else 0x41 + (v - 10)

/-- The value of a hex digit; `none` is the source's `-1`. -/
def hexVal (c : UInt8) : Option UInt8 :=
  if 0x30 ≤ c ∧ c ≤ 0x39 then some (c - 0x30)
  else if 0x41 ≤ c ∧ c ≤ 0x46 then some (c - 0x41 + 10)
  else if 0x61 ≤ c ∧ c ≤ 0x66 then some (c - 0x61 + 10)
  else none

def putHex8 (out : List UInt8) (v : UInt8) : List UInt8 :=
  out ++ [hexChar (v >>> 4), hexChar (v &&& 0xF)]

def putHex16Be (out : List UInt8) (v : UInt16) : List UInt8 :=
  putHex8 (putHex8 out (v >>> 8).toUInt8) (v &&& 0xFF).toUInt8

/-- LENID with the checksum of its three nibbles in the top one. -/
def lengthField (lenid : UInt16) : UInt16 :=
  let nibble (k : UInt16) : UInt8 := ((lenid >>> k) &&& 0xF).toUInt8
  let s := nibble 8 + nibble 4 + nibble 0
  let lchksum := (~~~s + 1) &&& 0xF
  (lchksum.toUInt16 <<< 12) ||| (lenid &&& 0x0FFF)

def chksumOver (p : List UInt8) : UInt16 :=
  ~~~(p.foldl (fun (sum : UInt32) b => sum + b.toUInt32) 0).toUInt16 + 1

/-- `decode_byte`: the byte that pair `pairIdx` of hex digits behind SOI spells. -/
def decodeByte (buf : List UInt8) (pairIdx : Nat) : Option UInt8 := do
  let hi ← hexVal (buf.getD (1 + pairIdx * 2) 0)
  let lo ← hexVal (buf.getD (1 + pairIdx * 2 + 1) 0)
  return (hi <<< 4) ||| lo

/-- The loop that fills `out.info`: pairs `6 + i` on, `n` of them, behind those already in
`info`. -/
def decodeInfo (buf : List UInt8) (i : Nat) : Nat → List UInt8 → Bool × List UInt8
  | 0, info => (true, info)
  | n + 1, info =>
    match decodeByte buf (6 + i) with
    | none => (false, info)
    | some b => decodeInfo buf (i + 1) n (info ++ [b])

/-- The header pairs VER, ADR, CID1, CID2; the two LENGTH pairs are read and dropped. -/
def decodeHeader (buf : List UInt8) : Option (UInt8 × UInt8 × UInt8 × UInt8) := do
  let ver ← decodeByte buf 0
  let adr ← decodeByte buf 1
  let cid1 ← decodeByte buf 2
  let cid2 ← decodeByte buf 3
  let _lenHi ← decodeByte buf 4
  let _lenLo ← decodeByte buf 5
  return (ver, adr, cid1, cid2)

def decodeWord (buf : List UInt8) (pairIdx : Nat) : Option UInt16 := do
  let hi ← decodeByte buf pairIdx
  let lo ← decodeByte buf (pairIdx + 1)
  return ofBytes hi lo

/-- Looks for one frame at the head of `buf` and returns the `int` result with the frame `out`,
which is written only once the checksum is right. -/
def tryParsePylontech (buf : List UInt8) (out : PylontechFrame := {}) : Int × PylontechFrame :=
  if buf.length = 0 then (0, out)
  else
    let soi := buf.findIdx (· == kSOI)
    if soi = buf.length then (-castInt buf.length, out)
    else if 0 < soi then (-castInt soi, out)
    else
      let eoi := 1 + (buf.drop 1).findIdx (· == kEOI)
      if eoi = buf.length then
        if kMaxFrameLen < buf.length then (-1, out) else (0, out)
      else
        let bodyLen := eoi - 1
        if bodyLen < kMinBodyLen ∨ bodyLen % 2 ≠ 0 then (-castInt (eoi + 1), out)
        else
          match decodeHeader buf with
          | none => (-castInt (eoi + 1), out)
          | some (ver, adr, cid1, cid2) =>
            let infoChars := bodyLen - kMinBodyLen
            let infoBytes := infoChars / 2
            let csPairIdx := 6 + infoBytes
            match decodeWord buf csPairIdx with
            | none => (-castInt (eoi + 1), out)
            | some actual =>
              let expected := chksumOver ((buf.drop 1).take (bodyLen - 4))
              if expected ≠ actual then (-castInt (eoi + 1), out)
              else
                match decodeInfo buf 0 infoBytes [] with
                | (false, info) => (-castInt (eoi + 1), { ver, adr, cid1, cid2, info })
                | (true, info) => (castInt (eoi + 1), { ver, adr, cid1, cid2, info })

def buildPylontech (f : PylontechFrame) : List UInt8 :=
  let body := putHex8 [] f.ver
  let body := putHex8 body f.adr
  let body := putHex8 body f.cid1
  let body := putHex8 body f.cid2
  let lenid := UInt16.ofNat (f.info.length * 2)
  let body := putHex16Be body (lengthField lenid)
  let body := f.info.foldl putHex8 body
  let cs := chksumOver body
  putHex16Be (kSOI :: body) cs ++ [kEOI]

end BmsBridge
