import Statefeed.Library.BigEndian
import Statefeed.Library.Effect
import Statefeed.Library.Source
import Statefeed.Model.Wire

set_option autoImplicit false

namespace Statefeed

open Effect

/-- The generated codec of an envelope. -/
structure Codec where
  encode : Wire.Envelope → Bytes
  decode : Bytes → Option Wire.Envelope

/-- Decoding inverts encoding, and the length is the one that was computed. -/
structure Codec.Inverts (codec : Codec) (envelope : Wire.Envelope) : Prop where
  length : (codec.encode envelope).length = envelope.encodedLen
  decode : codec.decode (codec.encode envelope) = some envelope

/-- The bytes of a frame: a four-byte length and the payload. -/
def Wire.Frame.bytes (codec : Codec) (frame : Wire.Frame) : Bytes :=
  BigEndian.encode 4 frame.length ++ codec.encode frame.payload

inductive ClientError where
  | unexpectedEof
  | decode
  | frameTooLarge (actual limit : Nat)

def Codec.decodePayload (codec : Codec) (payload : Bytes) :
    Except ClientError (Option Wire.Envelope) :=
  match codec.decode payload with
  | some envelope => .ok (some envelope)
  | none => .error .decode

structure FrameReader where
  inner : Source UInt8
  maxFrameBytes : Nat
  -- The sizes of the payload buffers so far.
  requested : List Nat

namespace FrameReader

def readInner (most : Nat) : Op FrameReader ClientError Bytes :=
  Op.step fun reader =>
    ((reader.inner.read most).1, { reader with inner := (reader.inner.read most).2 })

def readExact (wanted : Nat) : Op FrameReader ClientError Bytes := fun reader =>
  (match (reader.inner.readExact wanted).1 with
    | some bytes => .ok bytes
    | none => .error .unexpectedEof,
    { reader with inner := (reader.inner.readExact wanted).2 })

def readPayload (codec : Codec) (length : Nat) : Op FrameReader ClientError (Option Wire.Envelope) := do
  Op.modify fun reader => { reader with requested := reader.requested ++ [length] }
  let payload ← readExact length
  Op.ofExcept (codec.decodePayload payload)

def read (codec : Codec) : Op FrameReader ClientError (Option Wire.Envelope) := do
  let first ← readInner 1
  if first = [] then pure none
  else
    let rest ← readExact 3
    let length := BigEndian.decode (first ++ rest)
    let reader ← Op.get
    if length > reader.maxFrameBytes then Op.throw (.frameTooLarge length reader.maxFrameBytes)
    else readPayload codec length

/-- The results of calling `read` again and again. -/
def results (codec : Codec) : Nat → FrameReader → List (Except ClientError (Option Wire.Envelope))
  | 0, _ => []
  | count + 1, reader => (read codec reader).1 :: results codec count (read codec reader).2

end FrameReader

end Statefeed
