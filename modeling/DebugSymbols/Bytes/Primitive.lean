import DebugSymbols.Bytes.Writing

namespace DebugSymbols

inductive Primitive where
  | u8 (v : UInt8)
  | i8 (v : Int8)
  | u16 (v : UInt16)
  | i16 (v : Int16)
  | u32 (v : UInt32)
  | i32 (v : Int32)
  | u64 (v : UInt64)
  | i64 (v : Int64)
  | varint (v : UInt32)
  | signedVarint (v : Int32)
  | raw (bytes : List UInt8)
  | run (bytes : List UInt8)
  | text (s : String)
deriving DecidableEq, Repr

inductive Shape where
  | u8 | i8 | u16 | i16 | u32 | i32 | u64 | i64
  | varint | signedVarint
  | raw (length : Nat)
  | run | text
deriving DecidableEq, Repr

namespace Primitive

def shape : Primitive → Shape
  | u8 _ => .u8
  | i8 _ => .i8
  | u16 _ => .u16
  | i16 _ => .i16
  | u32 _ => .u32
  | i32 _ => .i32
  | u64 _ => .u64
  | i64 _ => .i64
  | varint _ => .varint
  | signedVarint _ => .signedVarint
  | raw bytes => .raw bytes.length
  | run _ => .run
  | text _ => .text

def encode : Primitive → List UInt8
  | u8 v => littleEndian 1 v.toNat
  | i8 v => littleEndian 1 v.toUInt8.toNat
  | u16 v => littleEndian 2 v.toNat
  | i16 v => littleEndian 2 v.toUInt16.toNat
  | u32 v => littleEndian 4 v.toNat
  | i32 v => littleEndian 4 v.toUInt32.toNat
  | u64 v => littleEndian 8 v.toNat
  | i64 v => littleEndian 8 v.toUInt64.toNat
  | varint v => Varint.encode v
  | signedVarint v => Varint.encodeSigned v
  | raw bytes => bytes
  | run bytes => encodeRun bytes
  | text s => encodeText s

end Primitive

def Shape.reader : Shape → Reader Primitive
  | u8 => (fun n => .u8 (UInt8.ofNat n)) <$> Reader.fixed 1
  | i8 => (fun n => .i8 (UInt8.ofNat n).toInt8) <$> Reader.fixed 1
  | u16 => (fun n => .u16 (UInt16.ofNat n)) <$> Reader.fixed 2
  | i16 => (fun n => .i16 (UInt16.ofNat n).toInt16) <$> Reader.fixed 2
  | u32 => (fun n => .u32 (UInt32.ofNat n)) <$> Reader.fixed 4
  | i32 => (fun n => .i32 (UInt32.ofNat n).toInt32) <$> Reader.fixed 4
  | u64 => (fun n => .u64 (UInt64.ofNat n)) <$> Reader.fixed 8
  | i64 => (fun n => .i64 (UInt64.ofNat n).toInt64) <$> Reader.fixed 8
  | varint => .varint <$> Reader.varint
  | signedVarint => .signedVarint <$> Reader.signedVarint
  | raw length => .raw <$> Reader.bytes length
  | run => .run <$> Reader.prefixedBytes
  | text => .text <$> Reader.text

/-- Writes a value; a run is refused if the format cannot record its length. -/
def Primitive.write [Sink σ] : Primitive → Writing σ Unit
  | .run bytes => Writing.prefixedBytes bytes
  | .text s => Writing.text s
  | v => Writing.raw v.encode

def Output.put (o : Output) (v : Primitive) : Except Error Unit × Output := v.write.run o

end DebugSymbols
