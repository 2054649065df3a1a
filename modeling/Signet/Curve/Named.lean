import Signet.Curve.Weierstrass
import Signet.Error
import Signet.Hash.Sha512
import Signet.Hash.Tiger

/-! The curves P-192 and P-521, each with the hash function that goes with it. -/
namespace Signet

/-- The curve P-192. -/
def p192 : Curve where
  p := 0xfffffffffffffffffffffffffffffffeffffffffffffffff
  n := 0xffffffffffffffffffffffff99def836146bc9b1b4d22831
  width := 24
  a := ⟨0xfffffffffffffffffffffffffffffffefffffffffffffffc, by decide⟩
  b := ⟨0x64210519e59c80e70fa7e9ab72243049feb8deecc146b9b1, by decide⟩
  baseX := ⟨0x188da80eb03090f67cbf20eb43a18800f4ff0afd82ff1012, by decide⟩
  baseY := ⟨0x07192b95ffc8da78631011ed6b24cdd573f977a11e794811, by decide⟩

/-- The curve P-521. -/
def p521 : Curve where
  p :=
    0x1ffffffffffffffffffffffffffffffffffffffffffffffffffffffffffffffffffffffffffffffffffffffffffffffffffffffffffffffffffffffffffffffffff
  n :=
    0x1fffffffffffffffffffffffffffffffffffffffffffffffffffffffffffffffffa51868783bf2f966b7fcc0148f709a5d03bb5c9b8899c47aebb6fb71e91386409
  width := 66
  a := ⟨
    0x1fffffffffffffffffffffffffffffffffffffffffffffffffffffffffffffffffffffffffffffffffffffffffffffffffffffffffffffffffffffffffffffffffc,
    by decide⟩
  b := ⟨
    0x051953eb9618e1c9a1f929a21a0b68540eea2da725b99b315f3b8b489918ef109e156193951ec7e937b1652c0bd3bb1bf073573df883d2c34f1ef451fd46b503f00,
    by decide⟩
  baseX := ⟨
    0xc6858e06b70404e9cd9e3ecb662395b4429c648139053fb521f828af606b4d3dbaa14b5e77efe75928fe1dc127a2ffa8de3348b3c1856a429bf97e7e31c2e5bd66,
    by decide⟩
  baseY := ⟨
    0x11839296a789a3bc0045c8a5fb42c7d1bd998f54449579b446817afbd17273e662c97ee72995ef42640c550b9013fad0761353c7086a272c24088be94769fd16650,
    by decide⟩

/-- A curve that keys may be on. -/
inductive NamedCurve where
  | p192 | p521
deriving DecidableEq, Repr

namespace NamedCurve

def curve : NamedCurve → Curve
  | p192 => Signet.p192
  | p521 => Signet.p521

def sizeInBits : NamedCurve → Nat
  | p192 => 192
  | p521 => 521

def scalarLength : NamedCurve → Nat
  | p192 => 24
  | p521 => 66

def signatureLength (c : NamedCurve) : Nat := 2 * c.scalarLength

def summary : NamedCurve → String
  | p192 => "P192"
  | p521 => "P521"

def keyType : NamedCurve → KeyType
  | p192 => .ecdsaP192
  | p521 => .ecdsaP521

/-- The curve whose field has the given size. -/
def ofSizeInBits (size : Nat) : Except Error NamedCurve :=
  if size = 192 then .ok p192
  else if size = 521 then .ok p521
  else .error (.precondition .ecdsa (.unsupportedSize [192, 521] size))

/-- The curve whose scalars have the given length. -/
def ofScalarLength (length : Nat) : Except Error NamedCurve :=
  if length = 24 then .ok p192
  else if length = 66 then .ok p521
  else .error (.corrupt .ecdsa (.scalarLength [24, 66] length))

/-- The digest of a message as a number: Tiger on P-192, SHA-512 on P-521. -/
def digest : NamedCurve → Bytes → Nat
  | p192, message => Bytes.ofBigEndian (Tiger.hash message).val
  | p521, message => Bytes.ofBigEndian (Sha512.hash message).val

end NamedCurve

/-- How the points of keys are written. -/
structure DomainParameters where
  curve : NamedCurve
  /-- Whether public points are written in the form with one coordinate. -/
  pointCompression : Bool
deriving DecidableEq, Repr

def DomainParameters.summary (params : DomainParameters) : String :=
  s!"DomainParameters \x7b curve: {params.curve.summary}, point_compression: {params.pointCompression} \x7d"

end Signet
