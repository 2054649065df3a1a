import Signet.Cipher.Lanes

/-! The ChaCha20 block function, and the derivation of a key from the first part of a long nonce. -/
namespace Signet.ChaCha20

/-- The quarter round, on the four columns at once. -/
def quarterRound (s : Rows) : Rows :=
  let a := s.a.add s.b
  let d := (s.d.xor a).rotate 16
  let c := s.c.add d
  let b := (s.b.xor c).rotate 12
  let a := a.add b
  let d := (d.xor a).rotate 8
  let c := c.add d
  let b := (b.xor c).rotate 7
  ⟨a, b, c, d⟩

/-- A round on the columns and one on the diagonals. -/
def doubleRound (s : Rows) : Rows :=
  let s := quarterRound s
  let s := quarterRound ⟨s.a, s.b.turn, s.c.turn.turn, s.d.turn.turn.turn⟩
  ⟨s.a, s.b.turn.turn.turn, s.c.turn.turn, s.d.turn⟩

/-- The twenty rounds. -/
def rounds (s : Rows) : Rows := Rows.repeated doubleRound 10 s

/-- The rows of a key of 32 bytes and a last row. -/
def setup (key : Bytes) (last : Lanes) : Rows :=
  ⟨Rows.sigma, Lanes.ofBytes key, Lanes.ofBytes (key.drop 16), last⟩

/-- The key that a key and sixteen bytes of a nonce give. -/
def deriveKey (key nonce : Bytes) : Bytes :=
  let s := rounds (setup key (Lanes.ofBytes nonce))
  s.a.toBytes ++ s.d.toBytes

/-- The sixty-four keystream bytes of a key, the eight remaining bytes of the nonce, and a block number
of 32 bits. -/
def block (key nonce : Bytes) (index : Nat) : Bytes :=
  let s := setup key ⟨UInt32.ofNat index, 0, Lanes.wordOf nonce, Lanes.wordOf (nonce.drop 4)⟩
  ((rounds s).add s).toBytes

end Signet.ChaCha20
