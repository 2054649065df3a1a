import Signet.Cipher.Lanes

/-! The Salsa20 block function, and the derivation of a key from the first part of a long nonce. The
state is kept by its diagonals, on which a round works word by word. -/
namespace Signet.Salsa20

/-- The quarter round, on the four columns at once. -/
def quarterRound (s : Rows) : Rows :=
  let b := s.b.xor ((s.a.add s.d).rotate 7)
  let c := s.c.xor ((b.add s.a).rotate 9)
  let d := s.d.xor ((c.add b).rotate 13)
  let a := s.a.xor ((d.add c).rotate 18)
  ⟨a, b, c, d⟩

/-- A round on the columns and one on the rows. -/
def doubleRound (s : Rows) : Rows :=
  let s := quarterRound s
  let s := quarterRound ⟨s.a, s.d.turn, s.c.turn.turn, s.b.turn.turn.turn⟩
  ⟨s.a, s.d.turn, s.c.turn.turn, s.b.turn.turn.turn⟩

/-- The twenty rounds. -/
def rounds (s : Rows) : Rows := Rows.repeated doubleRound 10 s

/-- The diagonals of the square of words that a key of 32 bytes and four input words fill. -/
def setup (key : Bytes) (input : Lanes) : Rows :=
  let k := Lanes.ofBytes key
  let l := Lanes.ofBytes (key.drop 16)
  ⟨Rows.sigma, ⟨k.w3, input.w3, l.w3, k.w2⟩, ⟨input.w2, l.w2, k.w1, input.w1⟩,
    ⟨l.w1, k.w0, input.w0, l.w0⟩⟩

/-- The square of words in the order of its rows, from its diagonals. -/
def square (s : Rows) : Rows :=
  ⟨⟨s.a.w0, s.d.w1, s.c.w2, s.b.w3⟩, ⟨s.b.w0, s.a.w1, s.d.w2, s.c.w3⟩,
    ⟨s.c.w0, s.b.w1, s.a.w2, s.d.w3⟩, ⟨s.d.w0, s.c.w1, s.b.w2, s.a.w3⟩⟩

/-- The key that a key and sixteen bytes of a nonce give: the words of the main diagonal and those that
the nonce filled. -/
def deriveKey (key nonce : Bytes) : Bytes :=
  let s := rounds (setup key (Lanes.ofBytes nonce))
  s.a.toBytes ++ Lanes.toBytes ⟨s.d.w2, s.c.w3, s.c.w0, s.b.w1⟩

/-- The sixty-four keystream bytes of a key, the eight remaining bytes of the nonce, and a block number
of 64 bits. -/
def block (key nonce : Bytes) (index : Nat) : Bytes :=
  let s := setup key ⟨Lanes.wordOf nonce, Lanes.wordOf (nonce.drop 4), UInt32.ofNat index,
    UInt32.ofNat (index / Nat.pow 2 32)⟩
  (square ((rounds s).add s)).toBytes

end Signet.Salsa20
