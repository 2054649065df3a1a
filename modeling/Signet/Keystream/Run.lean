import Signet.Keystream

/-! Runs of requests to a stream cipher. -/
namespace Signet.Keystream

/-- The kinds of stream ciphers. -/
inductive Kind where
  | aes | xsalsa20 | chacha20
deriving DecidableEq, Repr

/-- The number of bytes of an initial value. -/
def Kind.ivLength : Kind → Nat
  | aes => 16
  | xsalsa20 | chacha20 => 24

/-- A fresh cipher of a kind. -/
def start : Kind → (key : Bytes) → (iv : Option Bytes) → Except Error Keystream
  | .aes => aes
  | .xsalsa20 => xsalsa20
  | .chacha20 => chacha20

/-- A request to combine bytes with the keystream. -/
inductive Request where
  /-- The result is a new string. -/
  | process (input : Bytes)
  /-- The result takes the place of the input. -/
  | processInPlace (buffer : Bytes)
deriving DecidableEq, Repr

/-- What a cipher answers. -/
inductive Reply where
  /-- The combined bytes: the new string, or the buffer as it is now. -/
  | bytes (bytes : Bytes)
  /-- The request is refused; the buffer is given back. -/
  | refused (error : Error) (buffer : Bytes)
deriving DecidableEq, Repr

/-- The reply to a request, and the keystream after it. Where nothing is said, the allocator grants the
memory for a new string. -/
def step (stream : Keystream) (request : Request) (isGranted : Bool := true) : Reply × Keystream :=
  match request with
  | .process input =>
      match stream.process input isGranted with
      | .ok (bytes, stream) => (.bytes bytes, stream)
      | .error error => (.refused error [], stream)
  | .processInPlace buffer =>
      match stream.processInPlace buffer with
      | .ok (bytes, stream) => (.bytes bytes, stream)
      | .error error => (.refused error buffer, stream)

/-- The replies to a run of requests. -/
def run (stream : Keystream) : List Request → List Reply
  | [] => []
  | request :: requests =>
      let (reply, stream) := stream.step request
      reply :: run stream requests

/-- The replies to a run of requests, each of which comes with the answer of the allocator. -/
def runGranted (stream : Keystream) : List (Request × Bool) → List Reply
  | [] => []
  | (request, isGranted) :: requests =>
      let (reply, stream) := stream.step request isGranted
      reply :: runGranted stream requests

end Signet.Keystream
