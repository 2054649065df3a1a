import Signet.Config
import Signet.Descriptor
import Signet.EntropyPool.Run
import Signet.EntropyPool.Use
import Signet.Hash.Sha256.Hasher
import Signet.Keystream
import Signet.Keystream.Run
import Signet.Proofs.Base64
import Signet.Proofs.Base64.Canonical
import Signet.Proofs.Bytes
import Signet.Proofs.Cipher.Aes
import Signet.Proofs.Curve.Cubic
import Signet.Proofs.Curve.Decoding
import Signet.Proofs.Curve.Edwards
import Signet.Proofs.Curve.Edwards.Group
import Signet.Proofs.Curve.Edwards.Order
import Signet.Proofs.Curve.Encoding
import Signet.Proofs.Curve.Fraction
import Signet.Proofs.Curve.Group
import Signet.Proofs.Curve.Ladder
import Signet.Proofs.Curve.P192
import Signet.Proofs.Curve.P521
import Signet.Proofs.Curve.Scalar
import Signet.Proofs.Der
import Signet.Proofs.Descriptor
import Signet.Proofs.Descriptor.Resolution
import Signet.Proofs.Ecdsa.Derivation
import Signet.Proofs.Ecdsa.SeededKey
import Signet.Proofs.Ecdsa.Signing
import Signet.Proofs.Ecdsa.Verification
import Signet.Proofs.Ed25519.Equation
import Signet.Proofs.Ed25519.Signing
import Signet.Proofs.Ed25519.Verification
import Signet.Proofs.EntropyPool.Apart
import Signet.Proofs.EntropyPool.Nonces
import Signet.Proofs.EntropyPool.Refusal
import Signet.Proofs.EntropyPool.ScalarDraw
import Signet.Proofs.EntropyPool.Search
import Signet.Proofs.EntropyPool.Serving
import Signet.Proofs.EntropyPool.Uncached
import Signet.Proofs.KeyEncoding
import Signet.Proofs.KeyForm
import Signet.Proofs.Keystream
import Signet.Proofs.Loading
import Signet.Proofs.Modular
import Signet.Proofs.Prime
import Signet.Proofs.Rsa.Encoding
import Signet.Proofs.Rsa.Pss
import Signet.Proofs.Rsa.Signing
import Signet.Hash.Sha256.Bench
import Signet.Proofs.Hash.Sha256
import Signet.Proofs.Hash.Sha256.Branch
import Signet.Proofs.Ecdsa.NormalForm
import Signet.Proofs.Rsa.PrivateEncoding
import Signet.Proofs.Verification
import Signet.Proofs.Rsa.Generation
import Signet.Proofs.Rsa.NormalForm
import Signet.Proofs.Ecdsa.Pairing
import Signet.Proofs.Ecdsa.SeedExponent
import Signet.Proofs.Ecdsa.PlainForm
import Signet.Proofs.Rsa.Request
import Signet.Proofs.EntropyPool.Slices
import Signet.Proofs.Cipher.KeySchedule
import Signet.Proofs.Keystream.CounterMode
import Signet.Proofs.SigningKeyForm
import Signet.Proofs.Json.Strings
import Signet.Proofs.Json.Objects
import Signet.Proofs.Descriptor.Json
import Signet.Proofs.Config.Validation
