import Signet.Hash.Sha256

/-! Fingerprints of public keys. -/
namespace Signet

/-- The fingerprint of a serialized public key: the name of the hash function and the hexadecimal
digest. -/
def keyId (serialized : Bytes) : String := "sha256:" ++ Bytes.toHex (Sha256.hash serialized).val

end Signet
