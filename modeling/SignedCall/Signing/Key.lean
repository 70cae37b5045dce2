import SignedCall.Failure
import SignedCall.Files
import SignedCall.Bytes.Base64
import SignedCall.Rsa.Signature

/-!
# Keys and signatures

The two ways to sign: a keyed hash with a shared secret, and an RSA signature with a private key. Both refuse what is no key.
-/

namespace SignedCall

/-- What is handed over as a key: a text, bytes, or something of another type. -/
inductive KeyMaterial where
  | text (s : String)
  | bytes (bytes : Bytes)
  | other (typeName : String)
  deriving DecidableEq, Repr

/-- Why a key cannot sign. -/
inductive SigningFault where
  | keyType (typeName : String)
  | emptyKey (algorithm : Digest.Algorithm)
  | unreadableFile (path : String)
  | unparsableKey
  | notRsa (typeName : String)
  | keyTooShort
  deriving DecidableEq, Repr

namespace SigningFault

/-- The wording of a fault. -/
def message : SigningFault → String
  | .keyType typeName => "Unable to sign with a key of type " ++ typeName ++ "."
  | .emptyKey algorithm => "Unable to sign with an empty " ++ algorithm.keyedName ++ " key."
  | .unreadableFile path => "Unable to read private key file " ++ path ++ "."
  | .unparsableKey => "Unable to parse the supplied private key."
  | .notRsa typeName => "Expected an RSA private key but found " ++ typeName ++ "."
  | .keyTooShort => "Unable to sign with the supplied private key."

/-- The failure of a call for the sake of a fault. -/
def failure (f : SigningFault) : Failure := Failure.stated .signing f.message

end SigningFault

namespace Signing

/-- The bytes of a shared secret, which must not be empty. -/
def secretBytes (algorithm : Digest.Algorithm) : KeyMaterial → Except SigningFault Bytes
  | .text s => if s = "" then .error (.emptyKey algorithm) else .ok (Text.Utf8.encode s)
  | .bytes b => if b.isEmpty then .error (.emptyKey algorithm) else .ok b
  | .other typeName => .error (.keyType typeName)

/-- The keyed hash of some data under a shared secret. -/
def keyedHash (key : KeyMaterial) (algorithm : Digest.Algorithm) (data : Bytes) : Except SigningFault Bytes :=
  (secretBytes algorithm key).map fun secret => Digest.hmac algorithm secret data

/-- The keyed hash of a text in base 64. -/
def keyedHashText (key : KeyMaterial) (algorithm : Digest.Algorithm) (data : Bytes) : Except SigningFault String :=
  (keyedHash key algorithm data).map Base64.text

/-- The RSA key that some bytes hold. -/
def loadKey (bytes : Bytes) : Except SigningFault RsaKey :=
  match PrivateKey.read? bytes with
  | none => .error .unparsableKey
  | some (.other name) => .error (.notRsa name)
  | some (.rsa key) => .ok key

/-- The RSA key in a file. -/
def loadKeyFile (files : Files) (path : String) : Except SigningFault RsaKey :=
  match files.content? (FilePath.ofText path) with
  | none => .error (.unreadableFile path)
  | some bytes => loadKey bytes

/-- The RSA key of what is handed over as one. -/
def rsaKey : KeyMaterial → Except SigningFault RsaKey
  | .text s => loadKey (Text.Utf8.encode s)
  | .bytes b => loadKey b
  | .other typeName => .error (.notRsa typeName)

/-- The RSA signature of some data. -/
def signData (key : RsaKey) (data : Bytes) : Except SigningFault Bytes :=
  match key.sign? data with
  | some signature => .ok signature
  | none => .error .keyTooShort

/-- The RSA signature of some data with what is handed over as a key. -/
def signWith (key : KeyMaterial) (data : Bytes) : Except SigningFault Bytes := do
  signData (← rsaKey key) data

end Signing

end SignedCall
