import SignedCall.Rsa.Armor
import SignedCall.Rsa.Der

/-!
# Private keys

Reading RSA private keys, armored or binary, in the form of their own standard or wrapped with the name of the algorithm. Other
kinds of private keys are told apart by name.
-/

namespace SignedCall

/-- An RSA private key. -/
structure RsaKey where
  modulus : Nat
  publicExponent : Nat
  privateExponent : Nat
  deriving DecidableEq, Repr

/-- What a key file may hold. -/
inductive PrivateKey where
  | rsa (key : RsaKey)
  | other (name : String)
  deriving DecidableEq, Repr

namespace PrivateKey

/-- Whether the parts of a key belong together: `d` undoes `e`, and the other parts are what they are derived to be. -/
def isConsistent (n e d p q dp dq inverse : Nat) : Bool :=
  1 < p && 1 < q && n == p * q && e % 2 == 1 && 3 ≤ e && e < n && d < n &&
    d * e % Nat.lcm (p - 1) (q - 1) == 1 % Nat.lcm (p - 1) (q - 1) && dp == d % (p - 1) && dq == d % (q - 1) &&
    inverse < p && inverse * q % p == 1

/-- The key of a sequence of its version, its modulus, its exponents and what speeds up its use. -/
def ofRsaElement? (element : Der.Element) : Option RsaKey := do
  let numbers ← (← element.items?).mapM Der.Element.nat?
  match numbers with
  | [0, n, e, d, p, q, dp, dq, inverse] =>
    if isConsistent n e d p q dp dq inverse then some ⟨n, e, d⟩ else none
  | _ => none

/-- Checks the outer form of an elliptic curve key. -/
def isCurveElement (element : Der.Element) : Bool :=
  match element.items? with
  | some (version :: secret :: _) => version.nat? == some 1 && secret.octets?.isSome
  | _ => false

/-- The identifiers of the algorithms that keys are made for, with the names of the kinds of key. -/
def algorithms : List (Bytes × String) :=
  [([0x2a, 0x86, 0x48, 0xce, 0x3d, 0x02, 0x01], "ECPrivateKey"),
   ([0x2b, 0x65, 0x70], "Ed25519PrivateKey"),
   ([0x2b, 0x65, 0x71], "Ed448PrivateKey"),
   ([0x2b, 0x65, 0x6e], "X25519PrivateKey"),
   ([0x2b, 0x65, 0x6f], "X448PrivateKey"),
   ([0x2a, 0x86, 0x48, 0xce, 0x38, 0x04, 0x01], "DSAPrivateKey"),
   ([0x2a, 0x86, 0x48, 0x86, 0xf7, 0x0d, 0x01, 0x03, 0x01], "DHPrivateKey")]

/-- The identifier of RSA. -/
def rsaIdentifier : Bytes := [0x2a, 0x86, 0x48, 0x86, 0xf7, 0x0d, 0x01, 0x01, 0x01]

/-- The key of a sequence of a version, an algorithm and the key in the form of the algorithm. -/
def ofWrappedElement? (element : Der.Element) : Option PrivateKey := do
  match ← element.items? with
  | version :: algorithm :: wrapped :: _ =>
    let version ← version.nat?
    let identifier ← (← algorithm.items?).head?
    let inner ← wrapped.octets?
    if 1 < version || identifier.tag ≠ Der.identifierTag then none
    else if identifier.content = rsaIdentifier then (Der.readAll? inner).bind fun e => (ofRsaElement? e).map .rsa
    else do
      let name ← algorithms.lookup identifier.content
      let content ← Der.readAll? inner
      if name = "ECPrivateKey" && !isCurveElement content then none else some (.other name)
  | _ => none

/-- The key of an elliptic curve in the form of its own standard. -/
def ofCurveElement? (element : Der.Element) : Option PrivateKey :=
  if isCurveElement element then some (.other "ECPrivateKey") else none

/-- The key of a sequence of a version, the three numbers of a group and the two halves of a key in it. -/
def ofGroupElement? (element : Der.Element) : Option PrivateKey := do
  match ← (← element.items?).mapM Der.Element.nat? with
  | [0, _, _, _, _, _] => some (.other "DSAPrivateKey")
  | _ => none

/-- The key that binary content writes in one of the known forms. -/
def ofBinary? (bytes : Bytes) : Option PrivateKey := do
  let element ← Der.readAll? bytes
  (ofWrappedElement? element).or <| (ofCurveElement? element).or <|
    ((ofRsaElement? element).map .rsa).or (ofGroupElement? element)

/-- The key of an armored block; its label tells the form. -/
def ofArmor? (armor : Armor) : Option PrivateKey :=
  if (Text.cutAtWord? "Proc-Type".toList armor.headers).isSome then none
  else do
    let element ← Der.readAll? armor.content
    if armor.label = "PRIVATE KEY" then ofWrappedElement? element
    else if armor.label = "RSA PRIVATE KEY" then (ofRsaElement? element).map .rsa
    else if armor.label = "EC PRIVATE KEY" then ofCurveElement? element
    else if armor.label = "DSA PRIVATE KEY" then ofGroupElement? element
    else none

/-- The private key that some bytes hold, armored or binary. -/
def read? (bytes : Bytes) : Option PrivateKey :=
  if Armor.isArmored bytes then (Armor.read? bytes).bind ofArmor? else ofBinary? bytes

end PrivateKey

end SignedCall
