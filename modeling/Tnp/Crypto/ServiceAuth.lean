import Tnp.Crypto.Grants
import Tnp.Crypto.Utf16

/-!
The proof of a service node: that it holds the node key, to this relay and on this connection.
-/

namespace Tnp.Crypto

open Tnp.Lib Tnp.Crypto.Grants

def SERVICE_AUTH_CONTEXT : String := "tnp-relay-service-auth-v1"
def SERVICE_AUTH_CHALLENGE_SIZE : ℕ := 32
def MAX_ENDPOINT_LENGTH : ℕ := 512

abbrev Challenge := {bytes : Bytes // bytes.length = SERVICE_AUTH_CHALLENGE_SIZE}

structure ServiceAuthStatement where
  name : String
  endpoint : JsString
  challenge : Challenge
  nodeKey : PublicKey

def encodeStatement (statement : ServiceAuthStatement) : Except EncodingError Bytes :=
  if !isValidScope statement.name then .error ⟨"name is not a canonical name"⟩
  else if statement.endpoint.length = 0 ∨ MAX_ENDPOINT_LENGTH < statement.endpoint.length then
    .error ⟨"endpoint is missing or too long"⟩
  else
    .ok (({} : CanonicalWriter)
      |>.string SERVICE_AUTH_CONTEXT
      |>.string statement.name
      |>.units statement.endpoint
      |>.fixed statement.challenge
      |>.fixed statement.nodeKey
      |>.finish)

def verifyServiceAuth (verify : Verifier) (statement : ServiceAuthStatement)
    (signature : String) : Bool :=
  match encodeStatement statement,
    decodeBase64Strict (.string signature) (some SIGNATURE_LENGTH) with
  | .ok bytes, .ok sig => verify bytes sig statement.nodeKey.val
  | _, _ => false

end Tnp.Crypto
