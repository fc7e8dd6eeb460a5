/-
# Signed tokens

A token is a header, claims and a signature, each in Base64 and joined by dots. The header names the
one accepted algorithm, HMAC with SHA-256. A token verifies if its signature fits, all four claims are
there and of their types, it is meant for no particular audience, and it has not expired more than a
minute ago.

Key definitions: `Claims`, `signToken`, `SigningKey`, `SigningKey.issue`, `SigningKey.verify`.
-/
import ExperimentKpi.Failure
import ExperimentKpi.Json.Printer
import ExperimentKpi.Settings.Reader
import ExperimentKpi.Text.Utf8
import ExperimentKpi.Token.Base64Url
import ExperimentKpi.Token.Duration
import ExperimentKpi.Token.Sha256

namespace ExperimentKpi

/-- What a token says: the user's id as text, the user's name, and the seconds since 1970 of its
expiry and of its issue. -/
structure Claims where
  subject : String
  username : String
  expires : Int
  issued : Int
deriving DecidableEq, Repr

namespace Claims

/-- The claims as JSON. -/
def toJson (c : Claims) : Json :=
  .obj [("sub", .str c.subject), ("username", .str c.username), ("exp", .int c.expires),
    ("iat", .int c.issued)]

/-- A signed integer of 64 bits. -/
def int64? : RawJson → Option Int
  | .num (some (.int z)) => if IsInt64 z then some z else none
  | _ => none

/-- Whether a value names an audience: a text, or a list of texts. -/
def isAudience : RawJson → Bool
  | .str _ => true
  | .arr items => items.all fun item => item.text?.isSome
  | _ => false

/-- The claims that a tree spells, unless they are for a particular audience. -/
def ofRaw? : RawJson → Option Claims
  | .obj members => do
    let ms : RawMembers := members
    guard (ms.all fun m => m.1.isSome)
    let subject ← ms.required? "sub" RawJson.text?
    let username ← ms.required? "username" RawJson.text?
    let expires ← ms.required? "exp" int64?
    let issued ← ms.required? "iat" int64?
    guard (!(ms.valuesAt "aud").any isAudience)
    return ⟨subject, username, expires, issued⟩
  | _ => none

end Claims

/-- The header of the tokens that are issued. -/
def tokenHeader : String :=
  (Json.obj [("typ", .str "JWT"), ("alg", .str "HS256")]).compact

/-- The signature of a text, in Base64. -/
def tokenSignature (secret : String) (message : List Char) : List Char :=
  Base64Url.encode (Sha256.hmac (Text.utf8 secret) (Text.utf8 (String.ofList message)))

/-- The token with the given claims. -/
def signToken (secret : String) (claims : Json) : String :=
  let message := Base64Url.encode (Text.utf8 tokenHeader) ++
    '.' :: Base64Url.encode (Text.utf8 claims.compact)
  String.ofList (message ++ '.' :: tokenSignature secret message)

/-- The tree of JSON text in Base64. -/
def decodePart? (s : List Char) : Option RawJson :=
  (Base64Url.decode? s).bind fun bytes => (Text.ofUtf8? bytes).bind RawJson.parse?

/-- Whether a header names the accepted algorithm; its other known members must be texts. -/
def isAcceptedHeader : RawJson → Bool
  | .obj members =>
    let ms : RawMembers := members
    ms.all (·.1.isSome) && ms.required? "alg" RawJson.text? == some "HS256" &&
      ["typ", "cty", "jku", "kid", "x5u", "x5t", "x5t#S256"].all fun key =>
        (ms.optional? key RawJson.text?).isSome
  | _ => false

/-- A secret and the lifetime, in seconds, of the tokens that are issued under it. -/
structure SigningKey where
  secret : String
  lifetime : Int

namespace SigningKey

/-- A secret with a written lifetime; one that cannot be read means a day. -/
def of (secret lifetime : String) : SigningKey :=
  ⟨secret, ((durationSeconds? lifetime).getD 86400 : Int).bmod wordSize⟩

/-- The claims of a new token for a user. -/
def claims (key : SigningKey) (now user : Int) (username : String) : Claims :=
  ⟨toString user, username, (now + key.lifetime).bmod wordSize, now⟩

/-- A new token for a user. -/
def issue (key : SigningKey) (now user : Int) (username : String) : String :=
  signToken key.secret (key.claims now user username).toJson

/-- How many seconds after its expiry a token is still accepted. -/
def leeway : Int := 60

/-- The header, the claims and the signature of a token. -/
def parts? (token : List Char) : Option (List Char × List Char × List Char) :=
  match Text.splitAt (· == '.') token with
  | [header, claims, signature] => some (header, claims, signature)
  | _ => none

/-- The claims of a token that verifies. -/
def verify? (key : SigningKey) (now : Int) (token : String) : Option Claims := do
  let (header, claims, signature) ← parts? token.toList
  guard (isAcceptedHeader (← decodePart? header))
  guard (signature = tokenSignature key.secret (header ++ '.' :: claims))
  let c ← Claims.ofRaw? (← decodePart? claims)
  guard (0 ≤ c.expires ∧ now - leeway ≤ c.expires)
  return c

/-- The claims of a token, or the one failure that every fault of a token is. -/
def verify (key : SigningKey) (now : Int) (token : String) : Except Failure Claims :=
  match key.verify? now token with
  | some c => .ok c
  | none => .error .badToken

end SigningKey

end ExperimentKpi
