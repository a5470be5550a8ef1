import TorMarketplace.Gateway.Effects

/-!
# Stateless request authentication

`gateway/auth_common.rs` and `gateway/stateless_auth.rs`. A request proves that its sender was given
the auth key of a public key (an HMAC over key, hour, path and nonce) and holds the secret key (a
signature over the HMAC), both for an hour that the server's clock accepts; a nonce is accepted once
an hour. The body is not covered.
-/

namespace TorMarketplace

open Encoding Interleave Prog

/-- `hash_pubkey`. -/
def hashPubkey (P : Primitives) (pubkeyBytes : Bytes) : Bytes := P.blake3 pubkeyBytes

/-- `derive_auth_key`. -/
def deriveAuthKey (P : Primitives) (serverSecret : String) (pubkey : Bytes) : Bytes :=
  P.hmacSha256 (utf8 serverSecret) (utf8 "auth_key_derivation_v1" ++ pubkey)

/-- The `x-auth-*` headers; one that is absent or not text is `none`. -/
structure AuthHeaders where
  pubkey : Option String := none
  hmac : Option String := none
  hour : Option String := none
  nonce : Option String := none
  signature : Option String := none
  deriving DecidableEq

/-- The request extensions `AuthPubkey` and `AuthPubkeyBytes`. -/
structure Authed where
  pubkeyHash : Bytes
  pubkeyBytes : Bytes

def computeHmac (P : Primitives) (authKey pubkey : Bytes) (hourBucket : UInt64) (path : String)
    (nonce : Bytes) : Bytes :=
  P.hmacSha256 authKey (pubkey ++ leBytes hourBucket ++ utf8 path ++ nonce)

def buildChallenge (hmac pubkey : Bytes) (hourBucket : UInt64) (nonce : Bytes) : Bytes :=
  hmac ++ pubkey ++ leBytes hourBucket ++ nonce

/-- `verify_hmac`: the lengths are compared first, then the bytes in constant time. -/
def verifyHmac (P : Primitives) (authKey pubkey : Bytes) (hourBucket : UInt64) (path : String)
    (nonce expected : Bytes) : Bool :=
  computeHmac P authKey pubkey hourBucket path nonce = expected

/-- `verify_signature`. -/
def verifySignature (P : Primitives) (pk hmac pubkey : Bytes) (hourBucket : UInt64)
    (nonce sig : Bytes) : Bool :=
  P.isVerifyingKey pk && sig.length = 64 &&
    P.ed25519Verify pk (buildChallenge hmac pubkey hourBucket nonce) sig

/-- `s.starts_with(prefix)`. -/
def startsWith (s start : String) : Bool := (utf8 start).isPrefixOf (utf8 s)

/-- The paths that need no authentication. -/
def exemptPath (path : String) : Bool :=
  startsWith path "/auth/" || startsWith path "/api/auth/" || startsWith path "/public/"

/-- The hour of a request is the current one or the one before. -/
def freshHour (currentHour hourBucket : UInt64) : Bool :=
  let oldest := if currentHour = 0 then 0 else currentHour - 1
  !(hourBucket > currentHour || hourBucket < oldest)

/-- `stateless_auth_middleware` up to `next.run`: the extensions it gives the request. -/
def statelessAuthMiddleware (st : AppState) (path : String) (headers : AuthHeaders) :
    Program (Option Authed) :=
  if exemptPath path then pure none
  else do
    let pubkeyHex ← orFail headers.pubkey (authFailed "missing pubkey")
    let hmacHex ← orFail headers.hmac (authFailed "missing hmac")
    let hourStr ← orFail headers.hour (authFailed "missing hour")
    let nonceHex ← orFail headers.nonce (authFailed "missing nonce")
    let sigHex ← orFail headers.signature (authFailed "missing signature")
    let pkBytes ← orFail (hexDecode pubkeyHex) (authFailed "invalid pubkey hex")
    ensure (pkBytes.length = 32) (authFailed "invalid pubkey length")
    let hmacBytes ← orFail (hexDecode hmacHex) (authFailed "invalid hmac hex")
    let hourBucket ← orFail (parseU64 hourStr) (authFailed "invalid hour")
    let nonceBytes ← orFail (hexDecode nonceHex) (authFailed "invalid nonce hex")
    let sigBytes ← orFail (hexDecode sigHex) (authFailed "invalid sig hex")
    let now ← exec .now
    ensure (freshHour (hourOf now) hourBucket) (authFailed "stale hour bucket")
    let authKey := deriveAuthKey st.prim st.serverSecret pkBytes
    ensure (verifyHmac st.prim authKey pkBytes hourBucket path nonceBytes hmacBytes)
      (authFailed "hmac mismatch")
    ensure (verifySignature st.prim pkBytes hmacBytes pkBytes hourBucket nonceBytes sigBytes)
      (authFailed "signature mismatch")
    let fresh ← exec (.checkReplay hourBucket nonceBytes)
    ensure fresh (authFailed "replay detected")
    pure (some ⟨hashPubkey st.prim pkBytes, pkBytes⟩)

/-- What the middleware has established of a request that it lets through with extensions: the
public key and the hour are those of the headers, and the hour was fresh by the clock it read. -/
structure Authenticated (headers : AuthHeaders) (past : Past) (auth : Authed)
    (hourBucket : UInt64) : Prop where
  pubkey : headers.pubkey.bind hexDecode = some auth.pubkeyBytes
  hour : headers.hour.bind parseU64 = some hourBucket
  fresh : ∃ now, ⟨.now, now⟩ ∈ past ∧ freshHour (hourOf now) hourBucket

theorem Authenticated.mono {headers : AuthHeaders} {past past' : Past} {auth : Authed}
    {hour : UInt64} (h : Authenticated headers past auth hour) (hsub : past ⊆ past') :
    Authenticated headers past' auth hour :=
  ⟨h.pubkey, h.hour, h.fresh.imp fun _ hn => ⟨hsub hn.1, hn.2⟩⟩

end TorMarketplace
