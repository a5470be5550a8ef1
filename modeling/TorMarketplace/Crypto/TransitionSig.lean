import TorMarketplace.Crypto.Primitives
import TorMarketplace.Lib.Cbor

/-!
# Transition signatures

`crypto/transition_sig.rs`: the payload that a client signs for an order update, its canonical CBOR
encoding, and its verification.
-/

namespace TorMarketplace

open Encoding Cbor

/-- `TRANSITION_SIG_VERSION`. -/
def transitionSigVersion : UInt8 := 1

structure TransitionPayload where
  version : UInt8
  orderId : Bytes
  /-- The version of the row that the update replaces. -/
  prevVersion : Int
  newBlobSha256 : Bytes
  nonce : Bytes
  hourBucket : UInt64
  deriving DecidableEq

namespace TransitionPayload

/-- `TransitionPayload::new`. -/
def new (orderId : Bytes) (prevVersion : Int) (newBlobSha256 nonce : Bytes) (hourBucket : UInt64) :
    TransitionPayload :=
  ⟨transitionSigVersion, orderId, prevVersion, newBlobSha256, nonce, hourBucket⟩

/-- `to_cbor`: a map with the keys 1 to 6. The hour is written as an `i64`. -/
def toCbor (p : TransitionPayload) : Bytes :=
  encodeMap
    [(.int 1, .int p.version.toNat), (.int 2, .bytes p.orderId), (.int 3, .int p.prevVersion),
      (.int 4, .bytes p.newBlobSha256), (.int 5, .bytes p.nonce),
      (.int 6, .int p.hourBucket.toInt64.toInt)]

end TransitionPayload

/-- `verify_transition(..).is_ok()`. -/
def verifyTransition (P : Primitives) (verifyingKeyBytes : Bytes) (payload : TransitionPayload)
    (signatureBytes : Bytes) : Bool :=
  P.isVerifyingKey verifyingKeyBytes &&
    P.ed25519Verify verifyingKeyBytes payload.toCbor signatureBytes

/-- A version that fits an `i64`. -/
def IsI64 (n : Int) : Prop := -2 ^ 63 ≤ n ∧ n < 2 ^ 63

instance (n : Int) : Decidable (IsI64 n) := inferInstanceAs (Decidable (_ ∧ _))

theorem IsI64.inRange {n : Int} (h : IsI64 n) : (Item.int n).InRange := by
  obtain ⟨h1, h2⟩ := h
  constructor <;> omega

/-- **Payloads for one order with one encoding replace one version.** -/
theorem toCbor_prevVersion {p p' : TransitionPayload} (h : p.toCbor = p'.toCbor)
    (hid : p.orderId = p'.orderId) (hver : p.version = p'.version) (hp : IsI64 p.prevVersion)
    (hp' : IsI64 p'.prevVersion) : p.prevVersion = p'.prevVersion := by
  simp only [TransitionPayload.toCbor, encodeMap, List.flatMap_cons, List.append_assoc,
    List.length_cons, hid, hver] at h
  -- everything up to the key of `prev_version` is the same on both sides
  have h := List.append_cancel_left h
  have h := List.append_cancel_left h
  have h := List.append_cancel_left h
  have h := List.append_cancel_left h
  have h := List.append_cancel_left h
  have h := List.append_cancel_left h
  exact Item.int.inj (encode_append_inj hp.inRange hp'.inRange h).1

end TorMarketplace
