import TorMarketplace.Crypto.TransitionSig
import TorMarketplace.Frontend.Wasm

/-!
# The encoding of a transition payload

`TransitionPayload::to_cbor` (`crypto/transition_sig.rs`) and `transition_to_cbor` of the `wasm`
crate. A signature is over the encoding alone, so it matters that no two payloads have one encoding,
and that both sides compute the same (`transition_encoding`).
-/

namespace TorMarketplace

open Encoding Cbor

/-- The arguments of `TransitionPayload::new`. A `Vec<u8>` has at most `isize::MAX` bytes. -/
structure TransitionFields where
  orderId : Bytes
  orderId_lt : orderId.length < 2 ^ 63
  prevVersion : Int64
  newBlobSha256 : Bytes
  hash_length : newBlobSha256.length = 32
  nonce : Bytes
  nonce_lt : nonce.length < 2 ^ 63
  hourBucket : UInt64

namespace TransitionFields

def payload (f : TransitionFields) : TransitionPayload :=
  TransitionPayload.new f.orderId f.prevVersion.toInt f.newBlobSha256 f.nonce f.hourBucket

/-- The entries of the map, in the order of their keys. -/
def entries (f : TransitionFields) : List (Item × Item) :=
  [(.int 1, .int transitionSigVersion.toNat), (.int 2, .bytes f.orderId),
    (.int 3, .int f.prevVersion.toInt), (.int 4, .bytes f.newBlobSha256), (.int 5, .bytes f.nonce),
    (.int 6, .int f.hourBucket.toInt64.toInt)]

theorem toCbor_eq (f : TransitionFields) : f.payload.toCbor = encodeMap f.entries := rfl

/-- The client builds the same map. -/
theorem transitionToCbor_eq (f : TransitionFields) :
    Wasm.transitionToCbor f.orderId f.prevVersion f.newBlobSha256 f.nonce f.hourBucket =
      .ok f.payload.toCbor := by
  unfold Wasm.transitionToCbor
  rw [if_neg (by simp [f.hash_length])]
  rfl

theorem int64_inRange (n : Int64) : (Item.int n.toInt).InRange := by
  have hle := n.le_toInt
  have hlt := n.toInt_lt
  constructor <;> omega

/-- Every key and value has a 64-bit head. -/
theorem entries_inRange (f : TransitionFields) :
    ∀ kv ∈ f.entries, kv.1.InRange ∧ kv.2.InRange := by
  have hkey : ∀ n : Int, n ∈ [1, 2, 3, 4, 5, 6] → (Item.int n).InRange := by
    intro n hn
    simp only [List.mem_cons, List.not_mem_nil, or_false] at hn
    constructor <;> omega
  have hid := f.orderId_lt
  have hnonce := f.nonce_lt
  have hhash := f.hash_length
  have hversion : (Item.int transitionSigVersion.toNat).InRange := hkey 1 (by simp)
  unfold entries
  intro kv hkv
  simp only [List.mem_cons, List.not_mem_nil, or_false] at hkv
  rcases hkv with rfl | rfl | rfl | rfl | rfl | rfl
  · exact ⟨hkey 1 (by simp), hversion⟩
  · exact ⟨hkey 2 (by simp), show f.orderId.length < 2 ^ 64 by omega⟩
  · exact ⟨hkey 3 (by simp), int64_inRange _⟩
  · exact ⟨hkey 4 (by simp), show f.newBlobSha256.length < 2 ^ 64 by omega⟩
  · exact ⟨hkey 5 (by simp), show f.nonce.length < 2 ^ 64 by omega⟩
  · exact ⟨hkey 6 (by simp), int64_inRange _⟩

/-- **The encoding determines the payload.** The hour goes through a wrapping cast, which loses
nothing. -/
theorem payload_eq {f f' : TransitionFields} (h : f.payload.toCbor = f'.payload.toCbor) :
    f.payload = f'.payload := by
  rw [toCbor_eq, toCbor_eq] at h
  have hlen : f.entries.length = f'.entries.length := rfl
  have hentries := encodeMap_inj hlen f.entries_inRange f'.entries_inRange h
  simp only [entries, List.cons.injEq, Prod.mk.injEq, Item.bytes.injEq, Item.int.injEq, true_and,
    and_true] at hentries
  obtain ⟨hid, hversion, hhash, hnonce, hhour⟩ := hentries
  have hcast : f.hourBucket.toInt64 = f'.hourBucket.toInt64 := Int64.toInt_inj.mp hhour
  have hbucket : f.hourBucket = f'.hourBucket := congrArg Int64.toUInt64 hcast
  rw [payload, payload, hid, hversion, hhash, hnonce, hbucket]

end TransitionFields

/-- **Transition payloads have one encoding each, and both sides compute it**: payloads with equal
CBOR are equal, and the client's encoder returns the server's bytes for the same fields. -/
theorem transition_encoding :
    (∀ f f' : TransitionFields, f.payload.toCbor = f'.payload.toCbor → f.payload = f'.payload) ∧
      ∀ f : TransitionFields,
        Wasm.transitionToCbor f.orderId f.prevVersion f.newBlobSha256 f.nonce f.hourBucket =
          .ok f.payload.toCbor :=
  ⟨fun _ _ => TransitionFields.payload_eq, TransitionFields.transitionToCbor_eq⟩

end TorMarketplace
