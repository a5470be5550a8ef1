import TorMarketplace.Crypto.Keys
import TorMarketplace.Gateway.StatelessAuth

/-!
# Key separation

Every key and identity of the program is an HMAC of a label and some arguments, joined without
lengths. No two derivations have one input (`key_separation`): their labels are not a beginning of one
another, and where two derivations have the same label (an order key, and a hop key, which is made as
the order key of a longer string) the lengths differ.
-/

namespace TorMarketplace

open Encoding

/-- A byte string of a fixed length. -/
abbrev BytesOf (n : Nat) := { b : Bytes // b.length = n }

/-- One key derivation with its arguments. -/
inductive Derivation where
  /-- `derive_order_key` of `oblivious.rs`. -/
  | orderBlobKey (orderId : Bytes)
  /-- `derive_listing_key`. -/
  | listingBlobKey (listingId : Bytes)
  /-- `escrow::derive_order_key`. -/
  | orderKey (orderId : BytesOf 16)
  | hopKey (chainSeed : Bytes) (i : UInt64)
  | domainKey (domain : String)
  | authKey (pubkey : BytesOf 32)
  | domainIdentity (domain : IdentityDomain) (pubkeyHash : BytesOf 32)

namespace Derivation

/-- The key or identity under a root secret. The auth keys have one that is text. -/
def derive (P : Primitives) (root : Bytes) : Derivation → Option Bytes
  | orderBlobKey id => some (deriveOrderKey P root id)
  | listingBlobKey id => some (deriveListingKey P root id)
  | orderKey id => Escrow.deriveOrderKey P root id
  | hopKey chainSeed i => TorMarketplace.hopKey P root chainSeed i
  | domainKey domain => some (deriveDomainKey P root domain)
  | authKey pubkey => (ofUtf8 root).map fun secret => deriveAuthKey P secret pubkey
  | domainIdentity domain hash => some (deriveDomainIdentity P root domain.bytes hash)

/-- The label that the derivation hashes first. -/
def label : Derivation → String
  | orderBlobKey _ => "oblivious-order-v1"
  | listingBlobKey _ => "oblivious-listing-v1"
  | orderKey _ => "order:"
  | hopKey .. => "order:"
  | domainKey _ => "domain:"
  | authKey _ => "auth_key_derivation_v1"
  | domainIdentity .. => "domain-identity-v1"

/-- What it hashes after the label. -/
def argument : Derivation → Bytes
  | orderBlobKey id => id
  | listingBlobKey id => id
  | orderKey id => id
  | hopKey chainSeed i => utf8 "coinswap:" ++ chainSeed ++ leBytes i
  | domainKey domain => utf8 domain
  | authKey pubkey => pubkey
  | domainIdentity domain hash => domain.bytes ++ hash

def hmacInput (d : Derivation) : Bytes := utf8 d.label ++ d.argument

end Derivation

theorem secretKeyFromSlice_eq {b k : Bytes} (h : secretKeyFromSlice b = some k) : k = b := by
  unfold secretKeyFromSlice at h
  split at h
  · exact (Option.some.inj h).symm
  · exact absurd h (by simp)

/-- **Every key is the HMAC of the derivation's input.** -/
theorem Derivation.derive_eq {P : Primitives} {root : Bytes} {d : Derivation} {k : Bytes}
    (h : d.derive P root = some k) : k = P.hmacSha256 root d.hmacInput := by
  cases d with
  | orderBlobKey id => exact (Option.some.inj h).symm
  | listingBlobKey id => exact (Option.some.inj h).symm
  | orderKey id => exact secretKeyFromSlice_eq h
  | hopKey chainSeed i => exact secretKeyFromSlice_eq h
  | domainKey domain => exact (Option.some.inj h).symm
  | authKey pubkey =>
    obtain ⟨secret, hsecret, rfl⟩ := Option.map_eq_some_iff.mp h
    rw [deriveAuthKey, utf8_ofUtf8 hsecret]
    rfl
  | domainIdentity domain hash =>
    rw [← Option.some.inj h, deriveDomainIdentity, hmacInput, label, argument, List.append_assoc]

/-! ## Separation -/

/-- The labels of the program. -/
def keyLabels : List String :=
  ["oblivious-order-v1", "oblivious-listing-v1", "order:", "domain:", "auth_key_derivation_v1",
    "domain-identity-v1"]

theorem Derivation.label_mem (d : Derivation) : d.label ∈ keyLabels := by
  cases d <;> simp [label, keyLabels]

/-- No label is the beginning of another one. -/
theorem keyLabels_incomparable : ∀ l ∈ keyLabels, ∀ l' ∈ keyLabels, utf8 l <+: utf8 l' → l = l' := by
  decide +kernel

/-- **Equal inputs have equal labels.** -/
theorem Derivation.label_eq {d d' : Derivation} (h : d.hmacInput = d'.hmacInput) :
    d.label = d'.label := by
  have hd : utf8 d.label <+: d'.hmacInput := h ▸ List.prefix_append (utf8 d.label) d.argument
  have hd' : utf8 d'.label <+: d'.hmacInput := List.prefix_append (utf8 d'.label) d'.argument
  rcases Nat.le_total (utf8 d.label).length (utf8 d'.label).length with hle | hle
  · exact keyLabels_incomparable _ d.label_mem _ d'.label_mem
      (List.prefix_of_prefix_length_le hd hd' hle)
  · exact (keyLabels_incomparable _ d'.label_mem _ d.label_mem
      (List.prefix_of_prefix_length_le hd' hd hle)).symm

theorem IdentityDomain.bytes_inj {d d' : IdentityDomain} (h : d.bytes = d'.bytes) : d = d' := by
  have hall : ∀ d ∈ [orders, chat, disputes, auth, admin],
      ∀ d' ∈ [orders, chat, disputes, auth, admin], d.bytes = d'.bytes → d = d' := by decide +kernel
  have hmem : ∀ d, d ∈ [orders, chat, disputes, auth, admin] := fun d => by cases d <;> simp
  exact hall d (hmem d) d' (hmem d') h

/-- A hop key's order id is longer than an order id. -/
theorem orderKey_ne_hopKey {id : BytesOf 16} {chainSeed : Bytes} {i : UInt64} :
    (Derivation.orderKey id).argument ≠ (Derivation.hopKey chainSeed i).argument := by
  intro h
  have hlen := congrArg List.length h
  have hcoinswap : (utf8 "coinswap:").length = 9 := by decide +kernel
  simp only [Derivation.argument, id.2, List.length_append, hcoinswap, leBytes_length] at hlen
  omega

/-- **No two derivations have one input.** -/
theorem Derivation.hmacInput_inj {d d' : Derivation} (h : d.hmacInput = d'.hmacInput) : d = d' := by
  have hlabel := label_eq h
  have harg : d.argument = d'.argument := by
    unfold hmacInput at h
    rw [hlabel] at h
    exact List.append_cancel_left h
  cases d with
  | orderBlobKey id =>
    cases d' with
    | orderBlobKey id' => exact congrArg orderBlobKey harg
    | _ => exact absurd hlabel (by simp [label])
  | listingBlobKey id =>
    cases d' with
    | listingBlobKey id' => exact congrArg listingBlobKey harg
    | _ => exact absurd hlabel (by simp [label])
  | orderKey id =>
    cases d' with
    | orderKey id' => exact congrArg orderKey (Subtype.ext harg)
    | hopKey chainSeed i => exact absurd harg orderKey_ne_hopKey
    | _ => exact absurd hlabel (by simp [label])
  | hopKey chainSeed i =>
    cases d' with
    | orderKey id => exact absurd harg.symm orderKey_ne_hopKey
    | hopKey chainSeed' i' =>
      -- the index is the last eight bytes
      obtain ⟨hseed, hi⟩ := List.append_inj' harg (by simp)
      rw [List.append_cancel_left hseed, leBytes_inj hi]
    | _ => exact absurd hlabel (by simp [label])
  | domainKey domain =>
    cases d' with
    | domainKey domain' => exact congrArg domainKey (utf8_inj harg)
    | _ => exact absurd hlabel (by simp [label])
  | authKey pubkey =>
    cases d' with
    | authKey pubkey' => exact congrArg authKey (Subtype.ext harg)
    | _ => exact absurd hlabel (by simp [label])
  | domainIdentity domain hash =>
    cases d' with
    | domainIdentity domain' hash' =>
      -- the hash is the last 32 bytes
      obtain ⟨hdomain, hhash⟩ := List.append_inj' harg (by rw [hash.2, hash'.2])
      rw [IdentityDomain.bytes_inj hdomain, Subtype.ext hhash]
    | _ => exact absurd hlabel (by simp [label])

/-- **Key separation**: every key is the HMAC of its derivation's input under the root secret, and two
derivations with one input are the same derivation with the same arguments. -/
theorem key_separation :
    (∀ P root (d : Derivation) k, d.derive P root = some k → k = P.hmacSha256 root d.hmacInput) ∧
      ∀ d d' : Derivation, d.hmacInput = d'.hmacInput → d = d' :=
  ⟨fun _ _ _ _ => Derivation.derive_eq, fun _ _ => Derivation.hmacInput_inj⟩

end TorMarketplace
