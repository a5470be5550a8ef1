import TorMarketplace.Frontend.Api
import TorMarketplace.Proof.EcdhBlobs
import TorMarketplace.WorkerKeys

/-!
# Which worker opens an order

The key that an order is encrypted to has come a long way: a worker has written it to a file, perhaps not all of
it, the API has read the file, perhaps while it was written, and a page has kept it, perhaps since before the last
worker was started. `KeyConfig.Reaches.posted` follows a posted order back along that way (a post, a cache, a
reading, a write), each hop by what the program that made the call asks (`program_asks`) and by where the state comes
from (`file_written`, `cache_seen`).

At its end is the operator's key, or that of a worker which has been started (`posted_orders_open`).
-/

namespace TorMarketplace.WorkerKeys

open Encoding Interleave Js Prog

abbrev KeySystem := Config Keys World KeyJob String Unit

abbrev KeyEvent := Event Keys World KeyJob

variable {C : KeyConfig} {allow : KeyJob → Prop} {file : Option String} {g : KeySystem}

/-! ## What the programs ask -/

/-- The page has learnt the key from its cache, or from the API when the file had these contents. -/
def Learns (C : KeyConfig) (past : List (Reply Keys)) (page : Nat) (pubkeyHex : String) : Prop :=
  ⟨.cacheGet page, some pubkeyHex⟩ ∈ past ∨
    ∃ contents, ⟨.readFile, contents⟩ ∈ past ∧ C.workerPubkey contents = some pubkeyHex

def Asks (C : KeyConfig) (j : KeyJob) (past : List (Reply Keys)) : KeyCall → Prop
  | .writeFile contents => ∃ env draw key, j = .startWorker env draw ∧ C.workerKey env draw = .ok key ∧
      contents = paymentPubkeyHexFromWorkerKey C.prim key
  | .cacheSet _ pubkeyHex => pubkeyHex = none ∨
      ∃ contents, ⟨.readFile, contents⟩ ∈ past ∧ pubkeyHex = C.workerPubkey contents
  | .post page plaintext blob => ∃ pubkeyHex ephemeralSk nonceBytes, Learns C past page pubkeyHex ∧
      nonceBytes.length = 12 ∧
      Wasm.encryptOrder C.prim ephemeralSk nonceBytes plaintext (hexToU8 (utf16 pubkeyHex)) = .ok blob
  | _ => True

theorem may_randomBytes {n : Nat} {b : Bytes} (h : machine.May (.randomBytes n) b) : b.length = n := by
  obtain ⟨e, w, w', h⟩ := h
  simp only [machine] at h
  split at h
  · rename_i hlength
    obtain ⟨rfl, _⟩ := Prod.mk.inj (Option.some.inj h)
    exact hlength
  · cases h

theorem startWorker_asks (env : WorkerEnv) (draw : ByteArr 32) :
    Spec machine.May (Asks C (.startWorker env draw)) (fun _ _ => True) [] (startWorker C env draw) := by
  unfold startWorker
  refine spec_ofExcept_bind.mpr ⟨fun _ _ => trivial, fun key hkey => ?_⟩
  split
  · refine spec_call_bind.mpr ⟨trivial, fun created _ => ?_⟩
    split
    · exact spec_call_bind.mpr ⟨⟨env, draw, key, rfl, hkey, rfl⟩, fun _ _ => trivial⟩
    · trivial
  · trivial

theorem getWorkerPubkey_asks (j : KeyJob) (page : Nat) :
    Spec machine.May (Asks C j) (OnOk fun past pubkeyHex => Learns C past page pubkeyHex) []
      (getWorkerPubkey C page) := by
  unfold getWorkerPubkey
  refine spec_call_bind.mpr ⟨trivial, fun cached _ => ?_⟩
  cases hcached : cached.filter (· ≠ "") with
  | some pubkeyHex =>
    obtain ⟨rfl, _⟩ := Option.filter_eq_some_iff.mp hcached
    exact .inl (by simp)
  | none =>
    refine spec_call_bind.mpr ⟨trivial, fun contents _ => spec_call_bind.mpr ⟨trivial, fun arrived _ =>
      spec_ensure_bind.mpr ⟨fun _ => trivial, fun _ => spec_call_bind.mpr
        ⟨.inr ⟨contents, by simp, rfl⟩, fun _ _ => spec_orFail.mpr ⟨fun _ => trivial, fun pubkeyHex hkey => ?_⟩⟩⟩⟩⟩
    exact .inr ⟨contents, by simp, (Option.filter_eq_some_iff.mp hkey).1⟩

theorem postOrder_asks (page : Nat) (plaintext : Bytes) :
    Spec machine.May (Asks C (.postOrder page plaintext)) (fun _ _ => True) [] (postOrder C page plaintext) := by
  unfold postOrder
  refine spec_seq (getWorkerPubkey_asks _ page) (fun past pubkeyHex hlearns => ?_) fun _ _ _ => trivial
  refine spec_call_bind.mpr ⟨trivial, fun ephemeralSk _ => spec_call_bind.mpr ⟨trivial, fun nonceBytes hnonce =>
    spec_ofExcept_bind.mpr ⟨fun _ _ => trivial, fun blob hblob => ?_⟩⟩⟩
  refine ⟨⟨pubkeyHex, ephemeralSk, nonceBytes, ?_, may_randomBytes hnonce, hblob⟩, fun _ _ => trivial⟩
  rcases hlearns with hcache | ⟨contents, hread, hkey⟩
  · exact .inl (by simp [hcache])
  · exact .inr ⟨contents, by simp [hread], hkey⟩

theorem program_asks (j : KeyJob) : Spec machine.May (Asks C j) (fun _ _ => True) [] (program C j) := by
  cases j with
  | startWorker env draw => exact startWorker_asks env draw
  | postOrder page plaintext => exact postOrder_asks page plaintext
  | logout page => exact ⟨.inl rfl, fun _ _ => trivial⟩

/-! ## Where the state comes from -/

/-- What a call does to the state. -/
theorem answer_cases {c : KeyCall} {e : Outcome} {w w' : World} {a : c.Ans}
    (h : machine.answer c e w = some (a, w')) :
    (w'.file = w.file ∨ w'.file = some "" ∨
      ∃ contents n, c = .writeFile contents ∧ w'.file = some (String.ofList (contents.toList.take n))) ∧
    ∀ page, w'.caches page = w.caches page ∨ c = .cacheSet page (w'.caches page) := by
  cases c with
  | createFile =>
    simp only [machine] at h
    split at h
    · obtain ⟨_, rfl⟩ := Prod.mk.inj (Option.some.inj h)
      exact ⟨.inl rfl, fun _ => .inl rfl⟩
    · obtain ⟨_, rfl⟩ := Prod.mk.inj (Option.some.inj h)
      exact ⟨.inr (.inl rfl), fun _ => .inl rfl⟩
  | writeFile contents =>
    simp only [machine] at h
    split at h
    · obtain ⟨_, rfl⟩ := Prod.mk.inj (Option.some.inj h)
      exact ⟨.inr (.inr ⟨contents, e.written, rfl, rfl⟩), fun _ => .inl rfl⟩
    · obtain ⟨_, rfl⟩ := Prod.mk.inj (Option.some.inj h)
      refine ⟨.inr (.inr ⟨contents, contents.toList.length, rfl, ?_⟩), fun _ => .inl rfl⟩
      rw [List.take_length, String.ofList_toList]
  | cacheSet page pubkeyHex =>
    obtain ⟨_, rfl⟩ := Prod.mk.inj (Option.some.inj h)
    refine ⟨.inl rfl, fun page' => ?_⟩
    by_cases hpage : page' = page
    · subst hpage
      exact .inr (by simp)
    · exact .inl (Function.update_of_ne hpage ..)
  | randomBytes n =>
    simp only [machine] at h
    split at h
    · obtain ⟨_, rfl⟩ := Prod.mk.inj (Option.some.inj h)
      exact ⟨.inl rfl, fun _ => .inl rfl⟩
    · cases h
  | _ =>
    obtain ⟨_, rfl⟩ := Prod.mk.inj (Option.some.inj h)
    exact ⟨.inl rfl, fun _ => .inl rfl⟩

/-- The file's contents: those of the beginning, nothing, or what a worker has written of its key. -/
def Written (C : KeyConfig) (file : Option String) (l : List KeyEvent) (contents : Option String) : Prop :=
  contents = file ∨ contents = some "" ∨
    ∃ ev ∈ l, ∃ env draw key n, ev.job = .startWorker env draw ∧ C.workerKey env draw = .ok key ∧
      contents = some (String.ofList ((paymentPubkeyHexFromWorkerKey C.prim key).toList.take n))

theorem Written.mono {l l' : List KeyEvent} (hsub : l ⊆ l') {contents : Option String}
    (h : Written C file l contents) : Written C file l' contents := by
  rcases h with h | h | ⟨ev, hev, h⟩
  · exact .inl h
  · exact .inr (.inl h)
  · exact .inr (.inr ⟨ev, hsub hev, h⟩)

theorem KeyConfig.Reaches.file_written (h : C.Reaches allow file g) : Written C file g.history g.shared.file := by
  by_cases hfirst : g.shared.file = file
  · exact .inl hfirst
  by_cases hempty : g.shared.file = some ""
  · exact .inr (.inl hempty)
  obtain ⟨ev, hev, contents, n, hcall, hfile⟩ := Reachable.made_by (K := fun w => w.file = g.shared.file)
    (E := fun r => ∃ contents n, r.1 = KeyCall.writeFile contents ∧
      g.shared.file = some (String.ofList (contents.toList.take n)))
    h (Ne.symm hfirst) (fun ha hK => by
      rcases (answer_cases ha).1 with hsame | hnone | ⟨contents, n, rfl, hfile⟩
      · exact .inl (hsame ▸ hK)
      · exact absurd (hK.symm.trans hnone) hempty
      · exact .inr ⟨contents, n, rfl, hK ▸ hfile⟩) rfl
  have hasks := (Reachable.event (fun _ j _ => program_asks j) h ev hev).1
  rw [hcall] at hasks
  obtain ⟨env, draw, key, hjob, hkey, rfl⟩ := hasks
  exact .inr (.inr ⟨ev, hev, env, draw, key, n, hjob, hkey, hfile⟩)

/-- What a page has kept has been put there. -/
theorem KeyConfig.Reaches.cache_seen (h : C.Reaches allow file g) {l l' : List KeyEvent} {ev : KeyEvent}
    (hl : g.history = l ++ ev :: l') {page : Nat} {pubkeyHex : String}
    (hget : ⟨KeyCall.cacheGet page, some pubkeyHex⟩ ∈ ev.past) :
    ∃ e ∈ l, e.reply.1 = KeyCall.cacheSet page (some pubkeyHex) :=
  Reachable.shown_made_by (K := fun w => w.caches page = some pubkeyHex)
    (E := fun r => r.1 = KeyCall.cacheSet page (some pubkeyHex)) h hl hget
    (fun ha => (Prod.mk.inj (Option.some.inj ha)).1) (by simp)
    (fun ha hK => ((answer_cases ha).2 page).imp (fun hsame => hsame ▸ hK) fun hset => hset.trans (by rw [hK]))

/-! ## The way of a key -/

/-- What a process has read of the file was in it. -/
theorem KeyConfig.Reaches.read_written (h : C.Reaches allow file g) {ev : KeyEvent} (hev : ev ∈ g.history)
    {contents : Option String} (hread : ⟨KeyCall.readFile, contents⟩ ∈ ev.past) :
    contents = none ∨ Written C file g.history contents := by
  obtain ⟨l, l', hl⟩ := List.append_of_mem hev
  obtain ⟨g₀, e, w, hg₀, hsub, ha⟩ := Reachable.answered_in h hl hread
  obtain ⟨rfl, _⟩ := Prod.mk.inj (Option.some.inj ha)
  by_cases hfault : e.fault = true
  · exact .inl (if_pos hfault)
  · rw [if_neg hfault]
    exact .inr ((KeyConfig.Reaches.file_written hg₀).mono (List.Subset.trans hsub (hl ▸ List.subset_append_left _ _)))

/-- A key that a page uses is one that the API has made of the file, once. -/
theorem KeyConfig.Reaches.learnt (h : C.Reaches allow file g) {ev : KeyEvent} (hev : ev ∈ g.history) {page : Nat}
    {pubkeyHex : String} (hlearns : Learns C ev.past page pubkeyHex) :
    ∃ contents, (contents = none ∨ Written C file g.history contents) ∧
      C.workerPubkey contents = some pubkeyHex := by
  rcases hlearns with hcache | ⟨contents, hread, hkey⟩
  · obtain ⟨l, l', hl⟩ := List.append_of_mem hev
    -- the page has kept it since an earlier fetch
    obtain ⟨set, hset, hcall⟩ := h.cache_seen hl hcache
    have hset : set ∈ g.history := by simp [hl, hset]
    have hasks := (Reachable.event (fun _ j _ => program_asks j) h set hset).1
    rw [hcall] at hasks
    rcases hasks with hnone | ⟨contents, hread, hkey⟩
    · exact absurd hnone (by simp)
    · exact ⟨contents, h.read_written hset hread, hkey.symm⟩
  · exact ⟨contents, h.read_written hev hread, hkey⟩

/-- The worker with this key opens the blob, to the plaintext. -/
def Opens (C : KeyConfig) (key : ByteArr 32) (plaintext blob : Bytes) : Prop :=
  decryptEcdhBlob C.prim blob (deriveDomainKey C.prim key.val "payment-decrypt") = some plaintext

theorem utf16_hexNibble : ∀ n < 16, (hexNibble (UInt8.ofNat n)).toNat < 0x10000 ∧
    (hexNibble (UInt8.ofNat n)).toNat.toUInt16 = (hexNibble (UInt8.ofNat n)).toNat.toUInt8.toUInt16 := by
  decide +kernel

theorem utf16_hexEncode (b : Bytes) : utf16 (hexEncode b) = u8ToHex b := by
  have hdigits := hexDigits_hexEncode b
  have hascii : utf8 (hexEncode b) = (hexEncode b).toList.map fun c => c.toNat.toUInt8 := by
    rw [← utf8_ascii fun c hc => ?_, String.ofList_toList]
    obtain ⟨n, hn, rfl⟩ := hdigits c hc
    exact hexNibble_ascii n hn
  rw [utf16, u8ToHex, ascii, hascii, List.map_map, List.map_eq_flatMap]
  refine List.flatMap_congr fun c hc => ?_
  obtain ⟨n, hn, rfl⟩ := hdigits c hc
  rw [if_pos (utf16_hexNibble n hn).1, (utf16_hexNibble n hn).2]
  rfl

/-- **What is encrypted to a worker's payment key, the worker opens.** -/
theorem opens_of_encrypt (hP : EcdhLaws C.prim) {key : ByteArr 32} {ephemeralSk nonceBytes plaintext blob : Bytes}
    (hnonce : nonceBytes.length = 12) (h : Wasm.encryptOrder C.prim ephemeralSk nonceBytes plaintext
      (hexToU8 (utf16 (paymentPubkeyHexFromWorkerKey C.prim key))) = .ok blob) :
    Opens C key plaintext blob := by
  have hpk : (x25519PublicKey C.prim (deriveDomainKey C.prim key.val "payment-decrypt")).length = 32 :=
    hP.length _ _
  rw [paymentPubkeyHexFromWorkerKey, utf16_hexEncode, hexToU8_u8ToHex, Wasm.encryptOrder_eq _ _ _ hpk] at h
  split at h
  · rename_i blob' hblob
    obtain rfl := Except.ok.inj h
    exact decrypt_encryptEcdhBlob hP hnonce hblob
  · cases h

/-! ## Who opens an order -/

/-- The key of a worker that has been started. -/
def Started (C : KeyConfig) (g : KeySystem) (key : ByteArr 32) : Prop :=
  ∃ p ∈ g.procs, ∃ env draw, p.job = .startWorker env draw ∧ C.workerKey env draw = .ok key

/-- The payment key that an order is encrypted to. -/
theorem KeyConfig.Reaches.posted (hP : EcdhLaws C.prim) (h : C.Reaches allow file g)
    (hstale : readDevPubkeyFile file = none) {ev : KeyEvent} (hev : ev ∈ g.history) {page : Nat}
    {plaintext blob : Bytes} (hpost : ev.reply.1 = KeyCall.post page plaintext blob) :
    (C.given = none → ∃ key, Started C g key ∧ Opens C key plaintext blob) ∧
      ∀ key, (∀ pubkeyHex, C.given = some pubkeyHex → pubkeyHex = paymentPubkeyHexFromWorkerKey C.prim key) →
        (∀ key', Started C g key' → key' = key) → Opens C key plaintext blob := by
  have hasks := (Reachable.event (fun _ j _ => program_asks j) h ev hev).1
  rw [hpost] at hasks
  obtain ⟨pubkeyHex, ephemeralSk, nonceBytes, hlearns, hnonce, hencrypt⟩ := hasks
  obtain ⟨contents, hcontents, hkey⟩ := h.learnt hev hlearns
  have hsource : C.given.or (readDevPubkeyFile contents) = some pubkeyHex := by
    rw [← hkey, KeyConfig.given, KeyConfig.workerPubkey, resolveWorkerPaymentPubkey, Option.or_assoc]
  -- without the operator's key it is in the file
  have hstarted : C.given = none → ∃ key, Started C g key ∧ pubkeyHex = paymentPubkeyHexFromWorkerKey C.prim key := by
    intro hgiven
    rw [hgiven, Option.none_or] at hsource
    rcases hcontents with rfl | rfl | rfl | ⟨worker, hworker, env, draw, key, n, hjob, hok, rfl⟩
    · cases hsource
    · exact absurd (hstale.symm.trans hsource) (by simp)
    · have hempty : readDevPubkeyFile (some "") = none := by decide +kernel
      exact absurd (hempty.symm.trans hsource) (by simp)
    · obtain ⟨p, hp, hpjob⟩ := Reachable.event_job h worker hworker
      refine ⟨key, ⟨p, List.mem_of_getElem? hp, env, draw, hpjob.trans hjob, hok⟩, ?_⟩
      have hpk : (x25519PublicKey C.prim (deriveDomainKey C.prim key.val "payment-decrypt")).length = 32 :=
        hP.length _ _
      rw [paymentPubkeyHexFromWorkerKey, readDevPubkeyFile_take hpk] at hsource
      split at hsource
      · exact (Option.some.inj hsource).symm
      · cases hsource
  refine ⟨fun hgiven => ?_, fun key hgivenKey honly => ?_⟩
  · obtain ⟨key, hstartedKey, rfl⟩ := hstarted hgiven
    exact ⟨key, hstartedKey, opens_of_encrypt hP hnonce hencrypt⟩
  · suffices hpubkey : pubkeyHex = paymentPubkeyHexFromWorkerKey C.prim key from
      opens_of_encrypt hP hnonce (hpubkey ▸ hencrypt)
    cases hgiven : C.given with
    | some k =>
      rw [hgiven, Option.some_or] at hsource
      exact (Option.some.inj hsource).symm.trans (hgivenKey k hgiven)
    | none =>
      obtain ⟨key', hkey', rfl⟩ := hstarted hgiven
      rw [honly key' hkey']

/-- The seed is in the configuration, sealed under the KEK. -/
def Sealed (C : KeyConfig) (kek : KeyEncryptionKey) (seed : ByteArr 32) : Prop :=
  ∃ nonceBytes hexStr, encryptMasterSeed C.prim nonceBytes seed kek = some hexStr ∧ C.workerKeyHex = some hexStr

namespace KeySample

open EcdhSample

def kek : KeyEncryptionKey := ⟨⟨List.replicate 32 0x33, rfl⟩⟩

def seed : ByteArr 32 := ⟨List.replicate 32 7, rfl⟩

def sealNonce : ByteArr 12 := ⟨List.replicate 12 4, rfl⟩

def sealedSeed : Bytes := List.replicate 48 9

def tables : Primitives.Tables where
  hmacSha256 := [((seed.val, utf8 "domain:payment-decrypt"), sk)]
  hkdfSha256 := EcdhSample.tables.hkdfSha256
  chacha := [((key, nonce, ciphertext), [1, 2, 3]), ((kek.key.val, sealNonce.val, sealedSeed), seed.val)]

def prim : Primitives := { Primitives.ofTables tables with x25519 := x25519 }

theorem laws : EcdhLaws prim where
  length := EcdhSample.laws.length
  comm := EcdhSample.laws.comm
  refuses_short k n c h := by
    change tables.chacha.lookup (k, n, c) = none
    have hc : c ≠ ciphertext := fun hc => absurd (hc ▸ h) (by decide +kernel)
    have hs : c ≠ sealedSeed := fun hc => absurd (hc ▸ h) (by decide +kernel)
    have hb : ((k, n, c) == (key, nonce, ciphertext)) = false :=
      beq_false_of_ne fun he => hc (Prod.mk.inj (Prod.mk.inj he).2).2
    have hb' : ((k, n, c) == (kek.key.val, sealNonce.val, sealedSeed)) = false :=
      beq_false_of_ne fun he => hs (Prod.mk.inj (Prod.mk.inj he).2).2
    simp [tables, List.lookup_cons, hb, hb']

def workerKeyHex : String := hexEncode (EncryptedBlob.toVec ⟨sealedSeed, sealNonce, 2⟩)

/-- The seed is in the configuration, and no payment key is. -/
def config : KeyConfig where
  prim := prim
  workerKeyHex := some workerKeyHex
  workerPaymentPubkeyHex := none
  envPubkeyHex := some " "

theorem sealed : Sealed config kek seed := by
  have hencrypt : prim.chachaEncrypt kek.key.val sealNonce.val seed.val = some sealedSeed := by decide +kernel
  refine ⟨sealNonce, workerKeyHex, ?_, rfl⟩
  simp only [encryptMasterSeed, EncryptedBlob.encrypt, config, hencrypt, Option.map_some, workerKeyHex]

/-- Every worker has the KEK. -/
def holdsKek (j : KeyJob) : Prop := ∀ env draw, j = .startWorker env draw → loadKek env.kekHex = .ok kek

def env : WorkerEnv := ⟨some (hexEncode kek.key.val), true⟩

/-- A worker is started, which writes its payment key to the file, and then a page posts an order. -/
def labels : List (Label KeyJob Outcome) :=
  [.spawn (.startWorker env seed), .act 0 {}, .act 0 {}, .spawn (.postOrder 0 [1, 2, 3]), .act 1 {}, .act 1 {},
    .act 1 {}, .act 1 {}, .act 1 { bytes := ephemeralSk }, .act 1 { bytes := nonce }, .act 1 {}]

/-- The last call has posted the order. -/
def posts (g : KeySystem) : Bool :=
  g.history.getLast?.any fun ev => ev.reply.1 = KeyCall.post 0 [1, 2, 3] (ephemeralPk ++ nonce ++ ciphertext)

theorem run_posts :
    (Config.run machine (program config) labels ⟨⟨none, fun _ => none⟩, [], []⟩).any posts = true := by
  decide +kernel

end KeySample

end TorMarketplace.WorkerKeys
