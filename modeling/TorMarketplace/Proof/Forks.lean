import TorMarketplace.Lib.Forks
import TorMarketplace.Services.Payments.Btc
import TorMarketplace.Services.Payments.Xmr

/-!
# What the fork checks notice

Both clients are detectors in the sense of `Lib/Forks.lean`. Each has a blind spot: the Monero client
never looks at a tip of the height it remembers, the Bitcoin client looks at no other one
(`fork_detection_complete_iff`). After a mismatch at the remembered height the Monero client
remembers a block that no chain has; as long as it meets none, it tracks the tip and settles
(`fork_tracker_settles`).
-/

namespace TorMarketplace

open Forks Interleave Json Prog Serde

/-! ## Nodes that answer -/

/-- A Monero node whose replies are those of a chain. -/
structure MoneroNode where
  node : Node
  view : View String
  height : ∀ s, MoneroViewOnlyClient.getHeight.run node s = some (.ok view.tip, s)
  hash : ∀ h ≤ view.tip, ∀ s,
    (MoneroViewOnlyClient.getBlockHash h).run node s = some (.ok (view.hash h), s)

/-- A Bitcoin node whose replies are those of a chain. -/
structure BitcoinNode where
  node : Node
  view : View String
  height : ∀ s, BitcoinClient.getBlockHeight.run node s = some (.ok view.tip, s)
  hash : ∀ h ≤ view.tip, ∀ s,
    (BitcoinClient.getBlockHash h).run node s = some (.ok (view.hash h), s)

/-- What a Monero node replies that shows `v`, and `result` for an address. -/
def moneroReplies (v : View String) (result : String → Value) : Node := fun method params =>
  if method = "get_height" then some (reply (object [("height", .int v.tip.toNat)]))
  else if method = "get_address_txs" then
    (readString (index params "address")).map fun address => reply (result address)
  else (readU64 (index params "height")).map fun h => reply (ofString (v.hash h))

theorem index_object {name : String} (v : Value) : index (object [(name, v)]) name = v := by
  rw [index, member_object (by simp) List.mem_cons_self, Option.getD_some]

theorem monero_height {v : View String} {result : String → Value} (s : MoneroMemory) :
    MoneroViewOnlyClient.getHeight.run (moneroReplies v result) s = some (.ok v.tip, s) := by
  have hreply : moneroReplies v result "get_height" .null =
      some (reply (object [("height", .int v.tip.toNat)])) := if_pos rfl
  rw [NodeClient.run, MoneroViewOnlyClient.getHeight, solo_bind_ok (rpcCall_run hreply), index_object,
    readU64_toNat]
  rfl

theorem monero_hash {v : View String} {result : String → Value} (h : UInt64) (s : MoneroMemory) :
    (MoneroViewOnlyClient.getBlockHash h).run (moneroReplies v result) s =
      some (.ok (v.hash h), s) := by
  have hreply : moneroReplies v result "get_block_hash" (object [("height", .int h.toNat)]) =
      some (reply (ofString (v.hash h))) := by
    rw [moneroReplies, if_neg (by decide), if_neg (by decide), index_object, readU64_toNat]
    rfl
  rw [NodeClient.run, MoneroViewOnlyClient.getBlockHash, solo_bind_ok (rpcCall_run hreply),
    roundTrip_string.read]
  rfl

/-- A Monero node that shows `v`. -/
def MoneroNode.ofView (v : View String) : MoneroNode where
  node := moneroReplies v fun _ => .null
  view := v
  height := monero_height
  hash h _ := monero_hash h

theorem readR_object {α : Type} {read : Value → Option α} {v : Value} {a : α} (h : read v = some a) :
    BitcoinClient.readR read (object [("result", v)]) = some a := by
  refine some_bind (source_object 1 _) ?_
  rw [Source.field, Source.given_map (by simp) rfl]
  exact h

/-- What a Bitcoin node replies that shows `v` and lists `txs`, with the second `result` that the
client reads. -/
def bitcoinReplies (v : View String) (txs : Value) : Node := fun method params =>
  if method = "getblockcount" then some (reply (object [("result", .int v.tip.toNat)]))
  else if method = "listtransactions" then some (reply (object [("result", txs)]))
  else ((((asArray params).bind List.head?).bind readU64).map fun h =>
    reply (object [("result", ofString (v.hash h))]))

theorem bitcoin_height {v : View String} {txs : Value} (s : BitcoinMemory) :
    BitcoinClient.getBlockHeight.run (bitcoinReplies v txs) s = some (.ok v.tip, s) := by
  have hreply : bitcoinReplies v txs "getblockcount" .null =
      some (reply (object [("result", .int v.tip.toNat)])) := if_pos rfl
  rw [NodeClient.run, BitcoinClient.getBlockHeight, BitcoinClient.btcRpcCall,
    solo_bind_ok (rpcCall_run hreply), readR_object (readU64_toNat v.tip)]
  rfl

theorem bitcoin_hash {v : View String} {txs : Value} (h : UInt64) (s : BitcoinMemory) :
    (BitcoinClient.getBlockHash h).run (bitcoinReplies v txs) s = some (.ok (v.hash h), s) := by
  have hreply : bitcoinReplies v txs "getblockhash" (.arr [.int h.toNat]) =
      some (reply (object [("result", ofString (v.hash h))])) := by
    rw [bitcoinReplies, if_neg (by decide), if_neg (by decide), asArray, Option.bind_some,
      List.head?_cons, Option.bind_some, readU64_toNat]
    rfl
  rw [NodeClient.run, BitcoinClient.getBlockHash, BitcoinClient.btcRpcCall,
    solo_bind_ok (rpcCall_run hreply), readR_object (roundTrip_string.read (v.hash h))]
  rfl

/-- A Bitcoin node that shows `v`. -/
def BitcoinNode.ofView (v : View String) : BitcoinNode where
  node := bitcoinReplies v .null
  view := v
  height := bitcoin_height
  hash h _ := bitcoin_hash h

/-- The verdict of a check at `node`, and what is remembered after it. A check that fails says
nothing. -/
def checkAt {S : Type} (x : NodeClient S Bool) (node : Node) (s : S) : Bool × S :=
  match x.run node s with
  | some (.ok verdict, s') => (verdict, s')
  | some (.error _, s') => (false, s')
  | none => (false, s)

def moneroDetector : Detector String MoneroMemory MoneroNode where
  view := MoneroNode.view
  initial := .initial
  check n s := checkAt MoneroViewOnlyClient.checkForFork n.node s
  remembered s := some ⟨s.lastBlockHeight, s.lastBlockHash⟩

def bitcoinDetector : Detector String BitcoinMemory BitcoinNode where
  view := BitcoinNode.view
  initial := none
  check n s := checkAt BitcoinClient.checkForFork n.node s
  remembered s := s.map fun b => ⟨b.1, b.2⟩

/-! ## What one check does -/

/-- The check goes on where the remembered block should be, and finds another one. -/
def Mismatch (s : MoneroMemory) (v : View String) : Prop :=
  s.lastBlockHeight ≠ 0 ∧ s.lastBlockHeight < v.tip ∧ s.lastBlockHash ≠ "" ∧
    v.hash s.lastBlockHeight ≠ s.lastBlockHash

instance (s : MoneroMemory) (v : View String) : Decidable (Mismatch s v) := by
  unfold Mismatch
  infer_instance

/-- `check_for_fork` of the Monero client at a tip that is not lower than the remembered one. -/
def MoneroMemory.advance (v : View String) (s : MoneroMemory) : Bool × MoneroMemory :=
  if Mismatch s v then (true, { s with lastBlockHash := v.hash v.tip, forkDetected := true })
  else (false, { s with lastBlockHeight := v.tip, lastBlockHash := v.hash v.tip })

/-- `check_for_fork` of the Monero client, by what the node shows. -/
def MoneroMemory.next (v : View String) (s : MoneroMemory) : Bool × MoneroMemory :=
  if s.lastBlockHeight ≠ 0 ∧ v.tip < s.lastBlockHeight then (true, ⟨v.tip, v.hash v.tip, true⟩)
  else s.advance v

/-- `check_for_fork` of the Bitcoin client, by what the node shows. -/
def BitcoinMemory.next (v : View String) (s : BitcoinMemory) : Bool × BitcoinMemory :=
  (s.any fun b => b.1 = v.tip && b.2 ≠ v.hash v.tip, some (v.tip, v.hash v.tip))

theorem monero_checkForFork_run (n : MoneroNode) (s : MoneroMemory) :
    MoneroViewOnlyClient.checkForFork.run n.node s =
      some (.ok (s.next n.view).1, (s.next n.view).2) := by
  have hmemory : n.node.machine.answer .memory () s = some (s, s) := rfl
  have hremember : ∀ s', n.node.machine.answer (.remember s') () s = some ((), s') := fun _ => rfl
  rw [NodeClient.run, MoneroViewOnlyClient.checkForFork, solo_bind_ok (n.height s),
    solo_bind_ok (n.hash _ (UInt64.le_refl _) s), solo_bind_ok (solo_call hmemory),
    MoneroMemory.next]
  by_cases hzero : s.lastBlockHeight = 0
  · rw [if_pos hzero, solo_bind_ok (solo_call (hremember _)), if_neg (fun h => h.1 hzero),
      MoneroMemory.advance, if_neg (fun h => h.1 hzero)]
    rfl
  rw [if_neg hzero]
  by_cases hlower : n.view.tip < s.lastBlockHeight
  · rw [if_pos hlower, solo_bind_ok (solo_call (hremember _)), if_pos ⟨hzero, hlower⟩]
    rfl
  have hnext : (if s.lastBlockHeight ≠ 0 ∧ n.view.tip < s.lastBlockHeight then
      (true, ⟨n.view.tip, n.view.hash n.view.tip, true⟩) else s.advance n.view) =
        s.advance n.view := if_neg fun h => hlower h.2
  rw [if_neg hlower, hnext, MoneroMemory.advance]
  by_cases hhigher : n.view.tip > s.lastBlockHeight ∧ s.lastBlockHash ≠ ""
  · have hknown : n.node.machine.solo () (attempt (MoneroViewOnlyClient.getBlockHash
        s.lastBlockHeight) : NodeClient MoneroMemory (Except Failure String)) s =
          some (.ok (.ok (n.view.hash s.lastBlockHeight)), s) := by
      have hrun := n.hash _ (UInt64.le_of_lt hhigher.1) s
      rw [NodeClient.run] at hrun
      rw [solo_attempt, hrun]
      rfl
    rw [if_pos hhigher, solo_bind_ok hknown]
    by_cases hsplit : n.view.hash s.lastBlockHeight ≠ s.lastBlockHash
    · have hmismatch : Mismatch s n.view := ⟨hzero, hhigher.1, hhigher.2, hsplit⟩
      change n.node.machine.solo () (if decide (n.view.hash s.lastBlockHeight ≠ s.lastBlockHash) = true
        then _ else _) s = _
      rw [if_pos (decide_eq_true hsplit), solo_bind_ok (solo_call (hremember _)), if_pos hmismatch]
      rfl
    · have hmatch : ¬ Mismatch s n.view := fun h => hsplit h.2.2.2
      change n.node.machine.solo () (if decide (n.view.hash s.lastBlockHeight ≠ s.lastBlockHash) = true
        then _ else _) s = _
      rw [if_neg (by simpa using hsplit), solo_bind_ok (solo_call (hremember _)), if_neg hmatch]
      rfl
  · have hmatch : ¬ Mismatch s n.view := fun h => hhigher ⟨h.2.1, h.2.2.1⟩
    rw [if_neg hhigher, if_neg hmatch]
    change n.node.machine.solo () (call (I := Rpc MoneroMemory) _ >>= _) s = _
    rw [solo_bind_ok (solo_call (hremember _))]
    rfl

theorem bitcoin_checkForFork_run (n : BitcoinNode) (s : BitcoinMemory) :
    BitcoinClient.checkForFork.run n.node s =
      some (.ok (BitcoinMemory.next n.view s).1, (BitcoinMemory.next n.view s).2) := by
  have hmemory : n.node.machine.answer .memory () s = some (s, s) := rfl
  have hremember : ∀ s', n.node.machine.answer (.remember s') () s = some ((), s') := fun _ => rfl
  rw [NodeClient.run, BitcoinClient.checkForFork, solo_bind_ok (n.height s),
    solo_bind_ok (n.hash _ (UInt64.le_refl _) s), solo_bind_ok (solo_call hmemory),
    BitcoinMemory.next]
  rcases s with _ | ⟨cachedHeight, cachedHash⟩
  · rw [solo_bind_ok (solo_call (hremember _))]
    rfl
  · dsimp only
    by_cases hheight : cachedHeight = n.view.tip
    · subst hheight
      rw [if_pos rfl]
      by_cases hhash : cachedHash = n.view.hash n.view.tip
      · subst hhash
        rw [if_neg (not_not.mpr rfl)]
        simp [Machine.solo, pure]
      · rw [if_pos hhash, solo_bind_ok (solo_call (hremember _))]
        simp [Machine.solo, pure, hhash]
    · rw [if_neg hheight, solo_bind_ok (solo_call (hremember _))]
      simp [Machine.solo, pure, hheight]

theorem moneroDetector_check (n : MoneroNode) (s : MoneroMemory) :
    moneroDetector.check n s = s.next n.view := by
  simp only [moneroDetector, checkAt, monero_checkForFork_run]

theorem bitcoinDetector_check (n : BitcoinNode) (s : BitcoinMemory) :
    bitcoinDetector.check n s = BitcoinMemory.next n.view s := by
  simp only [bitcoinDetector, checkAt, bitcoin_checkForFork_run]

/-! ## Blind spots -/

/-- The remembered block has left the chain, and the Monero client does not look: it remembers the
height 0, or that of the tip, or a hash that is no text. -/
def MoneroBlind (s : MoneroMemory) (n : MoneroNode) : Prop :=
  ¬ n.view.Contains ⟨s.lastBlockHeight, s.lastBlockHash⟩ ∧
    (s.lastBlockHeight = 0 ∨ s.lastBlockHeight = n.view.tip ∨
      s.lastBlockHeight < n.view.tip ∧ s.lastBlockHash = "")

/-- The remembered block has left the chain, and the Bitcoin client does not look: the tip has
another height. -/
def BitcoinBlind (s : BitcoinMemory) (n : BitcoinNode) : Prop :=
  ∃ height hash, s = some (height, hash) ∧ ¬ n.view.Contains ⟨height, hash⟩ ∧ height ≠ n.view.tip

theorem MoneroMemory.next_fst (v : View String) (s : MoneroMemory) :
    (s.next v).1 = true ↔ s.lastBlockHeight ≠ 0 ∧ v.tip < s.lastBlockHeight ∨ Mismatch s v := by
  unfold next advance
  split_ifs <;> simp_all

theorem monero_detects_iff (s : MoneroMemory) (n : MoneroNode) :
    moneroDetector.Detects s n ↔ ¬ MoneroBlind s n := by
  have hdetects : moneroDetector.Detects s n ↔
      (¬ n.view.Contains ⟨s.lastBlockHeight, s.lastBlockHash⟩ → (s.next n.view).1 = true) := by
    unfold Detector.Detects
    rw [moneroDetector_check]
    exact ⟨fun h => h _ rfl, fun h b hb => by rwa [← Option.some.inj hb]⟩
  rw [hdetects, MoneroMemory.next_fst, MoneroBlind, not_and]
  refine imp_congr_right fun hleft => ?_
  rw [View.Contains, not_and] at hleft
  unfold Mismatch
  constructor
  · rintro (⟨hzero, hlower⟩ | ⟨hzero, hhigher, hhash, _⟩) (h | h | h)
    · exact hzero h
    · exact absurd hlower (h ▸ UInt64.lt_irrefl _)
    · exact absurd hlower (UInt64.lt_asymm h.1)
    · exact hzero h
    · exact absurd hhigher (h ▸ UInt64.lt_irrefl _)
    · exact hhash h.2
  · intro h
    obtain ⟨hzero, htip, hhash⟩ := by simpa only [not_or] using h
    rcases UInt64.lt_or_lt_of_ne htip with hhigher | hlower
    · exact .inr ⟨hzero, hhigher, fun he => hhash ⟨hhigher, he⟩, hleft (UInt64.le_of_lt hhigher)⟩
    · exact .inl ⟨hzero, hlower⟩

theorem bitcoin_detects_iff (s : BitcoinMemory) (n : BitcoinNode) :
    bitcoinDetector.Detects s n ↔ ¬ BitcoinBlind s n := by
  unfold Detector.Detects BitcoinBlind
  rw [bitcoinDetector_check]
  rcases s with _ | ⟨height, hash⟩
  · simp [bitcoinDetector]
  · have hverdict : (BitcoinMemory.next n.view (some (height, hash))).1 = true ↔
        height = n.view.tip ∧ hash ≠ n.view.hash n.view.tip := by
      simp [BitcoinMemory.next]
    rw [hverdict]
    constructor
    · rintro h ⟨_, _, ⟨⟩, hleft, htip⟩
      exact htip (h _ rfl hleft).1
    · intro h b hb hleft
      obtain rfl := Option.some.inj hb
      by_cases htip : height = n.view.tip
      · refine ⟨htip, fun hhash => hleft ⟨?_, ?_⟩⟩
        · exact htip ▸ UInt64.le_refl _
        · rw [hhash, ← htip]
          rfl
      · exact absurd ⟨height, hash, rfl, hleft, htip⟩ h

namespace Sample

/-- A chain of which the blocks up to height 9 are shared by all branches. -/
def chain (branch : Char) (tip : UInt64) : View String where
  tip
  hash h := String.ofList (List.replicate h.toNat (if h < 10 then 'c' else branch))

end Sample

/-- No check finds another block where the remembered one was, below the tip. -/
def NoMismatch (nodes : List MoneroNode) : Prop :=
  ∀ pre n post, nodes = pre ++ n :: post → ¬ Mismatch (moneroDetector.after pre) n.view

/-- Blocks with one hash have one height, over all the chains that are shown. -/
def HashesNameHeights (nodes : List MoneroNode) : Prop :=
  ∀ n ∈ nodes, ∀ n' ∈ nodes, ∀ h ≤ n.view.tip, ∀ h' ≤ n'.view.tip,
    n.view.hash h = n'.view.hash h' → h = h'

theorem MoneroMemory.next_tip {v : View String} {s : MoneroMemory} (h : ¬ Mismatch s v) :
    (s.next v).2.lastBlockHeight = v.tip ∧ (s.next v).2.lastBlockHash = v.hash v.tip := by
  unfold next advance
  split_ifs
  · exact ⟨rfl, rfl⟩
  · exact ⟨rfl, rfl⟩

/-- A check without a mismatch remembers the tip. -/
theorem remembered_tip {nodes : List MoneroNode} (h : NoMismatch nodes) {pre post : List MoneroNode}
    {n : MoneroNode} (hsplit : nodes = pre ++ n :: post) :
    moneroDetector.remembered (moneroDetector.after (pre ++ [n])) = some n.view.tipBlock := by
  obtain ⟨hheight, hhash⟩ := MoneroMemory.next_tip (h pre n post hsplit)
  rw [Detector.after_snoc, moneroDetector_check]
  exact congrArg some (by rw [hheight, hhash]; rfl)

theorem monero_quiet (s : MoneroMemory) (n : MoneroNode) (b : Block String)
    (hb : moneroDetector.remembered s = some b) (hon : (moneroDetector.view n).Contains b) :
    (moneroDetector.check n s).1 = false := by
  obtain rfl := Option.some.inj hb
  obtain ⟨hle, heq⟩ := hon
  rw [moneroDetector_check, Bool.eq_false_iff, Ne, MoneroMemory.next_fst]
  rintro (⟨_, hlower⟩ | ⟨_, _, _, hne⟩)
  · exact UInt64.not_lt.mpr hle hlower
  · exact hne heq

/-- **While it meets no mismatch the Monero client tracks the tip and settles.** Where hashes name
heights, a mismatch is also what ends the tracking. -/
theorem fork_tracker_settles (nodes : List MoneroNode) :
    (NoMismatch nodes → moneroDetector.Tracks nodes ∧ moneroDetector.Settles nodes) ∧
      (HashesNameHeights nodes → moneroDetector.Tracks nodes → NoMismatch nodes) := by
  refine ⟨fun h => ⟨?_, Detector.settles_of_remembers monero_quiet fun pre n post hsplit =>
    remembered_tip h hsplit⟩, fun hhashes htracks pre n post hsplit hmismatch => ?_⟩
  · intro pre post hsplit hne b hb
    obtain ⟨l, n, rfl⟩ := List.eq_nil_or_concat' pre |>.resolve_left hne
    rw [remembered_tip h (by rw [hsplit, List.append_assoc]; rfl)] at hb
    obtain rfl := Option.some.inj hb
    exact ⟨n, by simp, n.view.contains_tipBlock⟩
  · have hafter : moneroDetector.after (pre ++ [n]) =
        { moneroDetector.after pre with
          lastBlockHash := n.view.hash n.view.tip, forkDetected := true } := by
      rw [Detector.after_snoc, moneroDetector_check, MoneroMemory.next, MoneroMemory.advance,
        if_neg (fun hlower => UInt64.lt_asymm hmismatch.2.1 hlower.2), if_pos hmismatch]
    obtain ⟨m, hm, hle, hhash⟩ := htracks (pre ++ [n]) post (by rw [hsplit, List.append_assoc]; rfl)
      (by simp) _ rfl
    rw [hafter] at hle hhash
    have hmem : m ∈ nodes := by
      rw [hsplit, ← List.singleton_append, ← List.append_assoc]
      exact List.mem_append_left _ hm
    have heq := hhashes m hmem n (by rw [hsplit]; simp) _ hle _ (UInt64.le_refl _) hhash
    exact UInt64.lt_irrefl _ (heq ▸ hmismatch.2.1)

open Sample in
/-- A reorganisation to a lower tip, and the chain growing after it. -/
theorem fork_tracker_settles_sample :
    moneroDetector.Tracks
        [.ofView (chain 'a' 11), .ofView (chain 'b' 10), .ofView (chain 'b' 12)] ∧
      moneroDetector.Settles
        [.ofView (chain 'a' 11), .ofView (chain 'b' 10), .ofView (chain 'b' 12)] := by
  refine (fork_tracker_settles _).1 fun pre n post hsplit => ?_
  unfold Detector.after
  rcases pre with _ | ⟨_, _ | ⟨_, _ | ⟨_, _⟩⟩⟩
  · obtain ⟨rfl, _⟩ := List.cons_eq_cons.mp hsplit
    decide
  · simp only [List.cons_append, List.nil_append, List.cons.injEq] at hsplit
    obtain ⟨rfl, rfl, _⟩ := hsplit
    simp only [List.foldl_cons, List.foldl_nil, moneroDetector_check]
    decide
  · simp only [List.cons_append, List.nil_append, List.cons.injEq] at hsplit
    obtain ⟨rfl, rfl, rfl, _⟩ := hsplit
    simp only [List.foldl_cons, List.foldl_nil, moneroDetector_check]
    decide
  · simp at hsplit

open Sample in
/-- After a reorganisation to a higher tip, the remembered block is on neither chain, and every check
says fork, however long the chain stays as it is. -/
theorem fork_reported_forever :
    ¬ moneroDetector.Tracks [.ofView (chain 'a' 10), .ofView (chain 'b' 11)] ∧
      ∀ k, moneroDetector.verdicts .initial
        (.ofView (chain 'a' 10) :: List.replicate k (.ofView (chain 'b' 11))) =
          false :: List.replicate k true := by
  have hfirst : moneroDetector.check (.ofView (chain 'a' 10)) .initial =
      (false, ⟨10, (chain 'a' 10).hash 10, false⟩) := moneroDetector_check _ _
  have hsecond : moneroDetector.check (.ofView (chain 'b' 11)) ⟨10, (chain 'a' 10).hash 10, false⟩ =
      (true, ⟨10, (chain 'b' 11).hash 11, true⟩) := by
    rw [moneroDetector_check]
    decide
  have hagain : moneroDetector.check (.ofView (chain 'b' 11)) ⟨10, (chain 'b' 11).hash 11, true⟩ =
      (true, ⟨10, (chain 'b' 11).hash 11, true⟩) := by
    rw [moneroDetector_check]
    decide
  have hforever : ∀ k, moneroDetector.verdicts ⟨10, (chain 'b' 11).hash 11, true⟩
      (List.replicate k (.ofView (chain 'b' 11))) = List.replicate k true := by
    intro k
    induction k with
    | zero => rfl
    | succ k ih => rw [List.replicate_succ, Detector.verdicts, hagain, ih, List.replicate_succ]
  have hafter : moneroDetector.after [.ofView (chain 'a' 10), .ofView (chain 'b' 11)] =
      ⟨10, (chain 'b' 11).hash 11, true⟩ := by
    change (moneroDetector.check _ (moneroDetector.check _ .initial).2).2 = _
    rw [hfirst, hsecond]
  constructor
  · intro htracks
    obtain ⟨m, hm, _, hhash⟩ := htracks _ [] (List.append_nil _).symm (by simp) _ rfl
    rw [hafter] at hhash
    simp only [List.mem_cons, List.not_mem_nil, or_false] at hm
    rcases hm with rfl | rfl
    · exact absurd hhash (by decide)
    · exact absurd hhash (by decide)
  · intro k
    rw [Detector.verdicts, hfirst]
    cases k with
    | zero => rfl
    | succ k => rw [List.replicate_succ, Detector.verdicts, hsecond, hforever, List.replicate_succ]

end TorMarketplace
