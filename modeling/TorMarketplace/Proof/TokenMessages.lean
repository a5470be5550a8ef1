import TorMarketplace.Proof.AdminTokens
import TorMarketplace.Proof.BlindSignatures

/-!
# A token message names one action

`compose_token_message` joins fields of any length with `:`, and the nonce is whatever bytes the
client chose. What is hashed is unambiguous all the same: the two domains differ in their first
letter, an order id that decodes as hex has no `:`, and the hour at the end is digits, so that the
nonce is what is left between them (`tokenPreimage_inj`). Hence every successful admin action that
shows one token message is the same action (`admin_token_names_one_action`).
-/

namespace TorMarketplace

open Encoding Interleave Prog

/-! ## What is hashed -/

/-- The byte string whose hash is a token message. -/
def tokenPreimage (domain actionId : String) (nonce : Bytes) (expiryHour : UInt64) : Bytes :=
  utf8 adminActionLabel ++ utf8 ":" ++ utf8 domain ++ utf8 ":" ++ utf8 actionId ++ utf8 ":" ++
    nonce ++ utf8 ":" ++ decimal expiryHour.toNat

theorem composeTokenMessage_eq (P : Primitives) (domain actionId : String) (nonce : Bytes)
    (expiryHour : UInt64) : composeTokenMessage P domain actionId nonce expiryHour =
      P.sha256 (tokenPreimage domain actionId nonce expiryHour) := rfl

/-- `:` in ASCII. -/
def colon : UInt8 := 58

theorem utf8_colon : utf8 ":" = [colon] := by decide +kernel

/-- Hex that decodes has only digits. -/
theorem hexBytes_digits {l b : Bytes} (h : hexBytes l = some b) : ∀ c ∈ l, hexDigit c ≠ none := by
  fun_induction hexBytes l generalizing b with
  | case1 => simp
  | case2 => exact absurd h (by simp)
  | case3 c d cs hi lo bs hbs hlo hhi ih =>
    intro x hx
    rcases List.mem_cons.mp hx with rfl | hx
    · simp [hhi]
    · rcases List.mem_cons.mp hx with rfl | hx
      · simp [hlo]
      · exact ih hbs x hx
  | case4 => exact absurd h (by simp)

theorem colon_notMem_hex {s : String} {b : Bytes} (h : hexDecode s = some b) : colon ∉ utf8 s :=
  fun hmem => hexBytes_digits h colon hmem (by decide)

theorem colon_notMem_decimal (n : Nat) : colon ∉ decimal n := fun hmem =>
  absurd (List.all_eq_true.mp (decimal_all_isDigit n) colon hmem) (by decide)

/-- What comes before the first separator, and what comes after it. -/
theorem split_inj {α : Type} {a : α} {r r' : List α} : ∀ {l l' : List α}, a ∉ l → a ∉ l' →
    l ++ a :: r = l' ++ a :: r' → l = l' ∧ r = r'
  | [], [], _, _, h => ⟨rfl, (List.cons.inj h).2⟩
  | [], x :: l', _, hl', h => absurd (List.cons.inj h).1 fun hx => hl' (hx ▸ List.mem_cons_self)
  | x :: l, [], hl, _, h => absurd (List.cons.inj h).1 fun hx => hl (hx ▸ List.mem_cons_self)
  | x :: l, y :: l', hl, hl', h => by
    obtain ⟨rfl, htail⟩ := List.cons.inj h
    obtain ⟨rfl, hr⟩ := split_inj (fun hx => hl (List.mem_cons_of_mem x hx))
      (fun hx => hl' (List.mem_cons_of_mem x hx)) htail
    exact ⟨rfl, hr⟩

/-- **Up to the first separator, and from the last one on**, two joined texts are equal part by part. -/
theorem joined_inj {id id' nonce nonce' tail tail' : Bytes} (hid : colon ∉ id) (hid' : colon ∉ id')
    (htail : colon ∉ tail) (htail' : colon ∉ tail')
    (h : id ++ colon :: (nonce ++ colon :: tail) = id' ++ colon :: (nonce' ++ colon :: tail')) :
    id = id' ∧ nonce = nonce' ∧ tail = tail' := by
  obtain ⟨hids, hrest⟩ := split_inj hid hid' h
  -- read backwards, the tail comes first
  have hrev := congrArg List.reverse hrest
  simp only [List.reverse_append, List.reverse_cons, List.append_assoc, List.singleton_append] at hrev
  obtain ⟨htails, hnonces⟩ := split_inj (by simpa using htail) (by simpa using htail') hrev
  exact ⟨hids, List.reverse_injective hnonces, List.reverse_injective htails⟩

/-- The two actions that a token can be for. -/
def IsAdminAction (domain actionId : String) : Prop :=
  domain = "dispute:resolve" ∧ (∃ b, hexDecode actionId = some b) ∨
    domain = "admin:rotate_kek" ∧ actionId = "rotate"

theorem IsAdminAction.colon_notMem {domain actionId : String} (h : IsAdminAction domain actionId) :
    colon ∉ utf8 actionId := by
  rcases h with ⟨-, b, hb⟩ | ⟨-, rfl⟩
  · exact colon_notMem_hex hb
  · decide +kernel

/-- The names of the domains begin with different letters. -/
theorem domain_eq {domain domain' actionId actionId' : String} {rest rest' : Bytes}
    (ha : IsAdminAction domain actionId) (ha' : IsAdminAction domain' actionId')
    (h : utf8 domain ++ rest = utf8 domain' ++ rest') : domain = domain' := by
  have hmem : ∀ {d a}, IsAdminAction d a → d ∈ ["dispute:resolve", "admin:rotate_kek"] := by
    rintro d a (⟨rfl, -⟩ | ⟨rfl, -⟩) <;> simp
  have hsome : ∀ d ∈ ["dispute:resolve", "admin:rotate_kek"], (utf8 d).head?.isSome := by
    decide +kernel
  have hinj : ∀ d ∈ ["dispute:resolve", "admin:rotate_kek"],
      ∀ d' ∈ ["dispute:resolve", "admin:rotate_kek"],
        (utf8 d).head? = (utf8 d').head? → d = d' := by decide +kernel
  have hhead := congrArg List.head? h
  rw [List.head?_append, List.head?_append, Option.or_of_isSome (hsome _ (hmem ha)),
    Option.or_of_isSome (hsome _ (hmem ha'))] at hhead
  exact hinj _ (hmem ha) _ (hmem ha') hhead

theorem tokenPreimage_eq (domain actionId : String) (nonce : Bytes) (expiryHour : UInt64) :
    tokenPreimage domain actionId nonce expiryHour = utf8 adminActionLabel ++ colon ::
      (utf8 domain ++ colon :: (utf8 actionId ++ colon ::
        (nonce ++ colon :: decimal expiryHour.toNat))) := by
  simp [tokenPreimage, utf8_colon]

/-- **The hashed bytes determine their fields.** -/
theorem tokenPreimage_inj {domain domain' actionId actionId' : String} {nonce nonce' : Bytes}
    {expiry expiry' : UInt64} (ha : IsAdminAction domain actionId)
    (ha' : IsAdminAction domain' actionId')
    (h : tokenPreimage domain actionId nonce expiry =
      tokenPreimage domain' actionId' nonce' expiry') :
    domain = domain' ∧ actionId = actionId' ∧ nonce = nonce' ∧ expiry = expiry' := by
  rw [tokenPreimage_eq, tokenPreimage_eq] at h
  have h := (List.cons.inj (List.append_cancel_left h)).2
  obtain rfl := domain_eq ha ha' h
  have h := (List.cons.inj (List.append_cancel_left h)).2
  obtain ⟨hid, hnonce, hexp⟩ := joined_inj ha.colon_notMem ha'.colon_notMem
    (colon_notMem_decimal _) (colon_notMem_decimal _) h
  refine ⟨rfl, utf8_inj hid, hnonce, UInt64.toNat_inj.mp ?_⟩
  rw [← digitsVal_decimal expiry.toNat, hexp, digitsVal_decimal]

/-! ## Successful requests -/

/-- SHA-256 tells the composed byte strings apart. -/
def TokenHashInj (P : Primitives) : Prop :=
  ∀ d a n e d' a' n' e', P.sha256 (tokenPreimage d a n e) = P.sha256 (tokenPreimage d' a' n' e') →
    tokenPreimage d a n e = tokenPreimage d' a' n' e'

section Reaches

variable {D : Deployment} {allow : System → Job → Prop} {orders : OrdersTable} {g : System}

/-- The action that a successful request names, and where the request went. -/
theorem Deployment.Reaches.adminAction_route (h : D.Reaches allow orders g) {pid : Nat}
    {p : Process} {r : Request} {a : AdminAction} (hs : Succeeded g pid p r)
    (ha : r.adminAction = some a) :
    IsAdminAction a.domain a.actionId ∧ route r.method r.path =
      if a.domain = "dispute:resolve" then some (.resolveDispute a.actionId)
      else some .rotateKek := by
  obtain ⟨hproc, hjob, resp, hok⟩ := hs
  have hdone := h.done (List.mem_of_getElem? hproc) hok
  rw [hjob] at hdone
  obtain ⟨target, htarget, hdone⟩ := hdone
  unfold Request.adminAction at ha
  split at ha
  case h_1 id req hroute hbody =>
    obtain rfl := Option.some.inj (hroute.symm.trans htarget)
    obtain rfl := Option.some.inj ha
    rw [hbody] at hdone
    obtain ⟨_, _, row, _, _, _, _, hw⟩ := hdone
    exact ⟨.inl ⟨rfl, row.id, hw.rowId⟩, by rw [htarget, if_pos rfl]⟩
  case h_2 req hroute hbody =>
    obtain rfl := Option.some.inj ha
    exact ⟨.inr ⟨rfl, rfl⟩, by
      rw [hroute, if_neg (show ¬"admin:rotate_kek" = "dispute:resolve" by decide)]⟩
  case h_3 => exact absurd ha (by simp)

/-- **A token message names one action**: whatever two successful admin requests show the same token
message, they went to the same endpoint, for the same order id, with the same nonce bytes and the
same expiry hour. -/
theorem admin_token_names_one_action (h : D.Reaches allow orders g) (hinj : TokenHashInj D.prim)
    {pid pid' : Nat} {p p' : Process} {r r' : Request} {a a' : AdminAction}
    (hs : Succeeded g pid p r) (ha : r.adminAction = some a) (hs' : Succeeded g pid' p' r')
    (ha' : r'.adminAction = some a')
    (hmsg : a.token.tokenMessage.bind hexDecode = a'.token.tokenMessage.bind hexDecode) :
    route r.method r.path = route r'.method r'.path ∧ a.domain = a'.domain ∧
      a.actionId = a'.actionId ∧ a.token.tokenExpiryHour = a'.token.tokenExpiryHour ∧
      ∃ nonce, a.token.tokenNonce.bind hexDecode = some nonce ∧
        a'.token.tokenNonce.bind hexDecode = some nonce := by
  obtain ⟨hact, hroute⟩ := h.adminAction_route hs ha
  obtain ⟨hact', hroute'⟩ := h.adminAction_route hs' ha'
  obtain ⟨t, ⟨kp, hused⟩, _⟩ := h.adminDone hs ha
  obtain ⟨t', ⟨kp', hused'⟩, _⟩ := h.adminDone hs' ha'
  have hhash : t.msgHash = t'.msgHash := by
    rw [hused.decoded.message, hused'.decoded.message] at hmsg
    exact Option.some.inj hmsg
  rw [hused.accepted.composed, hused'.accepted.composed, composeTokenMessage_eq,
    composeTokenMessage_eq] at hhash
  obtain ⟨hdomain, hid, hnonce, hexpiry⟩ :=
    tokenPreimage_inj hact hact' (hinj _ _ _ _ _ _ _ _ hhash)
  have hhour : t.expiry = t'.expiry := congrArg Int64.ofUInt64 hexpiry
  refine ⟨by rw [hroute, hroute', hdomain, hid], hdomain, hid, ?_, t.nonceBytes, ?_, ?_⟩
  · rw [hused.decoded.expiryHour, hused'.decoded.expiryHour, hhour]
  · rw [hused.decoded.nonceText, Option.bind_some, hused.decoded.nonce]
  · rw [hused'.decoded.nonceText, Option.bind_some, hused'.decoded.nonce, hnonce]

end Reaches

namespace TokenSample

open Sample

/-- A key of 321 bits. -/
def keypair : AdminKeypair where
  priv := BlindSample.key.priv
  pub := BlindSample.key.pub
  sameModulus := rfl
  pubkeyHex :=
    "3030022900f0000000000000000000000000000000600000000000000280" ++
    "0000000000000000000000000000010203010001"

/-- `SHA-256` of the one token message, and another hash for everything else. -/
def sha256 (m : Bytes) : Bytes :=
  if m = tokenMessage "admin:rotate_kek" "rotate" then hex rotateHash else m

def prim : Primitives :=
  { Primitives.ofTables (loginTables [rotate, rotateAgain]) with sha256 := sha256 }

def signature : String :=
  "ac65cc8b6e25260e9358e7cda187bb56de3d41a9d5fce7d0600dd309cf1cbec1a43ac3c0c8a6ee9d"

def tokenDeployment : Deployment :=
  { deployment (loginTables [rotate, rotateAgain]) (some keypair) with prim := prim }

def first : Request := rotate.post (.rotateKek ⟨"s", token rotateHash signature "ab"⟩)

/-- The same token with its nonce in another spelling. -/
def second : Request := rotateAgain.post (.rotateKek ⟨"s", token rotateHash signature "AB"⟩)

def action (nonce : String) : AdminAction :=
  ⟨"admin:rotate_kek", "rotate", token rotateHash signature nonce⟩

theorem tokenHashInj : TokenHashInj prim := by
  intro d a n e d' a' n' e' h
  -- a composed string starts with the label, and the digest does not
  have hhead : ∀ d a n e, (tokenPreimage d a n e).head? = some 116 := fun d a n e => by
    have hlabel : (utf8 adminActionLabel).head? = some 116 := by decide +kernel
    rw [tokenPreimage_eq, List.head?_append, hlabel]
    rfl
  have hdigest : (hex rotateHash).head? ≠ some 116 := by decide +kernel
  change sha256 _ = sha256 _ at h
  unfold sha256 at h
  split at h
  · rename_i hl
    split at h
    · rename_i hr
      rw [hl, hr]
    · exact absurd (h ▸ hhead d' a' n' e') hdigest
  · split at h
    · exact absurd (h ▸ hhead d a n e) hdigest
    · exact h

def trace : tokenDeployment.Trace anyJob (orders [])
    fun g => succeeded 0 first g && succeeded 1 second g where
  labels := twoRequests 6 first second
  allowed _ _ _ := trivial
  passes := by decide +kernel

end TokenSample

open Sample TokenSample in
theorem admin_token_names_one_action_sample :
    ∃ g p p', Succeeded g 0 p first ∧ Succeeded g 1 p' second ∧
      route first.method first.path = route second.method second.path ∧
      ∃ nonce, (some "ab").bind hexDecode = some nonce ∧ (some "AB").bind hexDecode = some nonce := by
  obtain ⟨g, hg, hcheck⟩ := trace.reaches
  obtain ⟨hfirst, hsecond⟩ := Bool.and_eq_true_iff.mp hcheck
  obtain ⟨p, hp⟩ := succeeded_iff.mp hfirst
  obtain ⟨p', hp'⟩ := succeeded_iff.mp hsecond
  have ha : first.adminAction = some (action "ab") := by decide +kernel
  have ha' : second.adminAction = some (action "AB") := by decide +kernel
  obtain ⟨hroute, -, -, -, hnonce⟩ :=
    admin_token_names_one_action hg tokenHashInj hp ha hp' ha' rfl
  exact ⟨g, p, p', hp, hp', hroute, hnonce⟩

end TorMarketplace
