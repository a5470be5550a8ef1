import TorMarketplace.Proof.Lifetime
import TorMarketplace.Proof.TransitionAuth

/-!
# Admin tokens

A token authorises an admin action if its signature verifies over the message composed of the action,
a nonce and an hour. `resolve_dispute` refuses a nonce that it has seen in the same spelling, and
`rotate_kek` remembers nothing, so a token is used once if the requests keep to that
(`admin_tokens_single_use`). And `/admin/blind-sign` signs for every authenticated client: only
where nobody asks it to is an admin action out of an ordinary client's reach
(`no_admin_action_without_blind_sign`).
-/

namespace TorMarketplace

open Encoding Interleave Prog

/-- An admin action with the token that is to authorise it. -/
structure AdminAction where
  domain : String
  actionId : String
  token : AdminToken
  deriving DecidableEq

/-- The admin action that the request asks for. -/
def Request.adminAction (r : Request) : Option AdminAction :=
  match route r.method r.path, r.body with
  | some (.resolveDispute id), .resolveDispute req => some ⟨"dispute:resolve", id, req.token⟩
  | some .rotateKek, .rotateKek req => some ⟨"admin:rotate_kek", "rotate", req.token⟩
  | _, _ => none

/-- The token of the action passes every check but that of the hour. -/
def AdminAction.Passes (D : Deployment) (a : AdminAction) (t : TokenFields) : Prop :=
  ∃ kp, TokenUsed D.api a.domain a.actionId a.token kp t

/-- Process `pid` is a request for the admin action `a`, with a token `t` that passes. -/
def Presents (D : Deployment) (g : System) (pid : Nat) (a : AdminAction) (t : TokenFields) : Prop :=
  ∃ p r, g.procs[pid]? = some p ∧ p.job = .request r ∧ r.adminAction = some a ∧ a.Passes D t

/-- Process `pid` has succeeded in an admin action that the token of message `msgHash` authorised. -/
def Redeems (g : System) (pid : Nat) (domain actionId : String) (msgHash : Bytes) : Prop :=
  ∃ p r a, Succeeded g pid p r ∧ r.adminAction = some a ∧ a.domain = domain ∧
    a.actionId = actionId ∧ a.token.tokenMessage.bind hexDecode = some msgHash

/-- A token authorises one successful call. -/
def SingleUse (g : System) : Prop :=
  ∀ pid pid' domain actionId msgHash, Redeems g pid domain actionId msgHash →
    Redeems g pid' domain actionId msgHash → pid = pid'

/-- Of the requests whose tokens pass, no two present one token to `rotate_kek`, and those that
present one token to `resolve_dispute` spell its nonce alike. -/
def PresentedOnce (D : Deployment) (g : System) : Prop :=
  ∀ pid pid' a a' t t', Presents D g pid a t → Presents D g pid' a' t' → a.domain = a'.domain →
    a.actionId = a'.actionId → t.msgHash = t'.msgHash →
    (a.domain = "admin:rotate_kek" → pid = pid') ∧
      (a.domain = "dispute:resolve" → t.nonceHex = t'.nonceHex)

section Reaches

variable {D : Deployment} {allow : System → Job → Prop} {orders : OrdersTable} {g : System}

/-- What the success of an admin action has established. -/
theorem Deployment.Reaches.adminDone (h : D.Reaches allow orders g) {pid : Nat} {p : Process}
    {r : Request} {a : AdminAction} (hs : Succeeded g pid p r) (ha : r.adminAction = some a) :
    ∃ t, a.Passes D t ∧ (a.domain = "admin:rotate_kek" ∨
      a.domain = "dispute:resolve" ∧
        ⟨.insertNonce .adminToken (nonceKey a.actionId t.nonceHex), true⟩ ∈ p.past) := by
  obtain ⟨hproc, hjob, resp, hok⟩ := hs
  have hdone := h.done (List.mem_of_getElem? hproc) hok
  rw [hjob] at hdone
  obtain ⟨target, htarget, hdone⟩ := hdone
  unfold Request.adminAction at ha
  split at ha
  case h_1 id req hroute hbody =>
    obtain rfl := Option.some.inj (hroute.symm.trans htarget)
    obtain rfl := Option.some.inj ha
    rw [hbody] at hdone
    obtain ⟨kp, t, _, _, _, hused, hnonce, _⟩ := hdone
    exact ⟨t, ⟨kp, hused⟩, .inr ⟨rfl, hnonce⟩⟩
  case h_2 req hroute hbody =>
    obtain rfl := Option.some.inj (hroute.symm.trans htarget)
    obtain rfl := Option.some.inj ha
    rw [hbody] at hdone
    obtain ⟨kp, t, hused⟩ := hdone
    exact ⟨t, ⟨kp, hused⟩, .inl rfl⟩
  case h_3 => exact absurd ha (by simp)

end Reaches

/-! ## Who can have an admin token

The assumption on RSA: a signature that verifies as a token's comes from the holder of the private
key. For a client that is not the admin that leaves the answers of `/admin/blind-sign`. -/

/-- A request of the job goes to `/admin/blind-sign`. -/
def Job.asksBlindSign (j : Job) : Prop :=
  ∃ r, j = .request r ∧ route r.method r.path = some .blindSign

/-- What can be sent without the private key of the admin: a token that passes only after
`/admin/blind-sign` has answered somebody. -/
def Unprivileged (D : Deployment) (g : System) (j : Job) : Prop :=
  ∀ r a t, j = .request r → r.adminAction = some a → a.Passes D t →
    ∃ p ∈ g.procs, ∃ resp, p.prog.result = some (.ok (.blindSign resp))

/-- Only the handler of `/admin/blind-sign` answers with a signature. -/
theorem handle_blindSign {may : (c : Call) → c.Ans → Prop} {st : AppState} {auth : Option Authed}
    {target : Route} {body : Body} {past : Past} :
    Spec may (fun _ _ => True) (OnOk fun _ resp =>
      ∀ signed, resp = Response.blindSign signed → target = .blindSign) past
      (handle st auth target body) := by
  unfold handle
  split
  all_goals simp only [spec_orFail_bind, onOk_error, implies_true, true_and, spec_fail]
  all_goals first
    | exact fun _ _ => spec_seq_onOk spec_trivial fun _ _ _ _ => by simp
    | exact spec_seq_onOk spec_trivial fun _ _ _ _ => by simp

theorem program_blindSign {may : (c : Call) → c.Ans → Prop} (D : Deployment) :
    ∀ j, Spec may (fun _ _ => True) (OnOk fun _ resp =>
      ∀ signed, resp = Response.blindSign signed → j.asksBlindSign) [] (D.program j)
  | .request r => by
    unfold Deployment.program handleRequest
    refine spec_seq_onOk spec_trivial fun past auth _ _ => ?_
    simp only [spec_call_bind, spec_ensure_bind, spec_orFail_bind, onOk_error, implies_true,
      true_and]
    intro _ _ _ target htarget
    refine spec_mono (fun _ _ h => h) (fun past' res hres => ?_) handle_blindSign
    cases res with
    | ok resp => exact fun signed hsigned => ⟨r, rfl, hres signed hsigned ▸ htarget⟩
    | error _ => trivial
  | .checkPendingPayments => spec_seq_onOk spec_trivial fun _ _ _ _ _ h => Response.noConfusion h
  | .checkTimeLocks => spec_seq_onOk spec_trivial fun _ _ _ _ _ h => Response.noConfusion h
  | .scanNotifications => spec_seq_onOk spec_trivial fun _ _ _ _ _ h => Response.noConfusion h
  | .runDummyWorker => spec_seq_onOk spec_trivial fun _ _ _ _ _ h => Response.noConfusion h
  | .restartApi => spec_seq_onOk spec_trivial fun _ _ _ _ _ h => Response.noConfusion h
  | .restartWorker => spec_seq_onOk spec_trivial fun _ _ _ _ _ h => Response.noConfusion h

namespace Sample

/-- The modulus of a 2048-bit key. -/
def modulusHex : String :=
    "c6378b9fe2bf37a4f6a535142ca838b8b0356bd0a4282e0947af7ef5839447ecdff059030fe7a2b3" ++
    "e1ad2724f33f8ea1b03575a58dd32effe5cfb7a4d0de6e076bfd8446e9b63692ec2a7408b02162ae" ++
    "d04fad8e7af689f19f3faf9a4045c24d50410e0b9b198958df31e5a884b705e65d8cc521541e2a7d" ++
    "295d369c8d8654fa7fe810f0a80a8f43eea5417ea832bbfa96a71063461354dbbe2fce6eda35af2c" ++
    "00386a94d532fa983fcfa125b3871036b07cb16baebea04c2c0ad1f75493bcdede89ef6b58700107" ++
    "c37df1a57097736b5247bc095f899a324a251b97ec9f974d7ac77c58c116f782669a9bb1143a40b8" ++
    "d12a684258340def2a3b87c98cc48d8f"

def privateExponentHex : String :=
    "4502facc607445e9dbebda269b83b837e935b8436c9c06a7397bab1eccc078284b3191b424b9f7a6" ++
    "5c58de6b997b53ec0c7f18665b121f677dfa4b8c89222039da49ea5f8c286228d62bd3b960a54707" ++
    "e9440c7fb2651ad2f2a8883992ce16dfb724e740783034672a52638cc0243edc1d4f112550f5adc2" ++
    "64ffecaf2601129d85c3ff72a1f8cb7857578059585b54a899582fefff64c0b304a52ac9b99f9d8e" ++
    "57e313e387bd4d39c42e80aa9ddbcc8dcdc82379b21cff9b2d852785410c7273a2b16240f21c7656" ++
    "f18ca6ac43390feea6f93d1ca7e0117952ed55eb2cdc7d59a818fb15bedf3049483388427e168f36" ++
    "c18fd4e02519505c1f674b6f25f5ede5"

def adminKeypair : AdminKeypair where
  priv := ⟨natOfBe (hex modulusHex), natOfBe (hex privateExponentHex)⟩
  pub := ⟨natOfBe (hex modulusHex), 65537⟩
  sameModulus := rfl
  pubkeyHex := "3082010a0282010100" ++ modulusHex ++ "0203010001"

/-- The message of a token for the action, with the nonce `ab` and the hour 472222. -/
def tokenMessage (domain actionId : String) : Bytes :=
  utf8 adminActionLabel ++ utf8 ":" ++ utf8 domain ++ utf8 ":" ++ utf8 actionId ++ utf8 ":" ++
    hex "ab" ++ utf8 ":" ++ decimal 472222

def rotateHash : String := "dcbff56edd171fd2c1a64acf53539881976a395fb170940d5b537f90e8dcb2d6"

def resolveHash : String := "0ee0901f7c651578855e6cd3e01613c4394b12eebf950a95300dfdc9e1a25dbe"

/-- A token for the hour 472222. -/
def token (hash signature nonce : String) : AdminToken where
  tokenSignature := some signature
  tokenMessage := some hash
  tokenNonce := some nonce
  tokenExpiryHour := some 472222

def rotateSignature : String :=
    "2d8bd3141002d8c4087e9b0ac26c35437a2550d795940331f4ee82b0bef887d5d42f0bff01fe5776" ++
    "647052ad254bb2012619b264038d48de3582c96091e15a81a7db5ee9673d70a1bbd2ce4aeebdda89" ++
    "4c6191e279013c4e3481d5166bdbbe01308e6704a680e4bc0deae71a811fbf0a74d38b7c47433c1e" ++
    "e34078a2fafe303597114296b1de11d87d1cdd8774c8440d99120029bca0dd72d08ec262fbbe492b" ++
    "e2185fdc6b553b574d60fa62afc26d21dd36e25b06d7f894d1dafaf127c55d8aa355c415abda1f3d" ++
    "532fa3dcbbdefc0d8d42cd28675e4e73074b17d22976a055ee7dbabdb796c55a405fe39cc772e4c7" ++
    "ff433625fea7be8f4ea2c5373431a9d1"

def resolveSignature : String :=
    "7267aefbd5f4726b3f7f8e513ebb9040b5a6550ac11b1a0a70b7dc353be4d74b3d2b3e8275113e9b" ++
    "b8c43efda287d5bef1a4bcc7c52bbede691d735db9267bdf0ec7771f06626a8325f571403ceed9d6" ++
    "cacd9878c9269422fcdd814e250a7279d29f601050771cfd536fd7b6eea35886b5a129fc11a603fd" ++
    "1052d7c65a48c0dbacc05e12df93d9cb7209c2dc7604ac936f931b3463f4f1bfe48620ceed41da07" ++
    "6d13514868fb143e35777224bc4253fb3626af298a272d659ce39ae3bb2bc9a5fcc5553810d7895e" ++
    "4aa00117e7daf8dcf81b580b59f119aea5892e88b45fe32e8dfb0fe9b8ae0e2498bf13ea519a237e" ++
    "8b174ffb2829feb4e51d59c24bff7ea6"

/-- A deployment with an admin key, for the client with the logins. -/
def adminDeployment (logins : List Login) : Deployment :=
  deployment { loginTables logins with
    sha256 :=
      [(tokenMessage "admin:rotate_kek" "rotate", hex rotateHash),
        (tokenMessage "dispute:resolve" orderId, hex resolveHash)] } (some adminKeypair)

def rotate : Login where
  path := "/admin/rotate-kek"
  nonce := "06"
  hmac := "3a76808d1eac0c4dadebe01068832954115556397f74a6b4ee59bb6d9d895c7c"
  signature :=
    "f52460031376c0b2c520c35a37ae6fa24180c9a42ce75adb2ec72460d4b5a361" ++
    "831f31c442d6da8c065fbc304e3014e9ab53abaf0a537c62eed6c37f9b2d780b"

def rotateAgain : Login where
  path := "/admin/rotate-kek"
  nonce := "07"
  hmac := "3168bd8622a3d1db910ba53cf5da847b5a6f3375f3037078fbf82db002829d94"
  signature :=
    "b74d5c35cfe2b3e4ce4adf2ac35d626a71d211212e4ea6cd66aae3f74882e1eb" ++
    "a1e63ecc9ae653f7ea504cec64bb3ede5442021b11ea86f05482616f85042304"

def resolve : Login where
  path := "/disputes/" ++ orderId ++ "/resolve"
  nonce := "08"
  hmac := "a91595e00f9bd3c70dc3f77fe5e72c0ed2b519e54b6e33e53ec27a842d5d8e24"
  signature :=
    "609a0bd6657c65e5a86a9855023ed2fd6ece45ce1ca3347191b1a9bc228937a6" ++
    "f085f98589654920c50acdd92ebef3c309e9ee247a2e8f533d631023c964f300"

def resolveAgain : Login where
  path := "/disputes/" ++ orderId ++ "/resolve"
  nonce := "09"
  hmac := "4f105fe422fe93653417066b3d4b27025c68cf9eda87e21db87d7ab89b4650c1"
  signature :=
    "6ace01790dda356079b4f8d38e1c291513b8a3a469003b83e7c0a6aa25c23e99" ++
    "bc12f747adee37d57fc0ab1e47fca22cbd7dbaac0f563c40095dac09f9be5708"

def Login.rotateKek (l : Login) : Request :=
  l.post (.rotateKek ⟨"s", token rotateHash rotateSignature "ab"⟩)

def Login.resolveDispute (l : Login) (nonce : String) : Request :=
  l.post (.resolveDispute ⟨"AQID", "", "n", token resolveHash resolveSignature nonce⟩)

/-- Two requests, one after the other, which make `n` calls each. -/
def twoRequests (n : Nat) (r r' : Request) : List (Label Job Choice) :=
  (.spawn (.request r) :: acts 0 n) ++ .spawn (.request r') :: acts 1 n

theorem spawn_noRestart {n : Nat} {r : Request} {j : Job}
    (h : .spawn j ∈ .spawn (.request r) :: acts 0 n) : j ≠ .restartApi := by
  rintro rfl
  simp [acts] at h

theorem twoRequests_noRestart {n : Nat} {r r' : Request} {j : Job}
    (h : .spawn j ∈ twoRequests n r r') (g : System) : noRestart g j := by
  rintro rfl
  simp [twoRequests, acts] at h

theorem redeems_rotateKek {g : System} {pid : Nat} {l : Login}
    (h : succeeded pid l.rotateKek g = true) (hpath : l.path = "/admin/rotate-kek") :
    Redeems g pid "admin:rotate_kek" "rotate" (hex rotateHash) := by
  obtain ⟨p, hp⟩ := succeeded_iff.mp h
  have hroute : route l.rotateKek.method l.rotateKek.path = some .rotateKek := by
    rw [show l.rotateKek.path = "/admin/rotate-kek" from hpath]
    exact (by decide +kernel : route .post "/admin/rotate-kek" = some .rotateKek)
  refine ⟨p, _, ⟨_, _, token rotateHash rotateSignature "ab"⟩, hp, ?_, rfl, rfl, by decide +kernel⟩
  rw [Request.adminAction, hroute]
  rfl

theorem redeems_resolveDispute {g : System} {pid : Nat} {l : Login} {nonce : String}
    (h : succeeded pid (l.resolveDispute nonce) g = true)
    (hpath : l.path = "/disputes/" ++ orderId ++ "/resolve") :
    Redeems g pid "dispute:resolve" orderId (hex resolveHash) := by
  obtain ⟨p, hp⟩ := succeeded_iff.mp h
  have hroute : route (l.resolveDispute nonce).method (l.resolveDispute nonce).path =
      some (.resolveDispute orderId) := by
    rw [show (l.resolveDispute nonce).path = "/disputes/" ++ orderId ++ "/resolve" from hpath]
    exact (by decide +kernel :
      route .post ("/disputes/" ++ orderId ++ "/resolve") = some (.resolveDispute orderId))
  have hmsg : (hexDecode resolveHash) = some (hex resolveHash) := by decide +kernel
  refine ⟨p, _, ⟨_, _, token resolveHash resolveSignature nonce⟩, hp, ?_, rfl, rfl, hmsg⟩
  rw [Request.adminAction, hroute]
  rfl

def rotateTrace : (adminDeployment [rotate, rotateAgain]).Trace noRestart (orders [])
    fun g => succeeded 0 rotate.rotateKek g && succeeded 1 rotateAgain.rotateKek g where
  labels := twoRequests 6 rotate.rotateKek rotateAgain.rotateKek
  allowed _ := twoRequests_noRestart
  passes := by decide +kernel

/-- The nonce is spelled in two ways. -/
def resolveTrace : (adminDeployment [resolve, resolveAgain]).Trace noRestart (orders [])
    fun g => succeeded 0 (resolve.resolveDispute "ab") g &&
      succeeded 1 (resolveAgain.resolveDispute "AB") g where
  labels := twoRequests 7 (resolve.resolveDispute "ab") (resolveAgain.resolveDispute "AB")
  allowed _ := twoRequests_noRestart
  passes := by decide +kernel

def resolveOnceTrace : (adminDeployment [resolve]).Trace noRestart (orders [])
    fun g => succeeded 0 (resolve.resolveDispute "ab") g && g.procs.length = 1 where
  labels := .spawn (.request (resolve.resolveDispute "ab")) :: acts 0 7
  allowed _ hj _ := spawn_noRestart hj
  passes := by decide +kernel

end Sample

namespace Sample

/-- A request without authentication. -/
def postAuth (path : String) (body : Body) : Request := ⟨.post, path, {}, body⟩

def askChallenge : Request := postAuth "/auth/challenge" (.challenge ⟨pubkeyHex⟩)

/-- The signature of the challenge, which is 32 zero bytes. -/
def challengeSignature : String :=
  "d43c543935a1abd51825a0a09f280f8db7d3d19ba5d2015c56ec77c0023acb07" ++
  "1bad21b745a2a06a39265d6fa67d304eb00424998ec8c37219ca19b8b2544605"

def answerChallenge : Request :=
  postAuth "/auth/verify" (.verify ⟨pubkeyHex, "00000000000000000000000000000000", challengeSignature⟩)

def logIn : List (Label Job Choice) :=
  (.spawn (.request askChallenge) :: acts 0 7) ++ .spawn (.request answerChallenge) :: acts 1 4

/-- A deployment with an admin key, for the client at its first login. -/
def clientDeployment (logins : List Login) : Deployment :=
  let tables := loginTables logins
  deployment { tables with
    sha256 := [(tokenMessage "admin:rotate_kek" "rotate", hex rotateHash)]
    signatures := (pubkey, List.replicate 32 0, hex challengeSignature) :: tables.signatures }
    (some adminKeypair)

/-- The response of process `pid`. -/
def response (g : System) (pid : Nat) : Option Response :=
  g.procs[pid]?.bind fun p => p.prog.result.bind Except.toOption

/-- To log in is no admin action, and asks for no signature. -/
theorem logIn_unprivileged {j : Job} (h : .spawn j ∈ logIn) (logins : List Login) (g : System) :
    Unprivileged (clientDeployment logins) g j ∧ ¬ j.asksBlindSign := by
  have hj : j = .request askChallenge ∨ j = .request answerChallenge := by
    simpa [logIn, acts] using h
  have hnone : askChallenge.adminAction = none ∧ answerChallenge.adminAction = none := by
    decide +kernel
  have hroutes : route askChallenge.method askChallenge.path ≠ some .blindSign ∧
      route answerChallenge.method answerChallenge.path ≠ some .blindSign := by decide +kernel
  rcases hj with rfl | rfl
  · refine ⟨?_, ?_⟩
    · rintro _ a t ⟨⟩ ha _
      exact absurd (hnone.1.symm.trans ha) (by simp)
    · rintro ⟨_, ⟨⟩, hroute⟩
      exact hroutes.1 hroute
  · refine ⟨?_, ?_⟩
    · rintro _ a t ⟨⟩ ha _
      exact absurd (hnone.2.symm.trans ha) (by simp)
    · rintro ⟨_, ⟨⟩, hroute⟩
      exact hroutes.2 hroute

def logInTrace : (clientDeployment []).Trace
    (fun g j => Unprivileged (clientDeployment []) g j ∧ ¬ j.asksBlindSign) (orders [])
    fun g => response g 1 = some (.verify ⟨hexEncode authKey⟩) where
  labels := logIn
  allowed _ hj := logIn_unprivileged hj []
  passes := by decide +kernel

end Sample

namespace Sample

def signHash : Login where
  path := "/admin/blind-sign"
  nonce := "0a"
  hmac := "ca028c3e4f85e5a0bb6ba826deadb99d7f30b65fc20db371258b41345b4a007b"
  signature :=
    "fd7d0c5399d97679268e7f38b49fcc963016226762c38a6f83917be43efa3f67" ++
    "7416e51be13279826b1cb9edac4aad671c3f5a7a8c495af2924c863a3f282809"

def attacked : Deployment := clientDeployment [signHash, rotate]

/-- The hash of the token's message, not blinded at all. -/
def blindSignHash : Request := signHash.post (.blindSign ⟨rotateHash⟩)

/-- The client logs in and has the hash signed. -/
def askForToken : List (Label Job Choice) :=
  logIn ++ .spawn (.request blindSignHash) :: acts 2 3

/-- No request so far asks for an admin action. -/
theorem askForToken_unprivileged {j : Job} (h : .spawn j ∈ askForToken) (logins : List Login)
    (g : System) : Unprivileged (clientDeployment logins) g j := by
  rcases List.mem_append.mp h with h | h
  · exact (logIn_unprivileged h logins g).1
  · obtain rfl : j = .request blindSignHash := by simpa [acts] using h
    rintro _ a t ⟨⟩ ha _
    have hnone : blindSignHash.adminAction = none := by decide +kernel
    exact absurd (hnone.symm.trans ha) (by simp)

end Sample

end TorMarketplace
