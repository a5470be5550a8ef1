import TorMarketplace.Frontend.Client
import TorMarketplace.Lib.Run

/-!
# The key vault and the login page

The key vault of `frontend/crypto.js` (`createKeypairWithPassword`, `unlockWithPassword`, `clearKeys`), and of
`frontend/app.js` what decides which of them a password is for: `navigate`, `initPasswordPage`,
`handlePasswordSubmit` and `logout`.

A page is a page load. It has a document and the key pair in memory, and both are new; the vault is the
browser's, and all its pages have had it or will have it, one after the other or in several tabs. A page that is
closed or loaded again makes no more calls.
-/

namespace TorMarketplace.KeyVault

open Encoding Interleave Js Prog

/-- What the vault takes from WebCrypto and from `nacl.js`. -/
structure Nacl where
  /-- `deriveKey`: PBKDF2 of password and salt. -/
  deriveKey : JsString → Bytes → Bytes
  /-- `nacl.secretbox`: message, nonce, key. -/
  secretbox : Bytes → Bytes → Bytes → Bytes
  /-- `nacl.secretbox.open`: box, nonce, key. -/
  secretboxOpen : Bytes → Bytes → Bytes → Option Bytes
  open_secretbox : ∀ m n k, secretboxOpen (secretbox m n k) n k = some m

structure KeyPair where
  pubkey : Bytes
  seckey : Bytes
  deriving DecidableEq

/-- The record `wrapped_key`. -/
structure WrappedKey where
  salt : String
  nonce : String
  wrapped : String
  deriving DecidableEq

/-- `wrapKey`, with what it draws as arguments. -/
def wrapKey (N : Nacl) (secretKey : Bytes) (password : JsString) (salt nonce : Bytes) : WrappedKey :=
  ⟨base64Encode salt, base64Encode nonce,
    base64Encode (N.secretbox secretKey nonce (N.deriveKey password salt))⟩

/-- `unwrapKey`. -/
def unwrapKey (N : Nacl) (wrappedData : WrappedKey) (password : JsString) : Except String Bytes := do
  let some salt := base64Decode wrappedData.salt | throw "InvalidCharacterError"
  let some nonce := base64Decode wrappedData.nonce | throw "InvalidCharacterError"
  let some wrapped := base64Decode wrappedData.wrapped | throw "InvalidCharacterError"
  let some secretKey := N.secretboxOpen wrapped nonce (N.deriveKey password salt) | throw "Wrong password"
  pure secretKey

/-! ## The calls -/

/-- The records of the store `keyvault` that make an identity. -/
structure Vault where
  wrappedKey : Option WrappedKey := none
  pubkey : Option String := none
  searchKey : Option String := none

/-- What a page shows. -/
inductive Shown where
  | blank
  /-- `page-password`, with the value of its input `is-new-user`. -/
  | password (isNewUser : Bool)
  | other
  deriving DecidableEq

structure Page where
  keypair : Option KeyPair := none
  shown : Shown := .blank

structure World where
  vault : Vault
  pages : Nat → Page

inductive VaultCall where
  /-- `keypair` in the memory of the page. -/
  | getKeypair (page : Nat)
  | setKeypair (page : Nat) (keypair : Option KeyPair)
  /-- `showPage`: a new copy of the template. -/
  | showPage (page : Nat) (shown : Shown)
  /-- The form is submitted. Is the input `is-new-user` true? -/
  | submitted (page : Nat)
  /-- The input, if it is there, gets a value. -/
  | setIsNewUser (page : Nat) (value : Bool)
  /-- `nacl.sign.keyPair`. -/
  | signKeyPair
  | randomBytes (n : Nat)
  | initWasm
  /-- `dbGet` and `dbPut`; a put may be rejected. -/
  | getWrappedKey
  | putWrappedKey (value : WrappedKey)
  | getVaultPubkey
  | putVaultPubkey (value : String)
  | putCreatedAt
  | putSearchKey (value : String)
  | clearKeyvault
  | clearOtherStores
  /-- The two requests of the login, signed with the key pair. -/
  | login (keypair : Option KeyPair)
  deriving DecidableEq

abbrev VaultCall.Ans : VaultCall → Type
  | .getKeypair _ => Option KeyPair
  | .setKeypair .. => Unit
  | .showPage .. => Unit
  | .submitted _ => Bool
  | .setIsNewUser .. => Unit
  | .signKeyPair => KeyPair
  | .randomBytes _ => Bytes
  | .initWasm => Bool
  | .getWrappedKey => Option WrappedKey
  | .putWrappedKey _ => Bool
  | .getVaultPubkey => Option String
  | .putVaultPubkey _ => Bool
  | .putCreatedAt => Bool
  | .putSearchKey _ => Bool
  | .clearKeyvault => Bool
  | .clearOtherStores => Bool
  | .login _ => Bool

abbrev Browser : Interface := ⟨VaultCall, VaultCall.Ans⟩

/-- A program of a page; an exception is its text. -/
abbrev Script (α : Type) := Prog Browser String α

abbrev invoke (c : VaultCall) : Script c.Ans := Prog.call (I := Browser) c

/-- The environment's part in one call. -/
structure Outcome where
  fault : Bool := false
  bytes : Bytes := []
  keypair : KeyPair := ⟨[], []⟩

/-- The page, changed. -/
def World.onPage (w : World) (page : Nat) (f : Page → Page) : World :=
  { w with pages := Function.update w.pages page (f (w.pages page)) }

def machine : Machine Browser World Outcome where
  answer := fun
    | .getKeypair page, _, w => some ((w.pages page).keypair, w)
    | .setKeypair page keypair, _, w => some ((), w.onPage page fun p => { p with keypair := keypair })
    | .showPage page shown, _, w => some ((), w.onPage page fun p => { p with shown := shown })
    -- the event comes from the form, so the form is there
    | .submitted page, _, w =>
      match (w.pages page).shown with
      | .password isNewUser => some (isNewUser, w)
      | _ => none
    | .setIsNewUser page value, _, w =>
      match (w.pages page).shown with
      | .password _ => some ((), w.onPage page fun p => { p with shown := .password value })
      | _ => some ((), w)
    | .signKeyPair, e, w => some (e.keypair, w)
    | .randomBytes n, e, w => if e.bytes.length = n then some (e.bytes, w) else none
    | .initWasm, e, w => some (!e.fault, w)
    | .getWrappedKey, _, w => some (w.vault.wrappedKey, w)
    | .putWrappedKey value, e, w =>
      if e.fault then some (false, w)
      else some (true, { w with vault := { w.vault with wrappedKey := some value } })
    | .getVaultPubkey, _, w => some (w.vault.pubkey, w)
    | .putVaultPubkey value, e, w =>
      if e.fault then some (false, w)
      else some (true, { w with vault := { w.vault with pubkey := some value } })
    | .putCreatedAt, e, w => some (!e.fault, w)
    | .putSearchKey value, e, w =>
      if e.fault then some (false, w)
      else some (true, { w with vault := { w.vault with searchKey := some value } })
    | .clearKeyvault, e, w => if e.fault then some (false, w) else some (true, { w with vault := {} })
    | .clearOtherStores, e, w => some (!e.fault, w)
    | .login _, e, w => some (!e.fault, w)

/-! ## The programs -/

section

variable (N : Nacl)

/-- `dbPut`: a rejection is an exception. -/
def dbPut (put : Script Bool) : Script Unit := do
  let done ← put
  ensure done "DataError"

/-- `createKeypairWithPassword`. -/
def createKeypairWithPassword (page : Nat) (password : JsString) : Script Unit := do
  ensure (12 ≤ password.length) "Password must be at least 12 characters"
  let kp ← invoke .signKeyPair
  invoke (.setKeypair page (some kp))
  let salt ← invoke (.randomBytes 16)
  let nonce ← invoke (.randomBytes 24)
  dbPut (invoke (.putWrappedKey (wrapKey N kp.seckey password salt nonce)))
  dbPut (invoke (.putVaultPubkey (base64Encode kp.pubkey)))
  dbPut (invoke .putCreatedAt)
  let searchKey ← invoke (.randomBytes 32)
  dbPut (invoke (.putSearchKey (hexEncode searchKey)))

/-- `unlockWithPassword`. -/
def unlockWithPassword (page : Nat) (password : JsString) : Script Unit := do
  let wrapped ← invoke .getWrappedKey
  let wrapped ← orFail wrapped "No stored identity"
  let seckey ← ofExcept (unwrapKey N wrapped password)
  let pubkey ← invoke .getVaultPubkey
  let pubkey ← orFail (pubkey.bind base64Decode) "InvalidCharacterError"
  invoke (.setKeypair page (some ⟨pubkey, seckey⟩))

/-- `handlePasswordSubmit`, with what has been typed. -/
def handlePasswordSubmit (page : Nat) (password confirm : JsString) : Script Unit := do
  let isNewUser ← invoke (.submitted page)
  ensure (12 ≤ password.length) "Password must be at least 12 characters"
  ensure (!isNewUser || password = confirm) "Passwords do not match"
  let loaded ← invoke .initWasm
  ensure loaded "initWasm"
  if isNewUser then createKeypairWithPassword N page password
  else unlockWithPassword N page password
  let keypair ← invoke (.getKeypair page)
  let connected ← invoke (.login keypair)
  ensure connected "Authentication failed"

/-- `initPasswordPage`. -/
def initPasswordPage (page : Nat) : Script Unit := do
  let wrapped ← invoke .getWrappedKey
  let hasExistingKey := wrapped.isSome
  invoke (.setIsNewUser page (!hasExistingKey))

/-- The routes of `navigate`. -/
inductive Hash where
  /-- `#/`. -/
  | home
  /-- `#/login` and `#/unlock`. -/
  | login
  /-- The pages of listings and orders. -/
  | page
  | unknown
  deriving DecidableEq

/-- `navigate`. -/
def navigate (page : Nat) (hash : Hash) : Script Unit := do
  let keypair ← invoke (.getKeypair page)
  match keypair with
  | none => invoke (.showPage page (.password true))
  | some _ =>
    match hash with
    | .login => do
      invoke (.showPage page (.password true))
      initPasswordPage page
    | .home | .page => invoke (.showPage page .other)
    | .unknown => pure ()

/-- `logout`, with `clearKeys`. -/
def logout (page : Nat) : Script Unit := do
  invoke (.setKeypair page none)
  dbPut (invoke .clearKeyvault)
  dbPut (invoke .clearOtherStores)
  dbPut (invoke .clearOtherStores)
  navigate page .login

/-- What happens on a page: it is loaded or the address changes, a form is submitted, the button is pressed. -/
inductive PageJob where
  | navigate (page : Nat) (hash : Hash)
  | submit (page : Nat) (password confirm : JsString)
  | logout (page : Nat)
  deriving DecidableEq

def program : PageJob → Script Unit
  | .navigate page hash => navigate page hash
  | .submit page password confirm => handlePasswordSubmit N page password confirm
  | .logout page => logout page

abbrev VaultSystem := Config Browser World PageJob String Unit

abbrev VaultEvent := Event Browser World PageJob

/-- The configurations of the runs of a browser with this vault. -/
def Reaches (vault : Vault) (g : VaultSystem) : Prop :=
  Reachable machine (program N) (fun _ _ => True) ⟨vault, fun _ => {}⟩ g

end

end TorMarketplace.KeyVault
