import TorMarketplace.Frontend.Vault

/-!
# Which identity a page gets

A new copy of the login form says that the user is new. Only `initPasswordPage` says otherwise, and `navigate`
calls it only with a key pair in memory (`program_asks`). So a page has a key pair before a form of it can unlock the
stored one (`Reaches.keypair_before_unlock`), and its first key pair is always a new one, which is then stored over
what was there (`first_identity_is_new`).

What is unlocked later comes from two records, which other tabs may have written: `unlocked_pair_created` says
from which creations.
-/

namespace TorMarketplace.KeyVault

open Encoding Interleave Js Prog

variable {N : Nacl} {vault : Vault} {g : VaultSystem}

@[simp] theorem unwrapKey_wrapKey (secretKey : Bytes) (password : JsString) (salt nonce : Bytes) :
    unwrapKey N (wrapKey N secretKey password salt nonce) password = .ok secretKey := by
  simp only [unwrapKey, wrapKey, base64Decode_base64Encode, N.open_secretbox]
  rfl

/-! ## What the programs ask -/

/-- The one key pair that a process has drawn. -/
def Drawn (past : List (Reply Browser)) (kp : KeyPair) : Prop :=
  ⟨.signKeyPair, kp⟩ ∈ past ∧ ∀ kp', ⟨.signKeyPair, kp'⟩ ∈ past → kp' = kp

theorem drawn_new {past : List (Reply Browser)} (hnone : ∀ kp, ⟨.signKeyPair, kp⟩ ∉ past) (kp : KeyPair) :
    Drawn (past ++ [⟨.signKeyPair, kp⟩]) kp := by
  refine ⟨by simp, fun kp' hkp' => ?_⟩
  rcases List.mem_append.mp hkp' with hkp' | hkp'
  · exact absurd hkp' (hnone kp')
  · simpa using hkp'

theorem Drawn.after {past : List (Reply Browser)} {kp : KeyPair} (h : Drawn past kp) {r : Reply Browser}
    (hr : r.1 ≠ .signKeyPair) : Drawn (past ++ [r]) kp := by
  refine ⟨List.mem_append_left _ h.1, fun kp' hkp' => ?_⟩
  rcases List.mem_append.mp hkp' with hkp' | hkp'
  · exact h.2 kp' hkp'
  · obtain rfl := List.mem_singleton.mp hkp'
    exact absurd rfl hr

/-- The pair that a process has put together of the two records. -/
def Unlocked (N : Nacl) (password : JsString) (past : List (Reply Browser)) (kp : KeyPair) : Prop :=
  ∃ wrapped pubkey, ⟨.getWrappedKey, some wrapped⟩ ∈ past ∧ unwrapKey N wrapped password = .ok kp.seckey ∧
    ⟨.getVaultPubkey, some pubkey⟩ ∈ past ∧ base64Decode pubkey = some kp.pubkey

/-- A submission sets the pair that it has drawn if the form says that the user is new, else the stored one. -/
def Sets (N : Nacl) (page : Nat) (password : JsString) (past : List (Reply Browser)) (kp : KeyPair) : Prop :=
  (⟨.submitted page, true⟩ ∈ past ∧ Drawn past kp) ∨ (⟨.submitted page, false⟩ ∈ past ∧ Unlocked N password past kp)

def Asks (N : Nacl) (j : PageJob) (past : List (Reply Browser)) : VaultCall → Prop
  | .setKeypair page (some kp) => ∃ password confirm, j = .submit page password confirm ∧ Sets N page password past kp
  | .setIsNewUser page _ => ∃ kp, ⟨.getKeypair page, some kp⟩ ∈ past
  | .showPage _ shown => shown ≠ .password false
  | .putWrappedKey value => ∃ page password confirm kp salt nonce, j = .submit page password confirm ∧
      Drawn past kp ∧ value = wrapKey N kp.seckey password salt nonce
  | .putVaultPubkey value => ∃ page password confirm kp, j = .submit page password confirm ∧ Drawn past kp ∧
      value = base64Encode kp.pubkey
  | _ => True

/-- The pair has been stored, under the password. -/
def Stored (N : Nacl) (password : JsString) (past : List (Reply Browser)) (kp : KeyPair) : Prop :=
  (∃ salt nonce, ⟨.putWrappedKey (wrapKey N kp.seckey password salt nonce), true⟩ ∈ past) ∧
    ⟨.putVaultPubkey (base64Encode kp.pubkey), true⟩ ∈ past

/-- A submission for a new user has stored what it has drawn. -/
def Replaced (N : Nacl) (page : Nat) (password : JsString) (past : List (Reply Browser)) : Prop :=
  ⟨.submitted page, true⟩ ∈ past → ∃ kp, Drawn past kp ∧ Stored N password past kp

theorem Replaced.after {page : Nat} {password : JsString} {past : List (Reply Browser)}
    (h : Replaced N page password past) {r : Reply Browser} (hr : r.1 ≠ .signKeyPair) (hs : r.1 ≠ .submitted page) :
    Replaced N page password (past ++ [r]) := by
  intro hnew
  rcases List.mem_append.mp hnew with hnew | hnew
  · obtain ⟨kp, hdrawn, ⟨salt, nonce, hput⟩, hput'⟩ := h hnew
    exact ⟨kp, hdrawn.after hr, ⟨salt, nonce, List.mem_append_left _ hput⟩, List.mem_append_left _ hput'⟩
  · obtain rfl := List.mem_singleton.mp hnew
    exact absurd rfl hs

section Spec

variable {P : List (Reply Browser) → VaultCall → Prop} {past : List (Reply Browser)}

/-- A put that has gone well. -/
theorem spec_dbPut {put : Script Bool} {R : List (Reply Browser) → Prop}
    (hput : Spec machine.May P (OnOk fun past' done => done = true → R past') past put) :
    Spec machine.May P (OnOk fun past' _ => R past') past (dbPut put) := by
  unfold dbPut
  refine spec_seq hput (fun past' done h => ?_) fun _ _ _ => trivial
  cases done with
  | false => trivial
  | true => exact h rfl

theorem spec_dbPut_any {put : Script Bool} (hput : Spec machine.May P (fun _ _ => True) past put) :
    Spec machine.May P (fun _ _ => True) past (dbPut put) := by
  unfold dbPut
  refine spec_seq hput (fun past' done _ => ?_) fun _ _ _ => trivial
  cases done with
  | false => trivial
  | true => trivial

theorem createKeypairWithPassword_asks {page : Nat} {password confirm : JsString}
    (hnew : ⟨.submitted page, true⟩ ∈ past) (hnone : ∀ kp, ⟨.signKeyPair, kp⟩ ∉ past) :
    Spec machine.May (Asks N (.submit page password confirm)) (OnOk fun past' _ => Replaced N page password past')
      past (createKeypairWithPassword N page password) := by
  unfold createKeypairWithPassword
  refine spec_ensure_bind.mpr ⟨fun _ => trivial, fun _ => spec_call_bind.mpr ⟨trivial, fun kp _ => ?_⟩⟩
  have hdrawn := drawn_new hnone kp
  refine spec_call_bind.mpr ⟨⟨password, confirm, rfl, .inl ⟨List.mem_append_left _ hnew, hdrawn⟩⟩, fun _ _ => ?_⟩
  refine spec_call_bind.mpr ⟨trivial, fun salt _ => spec_call_bind.mpr ⟨trivial, fun nonce _ => ?_⟩⟩
  have hdrawn := ((hdrawn.after (r := ⟨.setKeypair page (some kp), ()⟩) nofun).after
    (r := ⟨.randomBytes 16, salt⟩) nofun).after (r := ⟨.randomBytes 24, nonce⟩) nofun
  -- each of the four puts has to go well
  refine spec_seq (spec_dbPut (R := fun p => Drawn p kp ∧
    ⟨.putWrappedKey (wrapKey N kp.seckey password salt nonce), true⟩ ∈ p)
    ⟨⟨page, password, confirm, kp, salt, nonce, rfl, hdrawn, rfl⟩, fun done _ hdone =>
      ⟨hdrawn.after nofun, by simp [hdone]⟩⟩) (fun past₁ _ h₁ => ?_) fun _ _ _ => trivial
  obtain ⟨hdrawn, hput⟩ := h₁
  refine spec_seq (spec_dbPut (R := fun p => Drawn p kp ∧ Stored N password p kp)
    ⟨⟨page, password, confirm, kp, rfl, hdrawn, rfl⟩, fun done _ hdone =>
      ⟨hdrawn.after nofun, ⟨salt, nonce, List.mem_append_left _ hput⟩, by simp [hdone]⟩⟩) (fun past₂ _ h₂ => ?_)
    fun _ _ _ => trivial
  have hreplaced : Replaced N page password past₂ := fun _ => ⟨kp, h₂⟩
  refine spec_seq (spec_dbPut (R := Replaced N page password)
    ⟨trivial, fun _ _ _ => hreplaced.after nofun nofun⟩) (fun past₃ _ h₃ => ?_) fun _ _ _ => trivial
  refine spec_call_bind.mpr ⟨trivial, fun searchKey _ => ?_⟩
  exact spec_dbPut ⟨trivial, fun _ _ _ =>
    (Replaced.after (r := ⟨.randomBytes 32, searchKey⟩) h₃ nofun nofun).after nofun nofun⟩

theorem unlockWithPassword_asks {page : Nat} {password confirm : JsString}
    (hold : ⟨.submitted page, false⟩ ∈ past) (hnot : ⟨.submitted page, true⟩ ∉ past) :
    Spec machine.May (Asks N (.submit page password confirm)) (OnOk fun past' _ => Replaced N page password past')
      past (unlockWithPassword N page password) := by
  unfold unlockWithPassword
  refine spec_call_bind.mpr ⟨trivial, fun wrapped _ => spec_orFail_bind.mpr ⟨fun _ => trivial, fun wrapped' hw =>
    spec_ofExcept_bind.mpr ⟨fun _ _ => trivial, fun seckey hseckey => spec_call_bind.mpr ⟨trivial, fun pubkey _ =>
      spec_orFail_bind.mpr ⟨fun _ => trivial, fun pubkey' hpubkey => ?_⟩⟩⟩⟩⟩
  subst hw
  obtain ⟨stored, rfl, hdecode⟩ := Option.bind_eq_some_iff.mp hpubkey
  refine ⟨⟨password, confirm, rfl, .inr ⟨by simp [hold], wrapped', stored, by simp, hseckey, by simp, hdecode⟩⟩,
    fun _ _ hnew => absurd hnew (by simp [hnot])⟩

theorem handlePasswordSubmit_asks (page : Nat) (password confirm : JsString) :
    Spec machine.May (Asks N (.submit page password confirm)) (OnOk fun past' _ => Replaced N page password past')
      [] (handlePasswordSubmit N page password confirm) := by
  unfold handlePasswordSubmit
  refine spec_call_bind.mpr ⟨trivial, fun isNewUser _ => spec_ensure_bind.mpr ⟨fun _ => trivial, fun _ =>
    spec_ensure_bind.mpr ⟨fun _ => trivial, fun _ => spec_call_bind.mpr ⟨trivial, fun loaded _ =>
      spec_ensure_bind.mpr ⟨fun _ => trivial, fun _ => ?_⟩⟩⟩⟩⟩
  have hconnect : ∀ past', Replaced N page password past' →
      Spec machine.May (Asks N (.submit page password confirm)) (OnOk fun past' _ => Replaced N page password past')
        past' (do
          let keypair ← invoke (.getKeypair page)
          let connected ← invoke (.login keypair)
          ensure connected "Authentication failed") := fun past' h =>
    spec_call_bind.mpr ⟨trivial, fun keypair _ => spec_call_bind.mpr ⟨trivial, fun connected _ =>
      spec_ensure.mpr ⟨fun _ => trivial, fun _ =>
        (Replaced.after (r := ⟨.getKeypair page, keypair⟩) h nofun nofun).after nofun nofun⟩⟩⟩
  cases isNewUser with
  | true =>
    exact spec_seq (createKeypairWithPassword_asks (by simp) (by simp)) (fun past' _ h => hconnect past' h)
      fun _ _ _ => trivial
  | false =>
    exact spec_seq (unlockWithPassword_asks (by simp) (by simp)) (fun past' _ h => hconnect past' h)
      fun _ _ _ => trivial

theorem navigate_asks {j : PageJob} (page : Nat) (hash : Hash) :
    Spec machine.May (Asks N j) (fun _ _ => True) past (navigate page hash) := by
  have hform : Shown.password true ≠ .password false := by decide
  unfold navigate
  refine spec_call_bind.mpr ⟨trivial, fun keypair _ => ?_⟩
  cases keypair with
  | none => exact ⟨hform, fun _ _ => trivial⟩
  | some kp =>
    cases hash with
    | login =>
      refine spec_call_bind.mpr ⟨hform, fun _ _ => ?_⟩
      unfold initPasswordPage
      exact spec_call_bind.mpr ⟨trivial, fun wrapped _ => ⟨⟨kp, by simp⟩, fun _ _ => trivial⟩⟩
    | unknown => trivial
    | home => exact ⟨nofun, fun _ _ => trivial⟩
    | page => exact ⟨nofun, fun _ _ => trivial⟩

theorem logout_asks {j : PageJob} (page : Nat) :
    Spec machine.May (Asks N j) (fun _ _ => True) past (logout page) := by
  unfold logout
  refine spec_call_bind.mpr ⟨trivial, fun _ _ => ?_⟩
  refine spec_seq (spec_dbPut_any ⟨trivial, fun _ _ => trivial⟩) (fun _ _ _ => ?_) fun _ _ _ => trivial
  refine spec_seq (spec_dbPut_any ⟨trivial, fun _ _ => trivial⟩) (fun _ _ _ => ?_) fun _ _ _ => trivial
  refine spec_seq (spec_dbPut_any ⟨trivial, fun _ _ => trivial⟩) (fun _ _ _ => ?_) fun _ _ _ => trivial
  exact navigate_asks page .login

end Spec

/-- What is known of a process that has ended well. -/
def Ends (N : Nacl) : PageJob → List (Reply Browser) → Except String Unit → Prop
  | .submit page password _ => OnOk fun past _ => Replaced N page password past
  | _ => fun _ _ => True

theorem program_asks (j : PageJob) : Spec machine.May (Asks N j) (Ends N j) [] (program N j) := by
  cases j with
  | navigate page hash => exact navigate_asks page hash
  | submit page password confirm => exact handlePasswordSubmit_asks page password confirm
  | logout page => exact logout_asks page

/-! ## Where the state comes from -/

/-- What a call does to the world. -/
inductive Changes (w : World) : VaultCall → World → Prop
  | nothing (c : VaultCall) : Changes w c w
  | keypair (page : Nat) (kp : Option KeyPair) :
      Changes w (.setKeypair page kp) (w.onPage page fun p => { p with keypair := kp })
  | shown (page : Nat) (shown : Shown) :
      Changes w (.showPage page shown) (w.onPage page fun p => { p with shown := shown })
  | isNewUser (page : Nat) (value : Bool) :
      Changes w (.setIsNewUser page value) (w.onPage page fun p => { p with shown := .password value })
  | wrappedKey (value : WrappedKey) :
      Changes w (.putWrappedKey value) { w with vault := { w.vault with wrappedKey := some value } }
  | pubkey (value : String) :
      Changes w (.putVaultPubkey value) { w with vault := { w.vault with pubkey := some value } }
  | searchKey (value : String) :
      Changes w (.putSearchKey value) { w with vault := { w.vault with searchKey := some value } }
  | cleared : Changes w .clearKeyvault { w with vault := {} }

theorem answer_changes {c : VaultCall} {e : Outcome} {w w' : World} {a : c.Ans}
    (h : machine.answer c e w = some (a, w')) : Changes w c w' := by
  cases c with
  | setKeypair page kp =>
    obtain ⟨_, rfl⟩ := Prod.mk.inj (Option.some.inj h)
    exact .keypair page kp
  | showPage page shown =>
    obtain ⟨_, rfl⟩ := Prod.mk.inj (Option.some.inj h)
    exact .shown page shown
  | submitted page =>
    simp only [machine] at h
    split at h
    · obtain ⟨_, rfl⟩ := Prod.mk.inj (Option.some.inj h)
      exact .nothing _
    · cases h
  | setIsNewUser page value =>
    simp only [machine] at h
    split at h <;> obtain ⟨_, rfl⟩ := Prod.mk.inj (Option.some.inj h)
    · exact .isNewUser page value
    · exact .nothing _
  | randomBytes n =>
    simp only [machine] at h
    split at h
    · obtain ⟨_, rfl⟩ := Prod.mk.inj (Option.some.inj h)
      exact .nothing _
    · cases h
  | putWrappedKey value =>
    simp only [machine] at h
    split at h <;> obtain ⟨_, rfl⟩ := Prod.mk.inj (Option.some.inj h)
    · exact .nothing _
    · exact .wrappedKey value
  | putVaultPubkey value =>
    simp only [machine] at h
    split at h <;> obtain ⟨_, rfl⟩ := Prod.mk.inj (Option.some.inj h)
    · exact .nothing _
    · exact .pubkey value
  | putSearchKey value =>
    simp only [machine] at h
    split at h <;> obtain ⟨_, rfl⟩ := Prod.mk.inj (Option.some.inj h)
    · exact .nothing _
    · exact .searchKey value
  | clearKeyvault =>
    simp only [machine] at h
    split at h <;> obtain ⟨_, rfl⟩ := Prod.mk.inj (Option.some.inj h)
    · exact .nothing _
    · exact .cleared
  | _ =>
    obtain ⟨_, rfl⟩ := Prod.mk.inj (Option.some.inj h)
    exact .nothing _

theorem shown_of_submitted {page : Nat} {value : Bool} {e : Outcome} {w w' : World}
    (h : machine.answer (.submitted page) e w = some (value, w')) : (w.pages page).shown = .password value := by
  simp only [machine] at h
  split at h
  · rename_i isNewUser hshown
    obtain ⟨rfl, _⟩ := Prod.mk.inj (Option.some.inj h)
    exact hshown
  · cases h

/-- What `onPage` leaves as it is. -/
theorem onPage_same {β : Type} {q : Page → β} {f : Page → Page} {w : World} {page page' : Nat} {b : β}
    (h : q ((w.onPage page f).pages page') = b) (hf : ∀ p, q (f p) = q p) : q (w.pages page') = b := by
  by_cases hpage : page' = page
  · subst hpage
    simpa [World.onPage, hf] using h
  · simpa [World.onPage, hpage] using h

section Changes

variable {w w' : World} {c : VaultCall}

theorem Changes.sets_keypair (h : Changes w c w') {page : Nat} {kp : KeyPair}
    (hkp : (w'.pages page).keypair = some kp) :
    (w.pages page).keypair = some kp ∨ c = .setKeypair page (some kp) := by
  cases h with
  | keypair page' kp' =>
    by_cases hpage : page = page'
    · subst hpage
      obtain rfl : kp' = some kp := by simpa [World.onPage] using hkp
      exact .inr rfl
    · exact .inl (by simpa [World.onPage, hpage] using hkp)
  | shown page' shown => exact .inl (onPage_same (q := Page.keypair) hkp fun _ => rfl)
  | isNewUser page' value => exact .inl (onPage_same (q := Page.keypair) hkp fun _ => rfl)
  | _ => exact .inl hkp

theorem Changes.sets_shown (h : Changes w c w') {page : Nat} {shown : Shown} (hshown : (w'.pages page).shown = shown) :
    (w.pages page).shown = shown ∨ c = .showPage page shown ∨
      ∃ value, c = .setIsNewUser page value ∧ shown = .password value := by
  cases h with
  | keypair page' kp' => exact .inl (onPage_same (q := Page.shown) hshown fun _ => rfl)
  | shown page' shown' =>
    by_cases hpage : page = page'
    · subst hpage
      obtain rfl : shown' = shown := by simpa [World.onPage] using hshown
      exact .inr (.inl rfl)
    · exact .inl (by simpa [World.onPage, hpage] using hshown)
  | isNewUser page' value =>
    by_cases hpage : page = page'
    · subst hpage
      exact .inr (.inr ⟨value, rfl, by simpa [World.onPage] using hshown.symm⟩)
    · exact .inl (by simpa [World.onPage, hpage] using hshown)
  | _ => exact .inl hshown

theorem Changes.puts_wrappedKey (h : Changes w c w') {value : WrappedKey} (hvalue : w'.vault.wrappedKey = some value) :
    w.vault.wrappedKey = some value ∨ c = .putWrappedKey value := by
  cases h with
  | wrappedKey value' => exact .inr (congrArg _ (Option.some.inj hvalue))
  | cleared => cases hvalue
  | _ => exact .inl hvalue

theorem Changes.puts_pubkey (h : Changes w c w') {value : String} (hvalue : w'.vault.pubkey = some value) :
    w.vault.pubkey = some value ∨ c = .putVaultPubkey value := by
  cases h with
  | pubkey value' => exact .inr (congrArg _ (Option.some.inj hvalue))
  | cleared => cases hvalue
  | _ => exact .inl hvalue

end Changes

theorem Reaches.asks (h : Reaches N vault g) {ev : VaultEvent} (hev : ev ∈ g.history) :
    Asks N ev.job ev.past ev.reply.1 :=
  (Reachable.event (fun _ j _ => program_asks j) h ev hev).1

section Seen

variable {l l' : List VaultEvent} {ev : VaultEvent} (hl : g.history = l ++ ev :: l')

include hl

theorem Reaches.keypair_seen (h : Reaches N vault g) {page : Nat} {kp : KeyPair}
    (hget : ⟨.getKeypair page, some kp⟩ ∈ ev.past) : ∃ e ∈ l, e.reply.1 = .setKeypair page (some kp) :=
  Reachable.shown_made_by (K := fun w => (w.pages page).keypair = some kp)
    (E := fun r => r.1 = VaultCall.setKeypair page (some kp)) h hl hget
    (fun ha => (Prod.mk.inj (Option.some.inj ha)).1) (by simp)
    (fun ha hK => (answer_changes ha).sets_keypair hK)

/-- Only `initPasswordPage` makes a form one for a user who is not new. -/
theorem Reaches.oldUser_seen (h : Reaches N vault g) {page : Nat} (hold : ⟨.submitted page, false⟩ ∈ ev.past) :
    ∃ e ∈ l, e.reply.1 = .setIsNewUser page false := by
  obtain ⟨e, he, hshow | ⟨value, hvalue, heq⟩⟩ := Reachable.shown_made_by
    (K := fun w => (w.pages page).shown = .password false)
    (E := fun r => r.1 = VaultCall.showPage page (.password false) ∨
      ∃ value, r.1 = VaultCall.setIsNewUser page value ∧ Shown.password false = .password value)
    h hl hold shown_of_submitted (by simp) (fun ha hK => (answer_changes ha).sets_shown hK)
  · have hasks : Asks N e.job e.past e.reply.1 := h.asks (by simp [hl, he])
    rw [hshow] at hasks
    exact absurd rfl hasks
  · obtain rfl := Shown.password.inj heq
    exact ⟨e, he, hvalue⟩

theorem Reaches.wrappedKey_seen (h : Reaches N {} g) {value : WrappedKey}
    (hread : ⟨.getWrappedKey, some value⟩ ∈ ev.past) : ∃ e ∈ l, e.reply.1 = .putWrappedKey value :=
  Reachable.shown_made_by (K := fun w => w.vault.wrappedKey = some value)
    (E := fun r => r.1 = VaultCall.putWrappedKey value) h hl hread
    (fun ha => (Prod.mk.inj (Option.some.inj ha)).1) (by simp)
    (fun ha hK => (answer_changes ha).puts_wrappedKey hK)

theorem Reaches.pubkey_seen (h : Reaches N {} g) {value : String}
    (hread : ⟨.getVaultPubkey, some value⟩ ∈ ev.past) : ∃ e ∈ l, e.reply.1 = .putVaultPubkey value :=
  Reachable.shown_made_by (K := fun w => w.vault.pubkey = some value)
    (E := fun r => r.1 = VaultCall.putVaultPubkey value) h hl hread
    (fun ha => (Prod.mk.inj (Option.some.inj ha)).1) (by simp)
    (fun ha hK => (answer_changes ha).puts_pubkey hK)

end Seen

/-! ## The first identity -/

/-- A form that is not for a new user is submitted after the page has had a key pair. -/
theorem Reaches.keypair_before_unlock (h : Reaches N vault g) {l l' : List VaultEvent} {ev : VaultEvent}
    (hl : g.history = l ++ ev :: l') {page : Nat} (hold : ⟨.submitted page, false⟩ ∈ ev.past) :
    ∃ e ∈ l, ∃ kp, e.reply.1 = .setKeypair page (some kp) := by
  -- the input has been set, with a key pair in memory
  obtain ⟨set, hset, hcall⟩ := h.oldUser_seen hl hold
  have hasks : Asks N set.job set.past set.reply.1 := h.asks (by simp [hl, hset])
  rw [hcall] at hasks
  obtain ⟨kp, hget⟩ := hasks
  obtain ⟨l₁, l₂, rfl⟩ := List.append_of_mem hset
  have hsplit : g.history = l₁ ++ set :: (l₂ ++ ev :: l') := by simp [hl]
  obtain ⟨first, hfirst, hkp⟩ := h.keypair_seen hsplit hget
  exact ⟨first, List.mem_append_left _ hfirst, kp, hkp⟩

/-- **The first key pair of a page is a new one.** Whatever the vault holds, and whatever other pages do, the
first key pair that a page gets has just been drawn; and if that submission ends well it has been stored, over the
records that were there. -/
theorem first_identity_is_new (h : Reaches N vault g) {l l' : List VaultEvent} {ev : VaultEvent} {page : Nat}
    {kp : KeyPair} (hl : g.history = l ++ ev :: l') (hset : ev.reply.1 = .setKeypair page (some kp))
    (hfirst : ∀ e ∈ l, ∀ kp', e.reply.1 ≠ .setKeypair page (some kp')) :
    ⟨.signKeyPair, kp⟩ ∈ ev.past ∧
      ∀ p, g.procs[ev.pid]? = some p → p.prog.result = some (.ok ()) →
        ∃ password confirm, p.job = .submit page password confirm ∧ Stored N password p.past kp := by
  have hev : ev ∈ g.history := by simp [hl]
  have hasks := h.asks hev
  rw [hset] at hasks
  obtain ⟨password, confirm, hjob, ⟨hnew, hdrawn⟩ | ⟨hold, _⟩⟩ := hasks
  · refine ⟨hdrawn.1, fun p hp hok => ⟨password, confirm, ?_⟩⟩
    obtain ⟨q, hq, hqjob⟩ := Reachable.event_job h ev hev
    obtain rfl := Option.some.inj (hp.symm.trans hq)
    have hpast : ev.past ⊆ p.past := fun r hr =>
      (Reachable.event_begins h hev hp).subset (List.mem_append_left _ hr)
    have hends := Reachable.post (fun _ j _ => program_asks j) h (List.mem_of_getElem? hp) hok
    rw [hqjob, hjob] at hends
    obtain ⟨kp', hdrawn', hstored⟩ := hends (hpast hnew)
    obtain rfl := hdrawn'.2 kp (hpast hdrawn.1)
    exact ⟨hqjob.trans hjob, hstored⟩
  · obtain ⟨e, he, kp', hkp'⟩ := h.keypair_before_unlock hl hold
    exact absurd hkp' (hfirst e he kp')

/-! ## Where an unlocked pair comes from -/

/-- Process `pid` has drawn the pair for this password. -/
def CreatedBy (l : List VaultEvent) (pid : Nat) (password : JsString) (kp : KeyPair) : Prop :=
  ∃ ev ∈ l, ev.pid = pid ∧ (∃ page confirm, ev.job = .submit page password confirm) ∧ Drawn ev.past kp

/-- A process draws one pair. -/
theorem Reaches.created_unique (h : Reaches N vault g) {pid : Nat} {password password' : JsString} {kp kp' : KeyPair}
    (hkp : CreatedBy g.history pid password kp) (hkp' : CreatedBy g.history pid password' kp') : kp = kp' := by
  obtain ⟨ev, hev, rfl, _, hdrawn⟩ := hkp
  obtain ⟨ev', hev', hpid, _, hdrawn'⟩ := hkp'
  obtain ⟨p, hp, _⟩ := Reachable.event_job h ev hev
  have hpre := (List.prefix_append ev.past _).trans (Reachable.event_begins h hev hp)
  have hpre' := (List.prefix_append ev'.past _).trans (Reachable.event_begins h hev' (hpid ▸ hp))
  rcases List.prefix_or_prefix_of_prefix hpre hpre' with hsub | hsub
  · exact hdrawn'.2 kp (hsub.subset hdrawn.1)
  · exact (hdrawn.2 kp' (hsub.subset hdrawn'.1)).symm

/-- What a process has read of the vault, a creation has put there. -/
theorem Reaches.read_wrappedKey (h : Reaches N {} g) {ev : VaultEvent} (hev : ev ∈ g.history) {value : WrappedKey}
    (hread : ⟨.getWrappedKey, some value⟩ ∈ ev.past) :
    ∃ pid password kp salt nonce, CreatedBy g.history pid password kp ∧
      value = wrapKey N kp.seckey password salt nonce := by
  obtain ⟨l, l', hl⟩ := List.append_of_mem hev
  obtain ⟨put, hput, hcall⟩ := h.wrappedKey_seen hl hread
  have hput : put ∈ g.history := by simp [hl, hput]
  have hasks := h.asks hput
  rw [hcall] at hasks
  obtain ⟨page, password, confirm, kp, salt, nonce, hjob, hdrawn, rfl⟩ := hasks
  exact ⟨put.pid, password, kp, salt, nonce, ⟨put, hput, rfl, ⟨page, confirm, hjob⟩, hdrawn⟩, rfl⟩

theorem Reaches.read_pubkey (h : Reaches N {} g) {ev : VaultEvent} (hev : ev ∈ g.history) {value : String}
    (hread : ⟨.getVaultPubkey, some value⟩ ∈ ev.past) :
    ∃ pid password kp, CreatedBy g.history pid password kp ∧ value = base64Encode kp.pubkey := by
  obtain ⟨l, l', hl⟩ := List.append_of_mem hev
  obtain ⟨put, hput, hcall⟩ := h.pubkey_seen hl hread
  have hput : put ∈ g.history := by simp [hl, hput]
  have hasks := h.asks hput
  rw [hcall] at hasks
  obtain ⟨page, password, confirm, kp, hjob, hdrawn, rfl⟩ := hasks
  exact ⟨put.pid, password, kp, ⟨put, hput, rfl, ⟨page, confirm, hjob⟩, hdrawn⟩, rfl⟩

namespace VaultSample

/-- A box that is not closed. -/
def nacl : Nacl where
  deriveKey _ _ := []
  secretbox m _ _ := m
  secretboxOpen b _ _ := some b
  open_secretbox _ _ _ := rfl

def password : JsString := List.replicate 12 0x61

def salt : Bytes := List.replicate 16 1

def nonce : Bytes := List.replicate 24 2

def oldPair : KeyPair := ⟨[1], [2]⟩

def newPair : KeyPair := ⟨[3], [4]⟩

/-- The vault of a user who has an identity. -/
def stored : Vault where
  wrappedKey := some (wrapKey nacl oldPair.seckey password salt nonce)
  pubkey := some (base64Encode oldPair.pubkey)

/-- A page is loaded and its form submitted. -/
def creating : List (Label PageJob Outcome) :=
  [.spawn (.navigate 0 .login), .act 0 {}, .act 0 {}, .spawn (.submit 0 password password), .act 1 {}, .act 1 {},
    .act 1 { keypair := newPair }, .act 1 {}, .act 1 { bytes := salt }, .act 1 { bytes := nonce }, .act 1 {}, .act 1 {},
    .act 1 {}, .act 1 { bytes := List.replicate 32 0 }, .act 1 {}, .act 1 {}, .act 1 {}]

/-- The user goes back to the form, which is one for a stored identity now. -/
def unlocking : List (Label PageJob Outcome) :=
  [.spawn (.navigate 0 .login), .act 2 {}, .act 2 {}, .act 2 {}, .act 2 {}, .spawn (.submit 0 password []), .act 3 {},
    .act 3 {}, .act 3 {}, .act 3 {}, .act 3 {}]

def setsKeypair (page : Nat) : VaultCall → Bool
  | .setKeypair page' (some _) => page' = page
  | _ => false

def endedWell : Script Unit → Bool
  | .ret _ => true
  | _ => false

theorem result_of_endedWell {x : Script Unit} (h : endedWell x = true) : x.result = some (.ok ()) := by
  cases x with
  | ret a => rfl
  | fail e => cases h
  | step c k => cases h

/-- The sixth call gives the page its first pair, and the submission ends well. -/
def creates (g : VaultSystem) : Bool :=
  (g.history[5]?.any fun ev => ev.reply.1 = .setKeypair 0 (some newPair) ∧ ev.pid = 1) &&
    (g.history.take 5).all (fun e => !setsKeypair 0 e.reply.1) && g.procs[1]?.any fun p => endedWell p.prog

theorem run_creates :
    (Config.run machine (program nacl) creating ⟨⟨stored, fun _ => {}⟩, [], []⟩).any creates = true := by
  decide +kernel

/-- The last call gives the page the pair that it has put together. -/
def unlocks (g : VaultSystem) : Bool :=
  g.history.getLast?.any fun ev => ev.reply.1 = .setKeypair 0 (some newPair) ∧ ev.job = .submit 0 password []

theorem run_unlocks :
    (Config.run machine (program nacl) (creating ++ unlocking) ⟨⟨{}, fun _ => {}⟩, [], []⟩).any unlocks = true := by
  decide +kernel

end VaultSample

open VaultSample in
/-- The user had an identity, and gets a new one. -/
theorem first_identity_is_new_sample : ∃ g ev p, Reaches nacl stored g ∧ ev ∈ g.history ∧
    ev.reply.1 = .setKeypair 0 (some newPair) ∧ ⟨.signKeyPair, newPair⟩ ∈ ev.past ∧ p ∈ g.procs ∧
    ∃ password confirm, p.job = .submit 0 password confirm ∧ Stored nacl password p.past newPair := by
  obtain ⟨g, hrun, hcreates⟩ := (Option.any_eq_true _ _).mp run_creates
  have hg : Reaches nacl stored g := Reachable.of_run (fun _ _ _ => trivial) Reachable.init hrun
  simp only [creates, Bool.and_eq_true] at hcreates
  obtain ⟨⟨hset, hbefore⟩, hended⟩ := hcreates
  obtain ⟨ev, hget, hev⟩ := (Option.any_eq_true _ _).mp hset
  obtain ⟨hcall, hpid⟩ := of_decide_eq_true hev
  obtain ⟨p, hp, hok⟩ := (Option.any_eq_true _ _).mp hended
  obtain ⟨hlt, rfl⟩ := List.getElem?_eq_some_iff.mp hget
  have hl : g.history = g.history.take 5 ++ g.history[5] :: g.history.drop 6 :=
    (List.take_append_drop 5 g.history).symm.trans (congrArg _ (List.drop_eq_getElem_cons hlt))
  obtain ⟨hnew, hstored⟩ := first_identity_is_new hg hl hcall fun e he kp' hkp' => by
    have hnone := List.all_eq_true.mp hbefore e he
    simp [hkp', setsKeypair] at hnone
  have hpage := hstored p (by rw [hpid]; exact hp) (result_of_endedWell hok)
  exact ⟨g, g.history[5], p, hg, List.getElem_mem hlt, hcall, hnew, List.mem_of_getElem? hp, hpage⟩

end TorMarketplace.KeyVault
