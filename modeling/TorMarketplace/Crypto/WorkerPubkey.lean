import TorMarketplace.Background.Amounts
import TorMarketplace.Crypto.Zk

/-!
# The worker's payment key

`crypto/worker_pubkey.rs`: the X25519 key that clients encrypt orders to is derived from the worker key. The
API learns it from its environment, from the configuration, or from a file that the worker leaves in the data
directory. Only the file is checked for the form of a key; `readDevPubkeyFile_take` is the round trip through
it, also of a write that stopped halfway.
-/

namespace TorMarketplace

open Encoding

/-- `payment_pubkey_hex_from_worker_key`. -/
def paymentPubkeyHexFromWorkerKey (P : Primitives) (workerKey : ByteArr 32) : String :=
  let paymentSk := deriveDomainKey P workerKey.val "payment-decrypt"
  hexEncode (x25519PublicKey P paymentSk)

/-- `char::is_ascii_hexdigit`. -/
def isAsciiHexdigit (c : Char) : Bool :=
  c.isDigit || ('a' ≤ c && c ≤ 'f') || ('A' ≤ c && c ≤ 'F')

/-- `read_dev_pubkey_file`, of the contents of the file, if it is there and is text. -/
def readDevPubkeyFile (contents : Option String) : Option String :=
  contents.bind fun contents =>
    let trimmed := trim contents.toList
    if byteLen trimmed = 64 && trimmed.all isAsciiHexdigit then
      some (String.ofList (trimmed.map Char.toLower))
    else none

/-- The text without the white space around it, unless nothing is left. -/
def nonBlank (text : Option String) : Option String :=
  text.bind fun v =>
    let t := trim v.toList
    if t.isEmpty then none else some (String.ofList t)

/-- `resolve_worker_payment_pubkey`: environment, configuration, file. -/
def resolveWorkerPaymentPubkey (envHex configHex contents : Option String) : Option String :=
  (nonBlank envHex).or ((nonBlank configHex).or (readDevPubkeyFile contents))

/-! ## A key as text -/

theorem trim_of_forall {l : List Char} (h : ∀ c ∈ l, isUnicodeSpace c = false) : trim l = l := by
  have hdrop : ∀ l : List Char, (∀ c ∈ l, isUnicodeSpace c = false) → l.dropWhile isUnicodeSpace = l := by
    intro l h
    cases l with
    | nil => rfl
    | cons c l => rw [List.dropWhile_cons_of_neg (by simp [h c List.mem_cons_self])]
  rw [trim, hdrop l h, hdrop l.reverse (fun c hc => h c (List.mem_reverse.mp hc)), List.reverse_reverse]

/-- What the digits of a key are like. -/
theorem hexNibble_spec : ∀ n < 16, isUnicodeSpace (hexNibble (UInt8.ofNat n)) = false ∧
    isAsciiHexdigit (hexNibble (UInt8.ofNat n)) = true ∧
    (hexNibble (UInt8.ofNat n)).toLower = hexNibble (UInt8.ofNat n) ∧
    (hexNibble (UInt8.ofNat n)).toNat < 128 := by
  decide +kernel

/-- A text of such digits. -/
def HexDigits (l : List Char) : Prop := ∀ c ∈ l, ∃ n < 16, hexNibble (UInt8.ofNat n) = c

theorem hexDigits_hexEncode (b : Bytes) : HexDigits (hexEncode b).toList := by
  intro c hc
  rw [hexEncode, String.toList_ofList] at hc
  exact mem_hexEncode hc

section HexDigits

variable {l : List Char} (h : HexDigits l)

include h

theorem HexDigits.trim : trim l = l :=
  trim_of_forall fun c hc => by
    obtain ⟨n, hn, rfl⟩ := h c hc
    exact (hexNibble_spec n hn).1

theorem HexDigits.all : l.all isAsciiHexdigit = true :=
  List.all_eq_true.mpr fun c hc => by
    obtain ⟨n, hn, rfl⟩ := h c hc
    exact (hexNibble_spec n hn).2.1

theorem HexDigits.map_toLower : l.map Char.toLower = l := by
  refine List.map_congr_left (fun c hc => ?_) |>.trans l.map_id
  obtain ⟨n, hn, rfl⟩ := h c hc
  exact (hexNibble_spec n hn).2.2.1

theorem HexDigits.byteLen : byteLen l = l.length := by
  rw [TorMarketplace.byteLen, utf8_ascii fun c hc => ?_, List.length_map]
  obtain ⟨n, hn, rfl⟩ := h c hc
  exact (hexNibble_spec n hn).2.2.2

end HexDigits

theorem length_hexEncode (b : Bytes) : (hexEncode b).toList.length = 2 * b.length := by
  rw [hexEncode, String.toList_ofList]
  induction b with
  | nil => rfl
  | cons x b ih =>
    simp only [List.flatMap_cons, List.length_append, ih, List.length_cons, List.length_nil]
    omega

/-- **The file there and back**: what is read of the first `n` digits of a key is the key, if they are all. -/
theorem readDevPubkeyFile_take {b : Bytes} (hb : b.length = 32) (n : Nat) :
    readDevPubkeyFile (some (String.ofList ((hexEncode b).toList.take n))) =
      if 64 ≤ n then some (hexEncode b) else none := by
  have hlength : (hexEncode b).toList.length = 64 := by rw [length_hexEncode, hb]
  have hdigits : HexDigits ((hexEncode b).toList.take n) :=
    fun c hc => hexDigits_hexEncode b c (List.mem_of_mem_take hc)
  simp only [readDevPubkeyFile, Option.bind_some, String.toList_ofList, hdigits.trim, hdigits.byteLen, hdigits.all,
    hdigits.map_toLower, List.length_take, hlength, Bool.and_true, decide_eq_true_eq]
  by_cases hn : 64 ≤ n
  · rw [if_pos (Nat.min_eq_right hn), if_pos hn, List.take_of_length_le (hlength ▸ hn), String.ofList_toList]
  · rw [if_neg (by omega), if_neg hn]

end TorMarketplace
