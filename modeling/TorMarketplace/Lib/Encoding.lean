import Mathlib.Algebra.Group.Int.Defs
import Mathlib.Algebra.Group.Nat.Defs
import Mathlib.Data.List.Basic

/-!
# Byte strings and their text encodings

UTF-8 text and its pieces, hexadecimal, base64 with canonical padding, decimal numbers and little-endian words,
all as total functions on lists of bytes or characters. The decoders are strict: a decoder returns
`none` where the text is not of the format.
-/

namespace Encoding

abbrev Bytes := List UInt8

/-! ## UTF-8 -/

/-- The UTF-8 bytes of a text. -/
def utf8 (s : String) : Bytes := s.toUTF8.data.toList

/-- The text that `b` is the UTF-8 encoding of. -/
def ofUtf8 (b : Bytes) : Option String := String.fromUTF8? ⟨b.toArray⟩

@[simp] theorem ofUtf8_utf8 (s : String) : ofUtf8 (utf8 s) = some s := by
  simp only [ofUtf8, utf8, String.fromUTF8?, String.toUTF8_eq_toByteArray, Array.toArray_toList,
    Option.dite_none_right_eq_some]
  exact ⟨s.isValidUTF8, rfl⟩

theorem utf8_inj {s t : String} (h : utf8 s = utf8 t) : s = t := by
  have : ofUtf8 (utf8 s) = ofUtf8 (utf8 t) := by rw [h]
  simpa using this

theorem utf8_ofUtf8 {b : Bytes} {s : String} (h : ofUtf8 b = some s) : utf8 s = b := by
  unfold ofUtf8 String.fromUTF8? at h
  split at h
  · obtain rfl := Option.some.inj h
    rw [utf8, String.toUTF8_eq_toByteArray]
    rfl
  · exact absurd h (by simp)

/-- UTF-8 is a prefix code. -/
theorem utf8_prefix {s t : String} (h : utf8 s <+: utf8 t) : s.toList <+: t.toList := by
  obtain ⟨rest, hrest⟩ := h
  refine List.isPrefix_of_utf8Encode_append_eq_utf8Encode rest.toByteArray ?_
  rw [String.utf8Encode_toList, String.utf8Encode_toList]
  apply ByteArray.ext
  apply Array.toList_inj.mp
  rw [ByteArray.data_append, Array.toList_append, List.data_toByteArray]
  exact hrest

theorem utf8_ofList (l : List Char) : utf8 (String.ofList l) = l.flatMap String.utf8EncodeChar := by
  unfold utf8
  rw [String.toUTF8_eq_toByteArray, String.toByteArray_ofList, List.utf8Encode,
    List.data_toByteArray]

theorem utf8_append (s t : String) : utf8 (s ++ t) = utf8 s ++ utf8 t := by
  unfold utf8
  rw [String.toUTF8_eq_toByteArray, String.toByteArray_append, ByteArray.data_append,
    Array.toList_append]
  rfl

/-- A text in ASCII has one byte for each character. -/
theorem utf8_ascii {l : List Char} (h : ∀ c ∈ l, c.toNat < 128) :
    utf8 (String.ofList l) = l.map fun c => c.toNat.toUInt8 := by
  rw [utf8_ofList]
  induction l with
  | nil => rfl
  | cons c l ih =>
    have hc : c.utf8Size = 1 :=
      Char.utf8Size_eq_one_iff.mpr (Nat.le_of_lt_succ (h c List.mem_cons_self))
    rw [List.flatMap_cons, List.map_cons, ih fun c' hc' => h c' (List.mem_cons_of_mem c hc'),
      String.utf8EncodeChar_eq_singleton hc, List.singleton_append]
    rfl

/-- The pieces between the characters that `p` picks, as `str::split` returns them. -/
def splitOn (p : Char → Bool) : List Char → List (List Char)
  | [] => [[]]
  | c :: cs =>
    match splitOn p cs with
    | piece :: pieces => if p c then [] :: piece :: pieces else (c :: piece) :: pieces
    | [] => [[]]

theorem splitOn_ne_nil (p : Char → Bool) : ∀ l, splitOn p l ≠ []
  | [] => by simp [splitOn]
  | c :: cs => by
    rw [splitOn]
    split
    · split <;> simp
    · simp

/-- A text without separators is one piece. -/
theorem splitOn_single {p : Char → Bool} {l : List Char} (h : ∀ c ∈ l, p c = false) :
    splitOn p l = [l] := by
  induction l with
  | nil => rfl
  | cons c l ih =>
    rw [splitOn, ih fun c' hc' => h c' (List.mem_cons_of_mem c hc')]
    simp [h c List.mem_cons_self]

/-- A piece ends at a separator. -/
theorem splitOn_cons {p : Char → Bool} {l : List Char} (h : ∀ c ∈ l, p c = false) {c : Char}
    (hc : p c = true) (rest : List Char) : splitOn p (l ++ c :: rest) = l :: splitOn p rest := by
  induction l with
  | nil =>
    rw [List.nil_append, splitOn]
    cases hrest : splitOn p rest with
    | nil => exact absurd hrest (splitOn_ne_nil p rest)
    | cons piece pieces => simp [hc]
  | cons c' l ih =>
    rw [List.cons_append, splitOn, ih fun c hc => h c (List.mem_cons_of_mem c' hc)]
    simp [h c' List.mem_cons_self]

/-- The first piece of a text: up to the first separator, or all of it. -/
theorem splitOn_eq_cons {p : Char → Bool} {l w : List Char} {rest : List (List Char)} :
    splitOn p l = w :: rest ↔ (∀ c ∈ w, p c = false) ∧
      (l = w ∧ rest = [] ∨ ∃ c t, p c = true ∧ l = w ++ c :: t ∧ splitOn p t = rest) := by
  constructor
  · induction l generalizing w rest with
    | nil =>
      intro h
      obtain ⟨rfl, rfl⟩ := List.cons.inj h
      exact ⟨fun c hc => absurd hc List.not_mem_nil, .inl ⟨rfl, rfl⟩⟩
    | cons c cs ih =>
      intro h
      rw [splitOn] at h
      cases hcs : splitOn p cs with
      | nil => exact absurd hcs (splitOn_ne_nil p cs)
      | cons piece pieces =>
        rw [hcs] at h
        by_cases hc : p c = true
        · simp only [hc, if_true] at h
          obtain ⟨rfl, rfl⟩ := List.cons.inj h
          exact ⟨fun c hc => absurd hc List.not_mem_nil, .inr ⟨c, cs, hc, rfl, hcs⟩⟩
        · simp only [hc] at h
          obtain ⟨rfl, rfl⟩ := List.cons.inj h
          obtain ⟨hno, hrest⟩ := ih hcs
          refine ⟨fun x hx => ?_, ?_⟩
          · rcases List.mem_cons.mp hx with rfl | hx
            · exact Bool.eq_false_iff.mpr hc
            · exact hno x hx
          · rcases hrest with ⟨rfl, rfl⟩ | ⟨d, t, hd, rfl, ht⟩
            · exact .inl ⟨rfl, rfl⟩
            · exact .inr ⟨d, t, hd, rfl, ht⟩
  · rintro ⟨hno, ⟨rfl, rfl⟩ | ⟨c, t, hc, rfl, rfl⟩⟩
    · exact splitOn_single hno
    · exact splitOn_cons hno hc t

theorem splitOn_eq_singleton {p : Char → Bool} {l w : List Char} :
    splitOn p l = [w] ↔ l = w ∧ ∀ c ∈ w, p c = false := by
  rw [splitOn_eq_cons]
  constructor
  · rintro ⟨hno, ⟨rfl, _⟩ | ⟨c, t, _, _, ht⟩⟩
    · exact ⟨rfl, hno⟩
    · exact absurd ht (splitOn_ne_nil p t)
  · rintro ⟨rfl, hno⟩
    exact ⟨hno, .inl ⟨rfl, rfl⟩⟩

theorem splitOn_eq_pair {p : Char → Bool} {l w v : List Char} :
    splitOn p l = [w, v] ↔ (∀ c ∈ w, p c = false) ∧ (∀ c ∈ v, p c = false) ∧
      ∃ c, p c = true ∧ l = w ++ c :: v := by
  rw [splitOn_eq_cons]
  constructor
  · rintro ⟨hw, ⟨_, h⟩ | ⟨c, t, hc, rfl, ht⟩⟩
    · exact absurd h (List.cons_ne_nil v [])
    · obtain ⟨rfl, hv⟩ := splitOn_eq_singleton.mp ht
      exact ⟨hw, hv, c, hc, rfl⟩
  · rintro ⟨hw, hv, c, hc, rfl⟩
    exact ⟨hw, .inr ⟨c, v, hc, rfl, splitOn_single hv⟩⟩

/-! ## Hexadecimal -/

/-- The value of a hexadecimal digit of either case, in ASCII. -/
def hexDigit (c : UInt8) : Option UInt8 :=
  if 48 ≤ c ∧ c ≤ 57 then some (c - 48)
  else if 97 ≤ c ∧ c ≤ 102 then some (c - 97 + 10)
  else if 65 ≤ c ∧ c ≤ 70 then some (c - 65 + 10)
  else none

/-- Two digits a byte, nothing else. -/
def hexBytes : Bytes → Option Bytes
  | [] => some []
  | [_] => none
  | c :: d :: cs =>
    match hexDigit c, hexDigit d, hexBytes cs with
    | some hi, some lo, some bs => some ((hi * 16 + lo) :: bs)
    | _, _, _ => none

/-- Whatever decodes is made of digits. -/
theorem hexBytes_digits {l : Bytes} (h : (hexBytes l).isSome) : ∀ c ∈ l, (hexDigit c).isSome := by
  induction l using hexBytes.induct with
  | case1 => exact fun c hc => absurd hc List.not_mem_nil
  | case2 c => exact absurd h (by simp [hexBytes])
  | case3 c d cs hi lo bs hcs hd hc ih =>
    intro x hx
    rcases List.mem_cons.mp hx with rfl | hx
    · rw [hc]; rfl
    rcases List.mem_cons.mp hx with rfl | hx
    · rw [hd]; rfl
    · exact ih (by rw [hcs]; rfl) x hx
  | case4 c d cs hno =>
    rw [hexBytes] at h
    split at h
    · rename_i hi lo bs hc hd hcs
      exact absurd hcs (hno hi lo bs hc hd)
    · exact absurd h (by simp)

/-- `hex::decode`. -/
def hexDecode (s : String) : Option Bytes := hexBytes (utf8 s)

/-- The digit of `n < 16`, in lower case. -/
def hexNibble (n : UInt8) : Char :=
  if n < 10 then Char.ofNat ('0'.toNat + n.toNat) else Char.ofNat ('a'.toNat + (n.toNat - 10))

/-- `hex::encode`. -/
def hexEncode (b : Bytes) : String :=
  String.ofList (b.flatMap fun x => [hexNibble (x / 16), hexNibble (x % 16)])

/-- What holds of the 256 bytes as they are listed holds of every byte. -/
theorem forall_byte {p : UInt8 → Prop} (h : ∀ i : Fin 256, p (UInt8.ofNat i)) (x : UInt8) : p x := by
  have := h ⟨x.toNat, x.toNat_lt⟩
  rwa [UInt8.ofNat_toNat] at this

/-- The two digits of a byte. -/
def hexPair (x : UInt8) : Bytes :=
  [(hexNibble (x / 16)).toNat.toUInt8, (hexNibble (x % 16)).toNat.toUInt8]

/-- The characters of `hex::encode` are the sixteen digits. -/
theorem mem_hexEncode {b : Bytes} {c : Char}
    (h : c ∈ b.flatMap fun x => [hexNibble (x / 16), hexNibble (x % 16)]) :
    ∃ n < 16, hexNibble (UInt8.ofNat n) = c := by
  obtain ⟨x, _, hx⟩ := List.mem_flatMap.mp h
  have hlt := x.toNat_lt
  rcases List.mem_pair.mp hx with rfl | rfl
  · refine ⟨(x / 16).toNat, ?_, by rw [UInt8.ofNat_toNat]⟩
    rw [UInt8.toNat_div, show (16 : UInt8).toNat = 16 from rfl]
    omega
  · refine ⟨(x % 16).toNat, ?_, by rw [UInt8.ofNat_toNat]⟩
    rw [UInt8.toNat_mod, show (16 : UInt8).toNat = 16 from rfl]
    omega

theorem hexNibble_ascii : ∀ n < 16, (hexNibble (UInt8.ofNat n)).toNat < 128 := by decide

theorem hexBytes_pair : ∀ x : UInt8, hexBytes (hexPair x) = some [x] :=
  forall_byte (by decide +kernel)

theorem utf8_hexEncode (b : Bytes) : utf8 (hexEncode b) = b.flatMap hexPair := by
  unfold hexEncode
  rw [utf8_ascii fun c hc => ?_, List.map_flatMap]
  · rfl
  · obtain ⟨n, hn, rfl⟩ := mem_hexEncode hc
    exact hexNibble_ascii n hn

theorem hexBytes_hexPair (b : Bytes) : hexBytes (b.flatMap hexPair) = some b := by
  induction b with
  | nil => rfl
  | cons x b ih =>
    have hx : hexBytes (hexPair x) = some [x] := hexBytes_pair x
    rw [hexPair, hexBytes] at hx
    rw [List.flatMap_cons, hexPair, List.cons_append, List.cons_append, List.nil_append, hexBytes,
      ih]
    split at hx
    case h_2 => exact absurd hx (by simp)
    case h_1 hi lo bs hhi hlo hbs =>
      cases hbs
      simp only [hhi, hlo, (List.cons.inj (Option.some.inj hx)).1]

@[simp] theorem hexDecode_hexEncode (b : Bytes) : hexDecode (hexEncode b) = some b := by
  rw [hexDecode, utf8_hexEncode, hexBytes_hexPair]

theorem hexEncode_inj {b b' : Bytes} (h : hexEncode b = hexEncode b') : b = b' := by
  have hdecode := hexDecode_hexEncode b
  rw [h, hexDecode_hexEncode] at hdecode
  exact (Option.some.inj hdecode).symm

theorem not_mem_hexEncode {c : Char} (hc : ∀ n < 16, hexNibble (UInt8.ofNat n) ≠ c) (b : Bytes) :
    c ∉ (hexEncode b).toList := by
  intro hmem
  rw [hexEncode, String.toList_ofList] at hmem
  obtain ⟨n, hn, hnc⟩ := mem_hexEncode hmem
  exact hc n hn hnc

/-! ## Base64, standard alphabet, padded -/

/-- The value of a base64 letter, in ASCII. -/
def base64Digit (c : UInt8) : Option Nat :=
  if 65 ≤ c ∧ c ≤ 90 then some (c.toNat - 65)
  else if 97 ≤ c ∧ c ≤ 122 then some (c.toNat - 97 + 26)
  else if 48 ≤ c ∧ c ≤ 57 then some (c.toNat - 48 + 52)
  else if c = 43 then some 62
  else if c = 47 then some 63
  else none

/-- The padding sign `=`. -/
def base64Pad : UInt8 := 61

/-- The last four letters: padding is canonical, and the bits it cuts off are zero. -/
def base64Last (a b c d : UInt8) : Option Bytes :=
  match base64Digit a, base64Digit b, base64Digit c, base64Digit d with
  | some x, some y, some z, some w =>
    some [(x * 4 + y / 16).toUInt8, (y % 16 * 16 + z / 4).toUInt8, (z % 4 * 64 + w).toUInt8]
  | some x, some y, some z, none =>
    if d = base64Pad ∧ z % 4 = 0 then
      some [(x * 4 + y / 16).toUInt8, (y % 16 * 16 + z / 4).toUInt8]
    else none
  | some x, some y, none, none =>
    if c = base64Pad ∧ d = base64Pad ∧ y % 16 = 0 then some [(x * 4 + y / 16).toUInt8] else none
  | _, _, _, _ => none

/-- Four letters for three bytes. -/
def base64Bytes : Bytes → Option Bytes
  | [] => some []
  | [a, b, c, d] => base64Last a b c d
  | a :: b :: c :: d :: cs =>
    match base64Digit a, base64Digit b, base64Digit c, base64Digit d, base64Bytes cs with
    | some x, some y, some z, some w, some bs =>
      some ((x * 4 + y / 16).toUInt8 :: (y % 16 * 16 + z / 4).toUInt8 ::
        (z % 4 * 64 + w).toUInt8 :: bs)
    | _, _, _, _, _ => none
  | _ => none

/-- `STANDARD.decode`. -/
def base64Decode (s : String) : Option Bytes := base64Bytes (utf8 s)

/-- The base64 letter of `n < 64`. -/
def base64Letter (n : Nat) : Char :=
  if n < 26 then Char.ofNat ('A'.toNat + n)
  else if n < 52 then Char.ofNat ('a'.toNat + (n - 26))
  else if n < 62 then Char.ofNat ('0'.toNat + (n - 52))
  else if n = 62 then '+' else '/'

/-- Three bytes to four letters. -/
def base64Groups : Bytes → List Char
  | [] => []
  | [a] => [base64Letter (a.toNat / 4), base64Letter (a.toNat % 4 * 16), '=', '=']
  | [a, b] =>
    [base64Letter (a.toNat / 4), base64Letter (a.toNat % 4 * 16 + b.toNat / 16),
      base64Letter (b.toNat % 16 * 4), '=']
  | a :: b :: c :: bs =>
    base64Letter (a.toNat / 4) :: base64Letter (a.toNat % 4 * 16 + b.toNat / 16) ::
      base64Letter (b.toNat % 16 * 4 + c.toNat / 64) :: base64Letter (c.toNat % 64) ::
      base64Groups bs

/-- `STANDARD.encode`. -/
def base64Encode (b : Bytes) : String := String.ofList (base64Groups b)

theorem base64Letter_ascii : ∀ n < 64, (base64Letter n).toNat < 128 := by decide

/-- The letter of `n < 64`, as a byte. -/
def base64Byte (n : Nat) : UInt8 := (base64Letter n).toNat.toUInt8

theorem base64Digit_letter : ∀ n < 64, base64Digit (base64Byte n) = some n := by decide

theorem base64Groups_ascii : ∀ {b : Bytes}, ∀ c ∈ base64Groups b, c.toNat < 128
  | [], c, hc => absurd hc List.not_mem_nil
  | [x], c, hc => by
    have hx := x.toNat_lt
    simp only [base64Groups, List.mem_cons, List.not_mem_nil, or_false] at hc
    rcases hc with rfl | rfl | rfl | rfl
    · exact base64Letter_ascii _ (by omega)
    · exact base64Letter_ascii _ (by omega)
    all_goals decide
  | [x, y], c, hc => by
    have hx := x.toNat_lt
    have hy := y.toNat_lt
    simp only [base64Groups, List.mem_cons, List.not_mem_nil, or_false] at hc
    rcases hc with rfl | rfl | rfl | rfl
    · exact base64Letter_ascii _ (by omega)
    · exact base64Letter_ascii _ (by omega)
    · exact base64Letter_ascii _ (by omega)
    · decide
  | x :: y :: z :: b, c, hc => by
    have hx := x.toNat_lt
    have hy := y.toNat_lt
    have hz := z.toNat_lt
    simp only [base64Groups, List.mem_cons] at hc
    rcases hc with rfl | rfl | rfl | rfl | hc
    · exact base64Letter_ascii _ (by omega)
    · exact base64Letter_ascii _ (by omega)
    · exact base64Letter_ascii _ (by omega)
    · exact base64Letter_ascii _ (by omega)
    · exact base64Groups_ascii c hc

/-- The last group of three bytes is read like the others. -/
theorem base64Bytes_group {a b c d : UInt8} {x y z w : Nat} (ha : base64Digit a = some x)
    (hb : base64Digit b = some y) (hc : base64Digit c = some z) (hd : base64Digit d = some w)
    (l : Bytes) : base64Bytes (a :: b :: c :: d :: l) = (base64Bytes l).map fun bs =>
      (x * 4 + y / 16).toUInt8 :: (y % 16 * 16 + z / 4).toUInt8 :: (z % 4 * 64 + w).toUInt8 :: bs := by
  cases l with
  | nil => simp [base64Bytes, base64Last, ha, hb, hc, hd]
  | cons e l =>
    rw [base64Bytes]
    · rw [ha, hb, hc, hd]
      cases base64Bytes (e :: l) <;> rfl
    · simp

theorem base64Bytes_groups : ∀ b : Bytes,
    base64Bytes ((base64Groups b).map fun c => c.toNat.toUInt8) = some b
  | [] => rfl
  | [x] => by
    have hx := x.toNat_lt
    have h₁ := base64Digit_letter (x.toNat / 4) (by omega)
    have h₂ := base64Digit_letter (x.toNat % 4 * 16) (by omega)
    have hpad : base64Digit base64Pad = none := by decide
    have hbyte : x.toNat / 4 * 4 + x.toNat % 4 * 16 / 16 = x.toNat := by omega
    change base64Last (base64Byte _) (base64Byte _) base64Pad base64Pad = _
    simp only [base64Last, h₁, h₂, hpad, hbyte]
    rw [if_pos ⟨trivial, trivial, Nat.mul_mod_left _ _⟩]
    simp
  | [x, y] => by
    have hx := x.toNat_lt
    have hy := y.toNat_lt
    have h₁ := base64Digit_letter (x.toNat / 4) (by omega)
    have h₂ := base64Digit_letter (x.toNat % 4 * 16 + y.toNat / 16) (by omega)
    have h₃ := base64Digit_letter (y.toNat % 16 * 4) (by omega)
    have hpad : base64Digit base64Pad = none := by decide
    have hfirst : x.toNat / 4 * 4 + (x.toNat % 4 * 16 + y.toNat / 16) / 16 = x.toNat := by omega
    have hsecond : (x.toNat % 4 * 16 + y.toNat / 16) % 16 * 16 + y.toNat % 16 * 4 / 4 = y.toNat := by
      omega
    change base64Last (base64Byte _) (base64Byte _) (base64Byte _) base64Pad = _
    simp only [base64Last, h₁, h₂, h₃, hpad, hfirst, hsecond]
    rw [if_pos ⟨trivial, Nat.mul_mod_left _ _⟩]
    simp
  | x :: y :: z :: b => by
    have hx := x.toNat_lt
    have hy := y.toNat_lt
    have hz := z.toNat_lt
    have h₁ := base64Digit_letter (x.toNat / 4) (by omega)
    have h₂ := base64Digit_letter (x.toNat % 4 * 16 + y.toNat / 16) (by omega)
    have h₃ := base64Digit_letter (y.toNat % 16 * 4 + z.toNat / 64) (by omega)
    have h₄ := base64Digit_letter (z.toNat % 64) (by omega)
    have hfirst : x.toNat / 4 * 4 + (x.toNat % 4 * 16 + y.toNat / 16) / 16 = x.toNat := by omega
    have hsecond : (x.toNat % 4 * 16 + y.toNat / 16) % 16 * 16 +
        (y.toNat % 16 * 4 + z.toNat / 64) / 4 = y.toNat := by omega
    have hthird : (y.toNat % 16 * 4 + z.toNat / 64) % 4 * 64 + z.toNat % 64 = z.toNat := by omega
    have hrest := base64Bytes_groups b
    have hgroup := base64Bytes_group h₁ h₂ h₃ h₄ ((base64Groups b).map fun c => c.toNat.toUInt8)
    rw [hrest, hfirst, hsecond, hthird] at hgroup
    simpa [base64Groups, base64Byte] using hgroup

@[simp] theorem base64Decode_base64Encode (b : Bytes) : base64Decode (base64Encode b) = some b := by
  rw [base64Decode, base64Encode, utf8_ascii base64Groups_ascii, base64Bytes_groups]

/-! ## Numbers -/

def isDigit (b : UInt8) : Bool := 48 ≤ b && b ≤ 57

/-- The value of a string of digits. -/
def digitsVal (l : Bytes) : Nat := l.foldl (fun acc b => 10 * acc + (b.toNat - 48)) 0

/-- The decimal digits of a number. -/
def decimal (n : Nat) : Bytes := (Nat.toDigits 10 n).map fun c => c.toNat.toUInt8

/-- `s.parse::<u64>()`: an optional `+`, then digits, and no overflow. -/
def parseU64 (s : String) : Option UInt64 :=
  let digits := match utf8 s with
    | 43 :: ds => ds
    | ds => ds
  if digits ≠ [] ∧ digits.all isDigit ∧ digitsVal digits < 2 ^ 64 then
    some (UInt64.ofNat (digitsVal digits))
  else none

/-- `n.to_le_bytes()`. -/
def leBytes (n : UInt64) : Bytes :=
  (List.range 8).map fun i => (n.toNat / 256 ^ i % 256).toUInt8

/-- The big-endian number that the bytes are. -/
def natOfBe (b : Bytes) : Nat := b.foldl (fun acc x => 256 * acc + x.toNat) 0

/-- The last `w` big-endian bytes of `n`. -/
def beBytes (w n : Nat) : Bytes :=
  match w with
  | 0 => []
  | w + 1 => (n / 256 ^ w % 256).toUInt8 :: beBytes w n

theorem digitsVal_append_singleton (l : Bytes) (b : UInt8) :
    digitsVal (l ++ [b]) = 10 * digitsVal l + (b.toNat - 48) := by
  simp [digitsVal]

theorem digitByte_toNat {d : Nat} (hd : d < 10) :
    ((Nat.digitChar d).toNat.toUInt8).toNat = 48 + d := by
  have h : ∀ d : Fin 10, ((Nat.digitChar d).toNat.toUInt8).toNat = 48 + d := by decide
  exact h ⟨d, hd⟩

theorem decimal_of_lt {n : Nat} (h : n < 10) : decimal n = [(Nat.digitChar n).toNat.toUInt8] := by
  simp [decimal, Nat.toDigits_of_lt_base h]

theorem decimal_of_le {n : Nat} (h : 10 ≤ n) :
    decimal n = decimal (n / 10) ++ [(Nat.digitChar (n % 10)).toNat.toUInt8] := by
  simp [decimal, Nat.toDigits_of_base_le (by decide) h]

theorem digitsVal_decimal (n : Nat) : digitsVal (decimal n) = n := by
  induction n using Nat.strongRecOn with
  | _ n ih =>
    rcases Nat.lt_or_ge n 10 with h | h
    · rw [decimal_of_lt h, ← List.nil_append [_], digitsVal_append_singleton, digitByte_toNat h]
      simp [digitsVal]
    · have hmod := digitByte_toNat (Nat.mod_lt n (by decide : 10 > 0))
      rw [decimal_of_le h, digitsVal_append_singleton, ih (n / 10) (by omega), hmod]
      omega

theorem isDigit_digitByte {d : Nat} (hd : d < 10) : isDigit (Nat.digitChar d).toNat.toUInt8 := by
  have h : ∀ d : Fin 10, isDigit (Nat.digitChar d).toNat.toUInt8 := by decide
  exact h ⟨d, hd⟩

/-- Only the digit of zero is `'0'`. -/
theorem digitByte_ne {d : Nat} (hd : d < 10) (h0 : d ≠ 0) : (Nat.digitChar d).toNat.toUInt8 ≠ 48 := by
  have h : ∀ d : Fin 10, d ≠ 0 → (Nat.digitChar d).toNat.toUInt8 ≠ 48 := by decide
  exact h ⟨d, hd⟩ (fun hc => h0 (congrArg Fin.val hc))

theorem decimal_all_isDigit (n : Nat) : (decimal n).all isDigit := by
  induction n using Nat.strongRecOn with
  | _ n ih =>
    rcases Nat.lt_or_ge n 10 with h | h
    · simp [decimal_of_lt h, isDigit_digitByte h]
    · rw [decimal_of_le h, List.all_append, ih (n / 10) (by omega)]
      simp [isDigit_digitByte (Nat.mod_lt n (by decide : 10 > 0))]

/-- A number starts with a digit, which is not zero unless the number is. -/
theorem decimal_cons (n : Nat) : ∃ d ds, decimal n = d :: ds ∧ isDigit d ∧ (n ≠ 0 → d ≠ 48) := by
  induction n using Nat.strongRecOn with
  | _ n ih =>
    rcases Nat.lt_or_ge n 10 with hlt | hge
    · exact ⟨_, [], decimal_of_lt hlt, isDigit_digitByte hlt, digitByte_ne hlt⟩
    · obtain ⟨d, ds, hd, hdig, hne⟩ := ih (n / 10) (by omega)
      exact ⟨d, ds ++ [_], by rw [decimal_of_le hge, hd]; rfl, hdig, fun _ => hne (by omega)⟩

theorem toNat_of_isDigit {c : Char} (h : c.isDigit = true) : c.toNat < 128 := by
  unfold Char.isDigit at h
  have h9 : c.val ≤ 57 := of_decide_eq_true (Bool.and_eq_true_iff.mp h).2
  exact Nat.lt_of_le_of_lt (UInt32.le_iff_toNat_le.mp h9) (by decide)

/-- `n.to_string()`, `String(n)`. -/
theorem utf8_toString (n : Nat) : utf8 (toString n) = decimal n := by
  rw [Nat.toString_eq_repr, Nat.repr_eq_ofList_toDigits, utf8_ascii fun c hc => ?_]
  · rfl
  · exact toNat_of_isDigit (Nat.isDigit_of_mem_toDigits (by decide) (by decide) hc)

theorem parseU64_toString {n : Nat} (h : n < 2 ^ 64) :
    parseU64 (toString n) = some (UInt64.ofNat n) := by
  obtain ⟨d, ds, hd, hdig, _⟩ := decimal_cons n
  have hne : decimal n ≠ [] := by rw [hd]; exact List.cons_ne_nil d ds
  -- a digit is no sign
  have hsign : ∀ ds, decimal n = 43 :: ds → False := fun ds hds => by
    rw [hd] at hds
    rw [(List.cons.inj hds).1] at hdig
    exact absurd hdig (by decide)
  unfold parseU64
  rw [utf8_toString]
  simp only
  rw [digitsVal_decimal, if_pos ⟨hne, decimal_all_isDigit n, h⟩]

/-- A number below `256 ^ w` is made of `w` digits to the base 256. -/
theorem eq_of_digits : ∀ (w : Nat) {n m : Nat}, n < 256 ^ w → m < 256 ^ w →
    (∀ i < w, n / 256 ^ i % 256 = m / 256 ^ i % 256) → n = m
  | 0, n, m, hn, hm, _ => by
    rw [Nat.pow_zero] at hn hm
    omega
  | w + 1, n, m, hn, hm, h => by
    have hlow : n % 256 = m % 256 := by simpa using h 0 w.succ_pos
    have hhigh : n / 256 = m / 256 := by
      rw [Nat.pow_succ] at hn hm
      refine eq_of_digits w (Nat.div_lt_of_lt_mul (by omega)) (Nat.div_lt_of_lt_mul (by omega))
        fun i hi => ?_
      have := h (i + 1) (Nat.succ_lt_succ hi)
      rwa [Nat.pow_succ', ← Nat.div_div_eq_div_mul, ← Nat.div_div_eq_div_mul] at this
    omega

@[simp] theorem leBytes_length (n : UInt64) : (leBytes n).length = 8 := rfl

theorem leBytes_inj {n m : UInt64} (h : leBytes n = leBytes m) : n = m := by
  refine UInt64.toNat_inj.mp (eq_of_digits 8 n.toNat_lt m.toNat_lt fun i hi => ?_)
  have hbyte := congrArg UInt8.toNat (List.map_inj_left.mp h i (List.mem_range.mpr hi))
  simpa [Nat.toUInt8] using hbyte

end Encoding
