import TorMarketplace.Lib.Encoding

/-!
# JSON text

A JSON document as a tree, its compact text, and a strict reader of texts, all on bytes. Writers
differ in what their strings are, so the tree leaves their type open. The reader keeps a string as
the bytes it stands for: whether they are UTF-8 is asked only where a text is wanted, and a lone
surrogate escape becomes the three bytes that no UTF-8 text contains. Numbers without fraction and
exponent are integers of any size, every other number (and `-0`) keeps its text.

`parse_write`: the compact text of a document without such numbers is read as that document, by
whatever `Quoting` its strings are written. `parse_print` is the case of strings kept as bytes.
-/

namespace Json

open Encoding

/-- A JSON document with strings in `S`. An object keeps its members in order, repeated names
included. -/
inductive Tree (S : Type) where
  | null
  | bool (b : Bool)
  | int (n : Int)
  | float (text : Bytes)
  | str (s : S)
  | arr (l : List (Tree S))
  | obj (l : List (S × Tree S))

/-- What a text is read as. -/
abbrev Value := Tree Bytes

variable {S : Type}

/-! ## Writing -/

/-- The lower-case hexadecimal digit of `n < 16`, as a byte. -/
def hexByte (n : UInt8) : UInt8 := if n < 10 then 48 + n else 87 + n

/-- One byte of a string literal. -/
def escape (b : UInt8) : Bytes :=
  if b = 34 then [92, 34]
  else if b = 92 then [92, 92]
  else if b = 8 then [92, 98]
  else if b = 12 then [92, 102]
  else if b = 10 then [92, 110]
  else if b = 13 then [92, 114]
  else if b = 9 then [92, 116]
  else if b < 32 then [92, 117, 48, 48, hexByte (b / 16), hexByte (b % 16)]
  else [b]

/-- The content of a string literal and the closing quote. -/
def quoteTail (s : Bytes) : Bytes := s.flatMap escape ++ [34]

def intText : Int → Bytes
  | .ofNat n => decimal n
  | .negSucc n => 45 :: decimal (n + 1)

section Write

variable (quote : S → Bytes)

mutual

/-- The compact text of a document whose strings `quote` writes, each after its opening quote. -/
def write : Tree S → Bytes
  | .null => utf8 "null"
  | .bool true => utf8 "true"
  | .bool false => utf8 "false"
  | .int n => intText n
  | .float text => text
  | .str s => 34 :: quote s
  | .arr [] => [91, 93]
  | .arr (v :: l) => 91 :: (write v ++ writeElems l)
  | .obj [] => [123, 125]
  | .obj ((k, v) :: l) => 123 :: 34 :: (quote k ++ 58 :: (write v ++ writeMembers l))

/-- The elements after the first, and the closing bracket. -/
def writeElems : List (Tree S) → Bytes
  | [] => [93]
  | v :: l => 44 :: (write v ++ writeElems l)

/-- The members after the first, and the closing brace. -/
def writeMembers : List (S × Tree S) → Bytes
  | [] => [125]
  | (k, v) :: l => 44 :: 34 :: (quote k ++ 58 :: (write v ++ writeMembers l))

end

end Write

/-- The compact text of a document that keeps its strings as bytes. -/
def print : Value → Bytes := write quoteTail

/-! ## Reading -/

def isSpace (b : UInt8) : Bool := b = 32 || b = 10 || b = 9 || b = 13

def skipWs (l : Bytes) : Bytes := l.dropWhile isSpace

/-- What a string literal says at one place: a byte, or a UTF-16 code unit. -/
inductive StrItem where
  | byte (b : UInt8)
  | unit (u : Nat)

def hexValue (b : UInt8) : Option Nat :=
  if 48 ≤ b ∧ b ≤ 57 then some (b.toNat - 48)
  else if 97 ≤ b ∧ b ≤ 102 then some (b.toNat - 87)
  else if 65 ≤ b ∧ b ≤ 70 then some (b.toNat - 55)
  else none

/-- The four digits of a `\u` escape. -/
def hexUnit (a b c d : UInt8) : Option Nat :=
  match hexValue a, hexValue b, hexValue c, hexValue d with
  | some w, some x, some y, some z => some (((w * 16 + x) * 16 + y) * 16 + z)
  | _, _, _, _ => none

/-- The escapes of one letter. -/
def letterEscape (e : UInt8) : Option UInt8 :=
  if e = 34 ∨ e = 92 ∨ e = 47 then some e
  else if e = 98 then some 8
  else if e = 102 then some 12
  else if e = 110 then some 10
  else if e = 114 then some 13
  else if e = 116 then some 9
  else none

/-- A string literal after its opening quote, and what follows it. -/
def parseStr : Bytes → Option (List StrItem × Bytes)
  | [] => none
  | b :: l =>
    if b = 34 then some ([], l)
    else if b = 92 then
      match l with
      | 117 :: a :: b :: c :: d :: l =>
        match hexUnit a b c d, parseStr l with
        | some u, some (s, l) => some (.unit u :: s, l)
        | _, _ => none
      | e :: l =>
        match letterEscape e, parseStr l with
        | some x, some (s, l) => some (.byte x :: s, l)
        | _, _ => none
      | [] => none
    else if b < 32 then none
    else
      match parseStr l with
      | some (s, l) => some (.byte b :: s, l)
      | none => none

/-- The UTF-8 pattern of a code point, also of a surrogate. -/
def codeBytes (n : Nat) : Bytes :=
  if n < 0x80 then [n.toUInt8]
  else if n < 0x800 then [(0xC0 + n / 0x40).toUInt8, (0x80 + n % 0x40).toUInt8]
  else if n < 0x10000 then
    [(0xE0 + n / 0x1000).toUInt8, (0x80 + n / 0x40 % 0x40).toUInt8, (0x80 + n % 0x40).toUInt8]
  else
    [(0xF0 + n / 0x40000).toUInt8, (0x80 + n / 0x1000 % 0x40).toUInt8,
      (0x80 + n / 0x40 % 0x40).toUInt8, (0x80 + n % 0x40).toUInt8]

/-- The code point of a surrogate pair. -/
def pairPoint (h t : Nat) : Nat := 0x10000 + (h - 0xD800) * 0x400 + (t - 0xDC00)

/-- The bytes of a string literal: two escapes that are a surrogate pair are one code point. -/
def joinItems : List StrItem → Bytes
  | [] => []
  | .byte b :: l => b :: joinItems l
  | .unit h :: .unit t :: l =>
    if 0xD800 ≤ h ∧ h < 0xDC00 ∧ 0xDC00 ≤ t ∧ t < 0xE000 then
      codeBytes (pairPoint h t) ++ joinItems l
    else codeBytes h ++ joinItems (.unit t :: l)
  | .unit u :: l => codeBytes u ++ joinItems l

/-- The digits before a point. A leading zero stands alone. -/
def intPart (l : Bytes) : Option (Bytes × Bytes) :=
  match l with
  | 48 :: l => some ([48], l)
  | l => if l.takeWhile isDigit = [] then none else some (l.takeWhile isDigit, l.dropWhile isDigit)

/-- A point and the digits it needs, if there is one. -/
def fracPart (l : Bytes) : Option (Bytes × Bytes) :=
  match l with
  | 46 :: l =>
    if l.takeWhile isDigit = [] then none
    else some (46 :: l.takeWhile isDigit, l.dropWhile isDigit)
  | l => some ([], l)

/-- An exponent and the digits it needs, if there is one. -/
def expPart (l : Bytes) : Option (Bytes × Bytes) :=
  match l with
  | e :: l =>
    if e = 101 ∨ e = 69 then
      let (sign, l) : Bytes × Bytes := match l with
        | 43 :: l => ([43], l)
        | 45 :: l => ([45], l)
        | l => ([], l)
      if l.takeWhile isDigit = [] then none
      else some (e :: (sign ++ l.takeWhile isDigit), l.dropWhile isDigit)
    else some ([], e :: l)
  | [] => some ([], [])

/-- The number that sign, digits and the rest of its text stand for. -/
def number (neg : Bool) (digits rest : Bytes) : Value :=
  if rest = [] ∧ ¬ (neg ∧ digitsVal digits = 0) then
    .int (if neg then -(digitsVal digits : Int) else digitsVal digits)
  else .float ((if neg then [45] else []) ++ digits ++ rest)

def parseDigits (neg : Bool) (l : Bytes) : Option (Value × Bytes) :=
  match intPart l with
  | some (digits, l) =>
    match fracPart l with
    | some (frac, l) =>
      match expPart l with
      | some (exp, l) => some (number neg digits (frac ++ exp), l)
      | none => none
    | none => none
  | none => none

def parseNumber (l : Bytes) : Option (Value × Bytes) :=
  match l with
  | 45 :: l => parseDigits true l
  | l => parseDigits false l

/-- The rest of a keyword whose first letter has been read. -/
def parseKeyword (rest : Bytes) (v : Value) (l : Bytes) : Option (Value × Bytes) :=
  if rest.isPrefixOf l then some (v, l.drop rest.length) else none

/-- The name of a member and the colon after it. -/
def parseKey (l : Bytes) : Option (Bytes × Bytes) :=
  match skipWs l with
  | 34 :: l =>
    match parseStr l with
    | some (k, l) =>
      match skipWs l with
      | 58 :: l => some (joinItems k, l)
      | _ => none
    | none => none
  | _ => none

mutual

/-- One document and what follows it. Every call of `parseValue` consumes a byte, so the length of
the text is enough fuel. -/
def parseValue : Nat → Bytes → Option (Value × Bytes)
  | 0, _ => none
  | fuel + 1, l =>
    match skipWs l with
    | [] => none
    | b :: l =>
      if b = 110 then parseKeyword (utf8 "ull") .null l
      else if b = 116 then parseKeyword (utf8 "rue") (.bool true) l
      else if b = 102 then parseKeyword (utf8 "alse") (.bool false) l
      else if b = 34 then
        match parseStr l with
        | some (s, l) => some (.str (joinItems s), l)
        | none => none
      else if b = 91 then
        match skipWs l with
        | 93 :: l => some (.arr [], l)
        | l =>
          match parseValue fuel l with
          | some (v, l) =>
            match parseElems fuel l with
            | some (vs, l) => some (.arr (v :: vs), l)
            | none => none
          | none => none
      else if b = 123 then
        match skipWs l with
        | 125 :: l => some (.obj [], l)
        | l =>
          match parseKey l with
          | some (k, l) =>
            match parseValue fuel l with
            | some (v, l) =>
              match parseMembers fuel l with
              | some (ms, l) => some (.obj ((k, v) :: ms), l)
              | none => none
            | none => none
          | none => none
      else parseNumber (b :: l)

/-- The elements after the first. -/
def parseElems : Nat → Bytes → Option (List Value × Bytes)
  | 0, _ => none
  | fuel + 1, l =>
    match skipWs l with
    | 93 :: l => some ([], l)
    | 44 :: l =>
      match parseValue fuel l with
      | some (v, l) =>
        match parseElems fuel l with
        | some (vs, l) => some (v :: vs, l)
        | none => none
      | none => none
    | _ => none

/-- The members after the first. -/
def parseMembers : Nat → Bytes → Option (List (Bytes × Value) × Bytes)
  | 0, _ => none
  | fuel + 1, l =>
    match skipWs l with
    | 125 :: l => some ([], l)
    | 44 :: l =>
      match parseKey l with
      | some (k, l) =>
        match parseValue fuel l with
        | some (v, l) =>
          match parseMembers fuel l with
          | some (ms, l) => some ((k, v) :: ms, l)
          | none => none
        | none => none
      | none => none
    | _ => none

end

/-- The document that a text is, space around it allowed. -/
def parse (l : Bytes) : Option Value :=
  match parseValue l.length l with
  | some (v, rest) => if skipWs rest = [] then some v else none
  | none => none

/-! ## Reading back what was written -/

/-- What a byte of a string literal is read back as. -/
def itemOf (b : UInt8) : StrItem :=
  if b < 32 ∧ b ≠ 8 ∧ b ≠ 12 ∧ b ≠ 10 ∧ b ≠ 13 ∧ b ≠ 9 then .unit b.toNat else .byte b

theorem hexUnit_hexByte {b : UInt8} (h : b < 32) :
    hexUnit 48 48 (hexByte (b / 16)) (hexByte (b % 16)) = some b.toNat := by
  have hall : ∀ n : Fin 32, hexUnit 48 48 (hexByte (UInt8.ofNat n / 16))
      (hexByte (UInt8.ofNat n % 16)) = some n := by decide
  have := hall ⟨b.toNat, UInt8.lt_iff_toNat_lt.mp h⟩
  simpa using this

theorem parseStr_letter {e x : UInt8} (l : Bytes) (he : letterEscape e = some x) (hu : e ≠ 117) :
    parseStr (92 :: e :: l) = (parseStr l).map fun (s, l) => (.byte x :: s, l) := by
  rw [parseStr.eq_def]
  simp only [show (92 : UInt8) ≠ 34 by decide, if_false, if_true]
  split
  · rename_i heq
    exact absurd (List.cons.inj heq).1 hu
  · rename_i heq
    obtain ⟨rfl, rfl⟩ := List.cons.inj heq
    rw [he]
    cases parseStr l <;> rfl
  · rename_i heq
    exact absurd heq (by simp)

/-- One escaped byte is one item. -/
theorem parseStr_escape (b : UInt8) (l : Bytes) :
    parseStr (escape b ++ l) = (parseStr l).map fun (s, l) => (itemOf b :: s, l) := by
  unfold escape
  split_ifs with h34 h92 h8 h12 h10 h13 h9 h32
  · subst h34; exact parseStr_letter l rfl (by decide)
  · subst h92; exact parseStr_letter l rfl (by decide)
  · subst h8; exact parseStr_letter l rfl (by decide)
  · subst h12; exact parseStr_letter l rfl (by decide)
  · subst h10; exact parseStr_letter l rfl (by decide)
  · subst h13; exact parseStr_letter l rfl (by decide)
  · subst h9; exact parseStr_letter l rfl (by decide)
  · have hitem : itemOf b = .unit b.toNat := if_pos ⟨h32, h8, h12, h10, h13, h9⟩
    rw [hitem]
    simp only [List.cons_append, List.nil_append]
    rw [parseStr.eq_def]
    simp only [show (92 : UInt8) ≠ 34 by decide, if_false, if_true, hexUnit_hexByte h32]
    cases parseStr l <;> rfl
  · have hitem : itemOf b = .byte b := if_neg fun h => h32 h.1
    rw [hitem, List.singleton_append, parseStr.eq_def]
    simp only [h34, h92, h32, if_false]
    cases parseStr l <;> rfl

theorem parseStr_quoteTail (s rest : Bytes) :
    parseStr (quoteTail s ++ rest) = some (s.map itemOf, rest) := by
  unfold quoteTail
  induction s with
  | nil => simp [parseStr.eq_def]
  | cons b s ih =>
    simp only [List.flatMap_cons, List.append_assoc] at ih ⊢
    rw [parseStr_escape, ih]
    rfl

theorem joinItems_cons (b : UInt8) (l : List StrItem) :
    joinItems (itemOf b :: l) = b :: joinItems l := by
  unfold itemOf
  split_ifs with h
  · have hlt : b.toNat < 32 := UInt8.lt_iff_toNat_lt.mp h.1
    have hcode : codeBytes b.toNat = [b] := by
      rw [codeBytes, if_pos (by omega)]
      simp [Nat.toUInt8]
    cases l with
    | nil => simp [joinItems, hcode]
    | cons i l =>
      cases i with
      | byte b' => simp [joinItems, hcode]
      | unit u => rw [joinItems, if_neg (by omega), hcode]; rfl
  · rfl

theorem joinItems_map (s : Bytes) : joinItems (s.map itemOf) = s := by
  induction s with
  | nil => rfl
  | cons b s ih => rw [List.map_cons, joinItems_cons, ih]

/-- What may follow a number: no byte that would go on with it. -/
def NumEnd : Bytes → Prop
  | [] => True
  | b :: _ => isDigit b = false ∧ b ≠ 46 ∧ b ≠ 101 ∧ b ≠ 69

theorem takeWhile_digits {ds rest : Bytes} (hd : ds.all isDigit) (hr : NumEnd rest) :
    (ds ++ rest).takeWhile isDigit = ds ∧ (ds ++ rest).dropWhile isDigit = rest := by
  have hall : ∀ b ∈ ds, isDigit b = true := List.all_eq_true.mp hd
  rw [List.takeWhile_append_of_pos hall, List.dropWhile_append_of_pos hall]
  cases rest with
  | nil => simp
  | cons b l => simp [hr.1]

theorem intPart_decimal (n : Nat) {rest : Bytes} (hr : NumEnd rest) :
    intPart (decimal n ++ rest) = some (decimal n, rest) := by
  rcases Nat.eq_zero_or_pos n with rfl | hpos
  · rfl
  · obtain ⟨d, ds, hd, _, hne⟩ := decimal_cons n
    obtain ⟨htake, hdrop⟩ := takeWhile_digits (decimal_all_isDigit n) hr
    rw [intPart]
    · rw [htake, hdrop, if_neg (by simp [hd])]
    · intro l heq
      rw [hd] at heq
      exact hne (by omega) (List.cons.inj heq).1

theorem parseDigits_decimal (neg : Bool) (n : Nat) {rest : Bytes} (hr : NumEnd rest) :
    parseDigits neg (decimal n ++ rest) = some (number neg (decimal n) [], rest) := by
  have hfrac : fracPart rest = some ([], rest) := by
    cases rest with
    | nil => rfl
    | cons b l =>
      rw [fracPart]
      intro l' heq
      exact hr.2.1 (List.cons.inj heq).1
  have hexp : expPart rest = some ([], rest) := by
    cases rest with
    | nil => rfl
    | cons b l => simp [expPart, hr.2.2.1, hr.2.2.2]
  simp [parseDigits, intPart_decimal n hr, hfrac, hexp]

theorem parseNumber_intText (n : Int) {rest : Bytes} (hr : NumEnd rest) :
    parseNumber (intText n ++ rest) = some (.int n, rest) := by
  cases n with
  | ofNat n =>
    have hnum : number false (decimal n) [] = .int n := by simp [number, digitsVal_decimal]
    rw [intText, parseNumber, parseDigits_decimal false n hr, hnum]
    · rfl
    · intro l heq
      obtain ⟨d, ds, hd, hdig, _⟩ := decimal_cons n
      rw [hd] at heq
      exact absurd hdig ((List.cons.inj heq).1 ▸ by decide)
  | negSucc n =>
    have hnum : number true (decimal (n + 1)) [] = .int (.negSucc n) := by
      simp [number, digitsVal_decimal]
      omega
    rw [intText, List.cons_append, parseNumber, parseDigits_decimal true _ hr, hnum]

mutual

/-- No number of the document has a fraction or an exponent. -/
def plain : Tree S → Bool
  | .float _ => false
  | .arr l => plainElems l
  | .obj l => plainMembers l
  | _ => true

def plainElems : List (Tree S) → Bool
  | [] => true
  | v :: l => plain v && plainElems l

def plainMembers : List (S × Tree S) → Bool
  | [] => true
  | (_, v) :: l => plain v && plainMembers l

end

section Value

variable (bytes : S → Bytes)

mutual

/-- The document with the bytes of its strings. -/
def value : Tree S → Value
  | .null => .null
  | .bool b => .bool b
  | .int n => .int n
  | .float text => .float text
  | .str s => .str (bytes s)
  | .arr l => .arr (valueElems l)
  | .obj l => .obj (valueMembers l)

def valueElems : List (Tree S) → List Value
  | [] => []
  | v :: l => value v :: valueElems l

def valueMembers : List (S × Tree S) → List (Bytes × Value)
  | [] => []
  | (k, v) :: l => (bytes k, value v) :: valueMembers l

end

end Value

mutual

theorem value_id : ∀ v : Value, value id v = v
  | .null => rfl
  | .bool _ => rfl
  | .int _ => rfl
  | .float _ => rfl
  | .str _ => rfl
  | .arr l => congrArg Tree.arr (valueElems_id l)
  | .obj l => congrArg Tree.obj (valueMembers_id l)

theorem valueElems_id : ∀ l : List Value, valueElems id l = l
  | [] => rfl
  | v :: l => by rw [valueElems, value_id v, valueElems_id l]

theorem valueMembers_id : ∀ l : List (Bytes × Value), valueMembers id l = l
  | [] => rfl
  | (k, v) :: l => by rw [valueMembers, value_id v, valueMembers_id l, id]

end

/-- `quote` writes string literals, and `bytes` is what they are read as. -/
def Quoting (quote bytes : S → Bytes) : Prop :=
  ∀ s rest, ∃ items, parseStr (quote s ++ rest) = some (items, rest) ∧ joinItems items = bytes s

theorem quoting_quoteTail : Quoting quoteTail id :=
  fun s rest => ⟨_, parseStr_quoteTail s rest, joinItems_map s⟩

theorem skipWs_cons {b : UInt8} (l : Bytes) (h : isSpace b = false) : skipWs (b :: l) = b :: l := by
  simp [skipWs, h]

theorem isDigit_spec {b : UInt8} (h : isDigit b) : isSpace b = false ∧ b ≠ 93 := by
  simp only [isDigit, Bool.and_eq_true, decide_eq_true_eq] at h
  have hne : ∀ {c : UInt8}, ¬ (48 ≤ c ∧ c ≤ 57) → b ≠ c := fun hc heq => hc (heq ▸ h)
  refine ⟨?_, hne (by decide)⟩
  simp [isSpace, hne (c := 32) (by decide), hne (c := 10) (by decide), hne (c := 9) (by decide),
    hne (c := 13) (by decide)]

/-- A text starts neither with space nor with a closing bracket. -/
theorem write_cons (quote : S → Bytes) {v : Tree S} (h : plain v) :
    ∃ b l, write quote v = b :: l ∧ isSpace b = false ∧ b ≠ 93 := by
  match v with
  | .null => exact ⟨_, _, rfl, by decide, by decide⟩
  | .bool true => exact ⟨_, _, rfl, by decide, by decide⟩
  | .bool false => exact ⟨_, _, rfl, by decide, by decide⟩
  | .int (.negSucc n) => exact ⟨45, decimal (n + 1), by rw [write, intText], by decide, by decide⟩
  | .int (.ofNat n) =>
    obtain ⟨d, ds, hd, hdig, _⟩ := decimal_cons n
    exact ⟨d, ds, by rw [write, intText, hd], isDigit_spec hdig⟩
  | .str s => exact ⟨34, quote s, by rw [write], by decide, by decide⟩
  | .arr [] => exact ⟨91, [93], by rw [write], by decide, by decide⟩
  | .arr (v :: l) => exact ⟨91, write quote v ++ writeElems quote l, by rw [write], by decide, by decide⟩
  | .obj [] => exact ⟨123, [125], by rw [write], by decide, by decide⟩
  | .obj ((k, v) :: l) => exact ⟨123, _, by rw [write], by decide, by decide⟩

theorem skipWs_write (quote : S → Bytes) {v : Tree S} (h : plain v) (rest : Bytes) :
    skipWs (write quote v ++ rest) = write quote v ++ rest := by
  obtain ⟨b, l, hb, hs, _⟩ := write_cons quote h
  rw [hb, List.cons_append, skipWs_cons _ hs]

theorem parseKey_quote {quote bytes : S → Bytes} (hq : Quoting quote bytes) (k : S) (rest : Bytes) :
    parseKey (34 :: (quote k ++ 58 :: rest)) = some (bytes k, rest) := by
  obtain ⟨items, hparse, hjoin⟩ := hq k (58 :: rest)
  rw [parseKey, skipWs_cons _ (by decide)]
  simp only [hparse]
  rw [skipWs_cons _ (by decide)]
  simp only [hjoin]

theorem parseKeyword_append (rest : Bytes) (v : Value) (l : Bytes) :
    parseKeyword rest v (rest ++ l) = some (v, l) := by
  simp [parseKeyword]

theorem numEnd_elems (quote : S → Bytes) (l : List (Tree S)) (rest : Bytes) :
    NumEnd (writeElems quote l ++ rest) := by
  cases l with
  | nil => exact ⟨by decide, by decide, by decide, by decide⟩
  | cons v l => rw [writeElems]; exact ⟨by decide, by decide, by decide, by decide⟩

theorem numEnd_members (quote : S → Bytes) (l : List (S × Tree S)) (rest : Bytes) :
    NumEnd (writeMembers quote l ++ rest) := by
  cases l with
  | nil => exact ⟨by decide, by decide, by decide, by decide⟩
  | cons kv l => rw [writeMembers]; exact ⟨by decide, by decide, by decide, by decide⟩

/-- Where no other form starts, a document is a number. -/
theorem parseValue_number (fuel : Nat) {b : UInt8} (l : Bytes) (h : isDigit b ∨ b = 45) :
    parseValue (fuel + 1) (b :: l) = parseNumber (b :: l) := by
  have hs : isSpace b = false := by
    rcases h with h | rfl
    · exact (isDigit_spec h).1
    · decide
  have hne : ∀ c : UInt8, ¬ (isDigit c ∨ c = 45) → b ≠ c := fun c hc heq => hc (heq ▸ h)
  rw [parseValue, skipWs_cons l hs]
  simp only [hne 110 (by decide), hne 116 (by decide), hne 102 (by decide), hne 34 (by decide),
    hne 91 (by decide), hne 123 (by decide), if_false]

section Reading

variable {quote bytes : S → Bytes}

mutual

/-- **What is written is read back**, whatever follows it. -/
theorem parseValue_write (hq : Quoting quote bytes) :
    ∀ (v : Tree S) (fuel : Nat) (rest : Bytes), plain v → (write quote v).length ≤ fuel →
      NumEnd rest → parseValue fuel (write quote v ++ rest) = some (value bytes v, rest)
  | v, 0, _, hv, hf, _ => by
    obtain ⟨b, l, hb, _⟩ := write_cons quote hv
    rw [hb] at hf
    exact absurd hf (by simp)
  | .null, fuel + 1, rest, _, _, _ => by
    rw [write, show utf8 "null" = 110 :: utf8 "ull" by decide, List.cons_append, parseValue,
      skipWs_cons _ (by decide)]
    simp [parseKeyword_append, value]
  | .bool true, fuel + 1, rest, _, _, _ => by
    rw [write, show utf8 "true" = 116 :: utf8 "rue" by decide, List.cons_append, parseValue,
      skipWs_cons _ (by decide)]
    simp [parseKeyword_append, value]
  | .bool false, fuel + 1, rest, _, _, _ => by
    rw [write, show utf8 "false" = 102 :: utf8 "alse" by decide, List.cons_append, parseValue,
      skipWs_cons _ (by decide)]
    simp [parseKeyword_append, value]
  | .int n, fuel + 1, rest, _, _, hr => by
    have hread := parseNumber_intText n hr
    rw [write, value]
    cases n with
    | ofNat n =>
      obtain ⟨d, ds, hd, hdig, _⟩ := decimal_cons n
      rw [intText, hd, List.cons_append] at hread ⊢
      rw [parseValue_number fuel _ (.inl hdig), hread]
    | negSucc n =>
      rw [intText, List.cons_append] at hread ⊢
      rw [parseValue_number fuel _ (.inr rfl), hread]
  | .str s, fuel + 1, rest, _, _, _ => by
    obtain ⟨items, hparse, hjoin⟩ := hq s rest
    rw [write, List.cons_append, parseValue, skipWs_cons _ (by decide)]
    simp [hparse, hjoin, value]
  | .arr [], fuel + 1, rest, _, _, _ => by
    rw [write]
    rfl
  | .arr (v :: l), fuel + 1, rest, hv, hf, _ => by
    rw [plain, plainElems, Bool.and_eq_true] at hv
    rw [write, List.length_cons, List.length_append] at hf
    have hhead := parseValue_write hq v fuel (writeElems quote l ++ rest) hv.1 (by omega)
      (numEnd_elems quote l rest)
    have htail := parseElems_write hq l fuel rest hv.2 (by omega)
    obtain ⟨b, l', hb, _, hne⟩ := write_cons quote hv.1
    rw [write, List.cons_append, List.append_assoc, parseValue, skipWs_cons _ (by decide)]
    simp only [show (91 : UInt8) ≠ 110 by decide, show (91 : UInt8) ≠ 116 by decide,
      show (91 : UInt8) ≠ 102 by decide, show (91 : UInt8) ≠ 34 by decide, if_false, if_true,
      skipWs_write quote hv.1]
    split
    · rename_i heq
      rw [hb] at heq
      exact absurd (List.cons.inj heq).1 hne
    · rw [hhead]
      simp only [htail, value, valueElems]
  | .obj [], fuel + 1, rest, _, _, _ => by
    rw [write]
    rfl
  | .obj ((k, v) :: l), fuel + 1, rest, hv, hf, _ => by
    rw [plain, plainMembers, Bool.and_eq_true] at hv
    simp only [write, List.length_cons, List.length_append] at hf
    have hhead := parseValue_write hq v fuel (writeMembers quote l ++ rest) hv.1 (by omega)
      (numEnd_members quote l rest)
    have htail := parseMembers_write hq l fuel rest hv.2 (by omega)
    rw [write, List.cons_append, parseValue, skipWs_cons _ (by decide)]
    simp only [List.cons_append, List.append_assoc, skipWs_cons _ (show isSpace 34 = false by decide)]
    simp [parseKey_quote hq, hhead, htail, value, valueMembers]

theorem parseElems_write (hq : Quoting quote bytes) :
    ∀ (l : List (Tree S)) (fuel : Nat) (rest : Bytes), plainElems l →
      (writeElems quote l).length ≤ fuel →
      parseElems fuel (writeElems quote l ++ rest) = some (valueElems bytes l, rest)
  | l, 0, _, _, hf => by cases l <;> exact absurd hf (by simp [writeElems])
  | [], fuel + 1, rest, _, _ => by rw [writeElems]; rfl
  | v :: l, fuel + 1, rest, hv, hf => by
    rw [plainElems, Bool.and_eq_true] at hv
    rw [writeElems, List.length_cons, List.length_append] at hf
    have hhead := parseValue_write hq v fuel (writeElems quote l ++ rest) hv.1 (by omega)
      (numEnd_elems quote l rest)
    have htail := parseElems_write hq l fuel rest hv.2 (by omega)
    rw [writeElems, List.cons_append, List.append_assoc, parseElems, skipWs_cons _ (by decide)]
    simp [hhead, htail, valueElems]

theorem parseMembers_write (hq : Quoting quote bytes) :
    ∀ (l : List (S × Tree S)) (fuel : Nat) (rest : Bytes), plainMembers l →
      (writeMembers quote l).length ≤ fuel →
      parseMembers fuel (writeMembers quote l ++ rest) = some (valueMembers bytes l, rest)
  | l, 0, _, _, hf => by
    cases l with
    | nil => exact absurd hf (by simp [writeMembers])
    | cons kv l => exact absurd hf (by simp [writeMembers])
  | [], fuel + 1, rest, _, _ => by rw [writeMembers]; rfl
  | (k, v) :: l, fuel + 1, rest, hv, hf => by
    rw [plainMembers, Bool.and_eq_true] at hv
    simp only [writeMembers, List.length_cons, List.length_append] at hf
    have hhead := parseValue_write hq v fuel (writeMembers quote l ++ rest) hv.1 (by omega)
      (numEnd_members quote l rest)
    have htail := parseMembers_write hq l fuel rest hv.2 (by omega)
    rw [writeMembers, List.cons_append, parseMembers, skipWs_cons _ (by decide)]
    simp [parseKey_quote hq, hhead, htail, valueMembers]

end

/-- **The compact text of a document is read as the document**, its strings as bytes. -/
theorem parse_write (hq : Quoting quote bytes) {v : Tree S} (h : plain v) :
    parse (write quote v) = some (value bytes v) := by
  have hread := parseValue_write hq v (write quote v).length [] h (Nat.le_refl _) trivial
  rw [List.append_nil] at hread
  simp [parse, hread, skipWs]

/-! ### Space before the last brace -/

theorem skipWs_spaces (n : Nat) (l : Bytes) : skipWs (List.replicate n 32 ++ l) = skipWs l := by
  induction n with
  | zero => rfl
  | succ n ih =>
    rw [List.replicate_succ, List.cons_append, skipWs, List.dropWhile_cons_of_pos (by decide)]
    exact ih

theorem writeMembers_ne_nil (l : List (S × Tree S)) : writeMembers quote l ≠ [] := by
  cases l <;> simp [writeMembers]

theorem getLast?_writeMembers (l : List (S × Tree S)) :
    (writeMembers quote l).getLast? = some 125 := by
  induction l with
  | nil => rfl
  | cons kv l ih =>
    simp only [writeMembers, List.getLast?_cons, List.getLast?_append, ih, Option.some_or,
      Option.getD_some]

/-- An object ends with a brace. -/
theorem getLast?_write_obj (l : List (S × Tree S)) : (write quote (.obj l)).getLast? = some 125 := by
  cases l with
  | nil => rfl
  | cons kv l =>
    simp only [write, List.getLast?_cons, List.getLast?_append, getLast?_writeMembers, Option.some_or,
      Option.getD_some]

/-- The members of an object, `n` spaces and the closing brace. -/
def spacedMembers (quote : S → Bytes) (n : Nat) (l : List (S × Tree S)) : Bytes :=
  (writeMembers quote l).dropLast ++ (List.replicate n 32 ++ [125])

theorem spacedMembers_nil (n : Nat) :
    spacedMembers quote n [] = List.replicate n 32 ++ [125] := rfl

theorem spacedMembers_cons (n : Nat) (k : S) (v : Tree S) (l : List (S × Tree S)) :
    spacedMembers quote n ((k, v) :: l) =
      44 :: 34 :: (quote k ++ 58 :: (write quote v ++ spacedMembers quote n l)) := by
  have hdrop : (44 :: 34 :: (quote k ++ 58 :: (write quote v ++ writeMembers quote l))).dropLast =
      44 :: 34 :: (quote k ++ 58 :: (write quote v ++ (writeMembers quote l).dropLast)) := by
    rw [List.dropLast_cons_of_ne_nil (by simp), List.dropLast_cons_of_ne_nil (by simp),
      List.dropLast_append_of_ne_nil (by simp), List.dropLast_cons_of_ne_nil
        (by simp [writeMembers_ne_nil]), List.dropLast_append_of_ne_nil (writeMembers_ne_nil l)]
  unfold spacedMembers
  rw [writeMembers, hdrop]
  simp only [List.cons_append, List.append_assoc]

theorem numEnd_spacedMembers (n : Nat) (l : List (S × Tree S)) (rest : Bytes) :
    NumEnd (spacedMembers quote n l ++ rest) := by
  cases l with
  | nil =>
    rw [spacedMembers_nil]
    cases n with
    | zero => exact ⟨by decide, by decide, by decide, by decide⟩
    | succ n => rw [List.replicate_succ]; exact ⟨by decide, by decide, by decide, by decide⟩
  | cons kv l => rw [spacedMembers_cons]; exact ⟨by decide, by decide, by decide, by decide⟩

theorem parseMembers_spaced (hq : Quoting quote bytes) (n : Nat) :
    ∀ (l : List (S × Tree S)) (fuel : Nat) (rest : Bytes), plainMembers l →
      (spacedMembers quote n l).length ≤ fuel →
      parseMembers fuel (spacedMembers quote n l ++ rest) = some (valueMembers bytes l, rest)
  | l, 0, _, _, hf => by exact absurd hf (by simp [spacedMembers])
  | [], fuel + 1, rest, _, _ => by
    rw [spacedMembers_nil, List.append_assoc, parseMembers, skipWs_spaces]
    rfl
  | (k, v) :: l, fuel + 1, rest, hv, hf => by
    rw [plainMembers, Bool.and_eq_true] at hv
    simp only [spacedMembers_cons, List.length_cons, List.length_append] at hf
    have hhead := parseValue_write hq v fuel (spacedMembers quote n l ++ rest) hv.1 (by omega)
      (numEnd_spacedMembers n l rest)
    have htail := parseMembers_spaced hq n l fuel rest hv.2 (by omega)
    rw [spacedMembers_cons, List.cons_append, parseMembers, skipWs_cons _ (by decide)]
    simp [parseKey_quote hq, hhead, htail, valueMembers]

/-- **Space before the last brace of an object changes nothing.** -/
theorem parse_spaced (hq : Quoting quote bytes) (n : Nat) {k : S} {v : Tree S}
    {l : List (S × Tree S)} (h : plain (.obj ((k, v) :: l))) :
    parse ((write quote (.obj ((k, v) :: l))).dropLast ++ (List.replicate n 32 ++ [125])) =
      some (value bytes (.obj ((k, v) :: l))) := by
  have htext : (write quote (.obj ((k, v) :: l))).dropLast ++ (List.replicate n 32 ++ [125]) =
      123 :: 34 :: (quote k ++ 58 :: (write quote v ++ spacedMembers quote n l)) := by
    unfold spacedMembers
    rw [write, List.dropLast_cons_of_ne_nil (by simp), List.dropLast_cons_of_ne_nil (by simp),
      List.dropLast_append_of_ne_nil (by simp), List.dropLast_cons_of_ne_nil
        (by simp [writeMembers_ne_nil]), List.dropLast_append_of_ne_nil (writeMembers_ne_nil l)]
    simp only [List.cons_append, List.append_assoc]
  rw [plain, plainMembers, Bool.and_eq_true] at h
  obtain ⟨fuel, hfuel⟩ : ∃ fuel, fuel =
    (34 :: (quote k ++ 58 :: (write quote v ++ spacedMembers quote n l))).length := ⟨_, rfl⟩
  have hf := hfuel
  simp only [List.length_cons, List.length_append] at hf
  have hhead := parseValue_write hq v fuel (spacedMembers quote n l ++ []) h.1 (by omega)
    (numEnd_spacedMembers n l [])
  have htail := parseMembers_spaced hq n l fuel [] h.2 (by omega)
  rw [List.append_nil] at hhead htail
  rw [htext, parse, List.length_cons, ← hfuel, parseValue, skipWs_cons _ (by decide)]
  simp only [skipWs_cons _ (show isSpace 34 = false by decide)]
  simp [parseKey_quote hq, hhead, htail, value, valueMembers, skipWs]

end Reading

/-- **The compact text of a document is read back as the document.** -/
theorem parse_print {v : Value} (h : plain v) : parse (print v) = some v := by
  rw [print, parse_write quoting_quoteTail h, value_id]

end Json
