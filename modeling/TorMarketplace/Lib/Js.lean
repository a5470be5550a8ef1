import TorMarketplace.Lib.Json

/-!
# JavaScript strings, and what `JSON.stringify` writes

A string is a list of UTF-16 code units, lone surrogates included. `stringify` is
`new TextEncoder().encode(JSON.stringify(v))`: of the code units that need it, `JSON.stringify`
writes an escape (a lone surrogate among them), and the encoder writes the others, pairs joined, in
UTF-8. `quoting_quoteUnits`: a reader of JSON gets the code points of the string.
-/

namespace Js

open Encoding Json

/-- A string: its UTF-16 code units. -/
abbrev JsString := List UInt16

/-- A value that `JSON.stringify` writes. Its numbers are integers. -/
abbrev JsValue := { v : Json.Tree JsString // plain v = true }

/-- The string of a literal in ASCII. -/
def ascii (s : String) : JsString := (utf8 s).map UInt8.toUInt16

/-! ## Objects -/

/-- An object by its properties, in the order in which they are written. -/
abbrev JsObject := List (JsString × JsValue)

namespace JsObject

def get (o : JsObject) (name : JsString) : Option JsValue := o.lookup name

/-- `o.name = v`. A property that is there keeps its place. -/
def assign (o : JsObject) (name : JsString) (v : JsValue) : JsObject :=
  if o.any fun p => p.1 = name then o.map fun p => if p.1 = name then (name, v) else p
  else o ++ [(name, v)]

/-- `{ ...o, ...o' }`. -/
def spread (o o' : JsObject) : JsObject := o'.foldl (fun o p => o.assign p.1 p.2) o

theorem plain_members (o : JsObject) : plainMembers (o.map fun p => (p.1, p.2.val)) = true := by
  induction o with
  | nil => rfl
  | cons p o ih => rw [List.map_cons, plainMembers, p.2.2, ih]; rfl

def toValue (o : JsObject) : JsValue where
  val := .obj (o.map fun p => (p.1, p.2.val))
  property := by rw [plain, o.plain_members]

/-- A property stays what it is while others are assigned. -/
theorem mem_assign {o : JsObject} {name name' : JsString} {v v' : JsValue} (h : (name, v) ∈ o)
    (hne : name' ≠ name) : (name, v) ∈ o.assign name' v' := by
  unfold assign
  split
  · exact List.mem_map.mpr ⟨(name, v), h, if_neg fun heq => hne heq.symm⟩
  · exact List.mem_append_left _ h

theorem lookup_map_assign (o : JsObject) (name name' : JsString) (v : JsValue) :
    (o.map fun p => if p.1 = name then (name, v) else p).lookup name' =
      if name' = name then (if o.any fun p => p.1 = name then some v else none) else o.lookup name' := by
  induction o with
  | nil => simp
  | cons p o ih =>
    obtain ⟨key, x⟩ := p
    by_cases hkey : key = name
    · subst hkey
      by_cases hname : name' = key
      · simp [hname]
      · simp [List.lookup_cons, beq_false_of_ne hname, hname, ih]
    · by_cases hname : name' = name
      · subst hname
        rw [List.any_cons, decide_eq_false hkey, Bool.false_or, List.map_cons, if_neg hkey,
          List.lookup_cons, beq_false_of_ne (Ne.symm hkey), ih, if_pos rfl, if_pos rfl]
      · by_cases hsame : name' = key
        · simp [hsame, hkey]
        · simp [List.lookup_cons, beq_false_of_ne hsame, hkey, hname, ih]

/-- An assignment is read back, and changes nothing else. -/
theorem get_assign (o : JsObject) (name name' : JsString) (v : JsValue) :
    (o.assign name v).get name' = if name' = name then some v else o.get name' := by
  unfold assign get
  split
  · rename_i hthere
    rw [lookup_map_assign, hthere, if_pos rfl]
  · rename_i hmissing
    rw [List.lookup_append]
    by_cases hname : name' = name
    · subst hname
      have hnone : o.lookup name' = none := List.lookup_eq_none_iff.mpr fun p hp => by
        have hne : p.1 ≠ name' := fun heq => hmissing (List.any_eq_true.mpr ⟨p, hp, by simpa using heq⟩)
        simpa using Ne.symm hne
      simp [hnone]
    · simp [List.lookup_cons, beq_false_of_ne hname, hname]

theorem mem_spread {o o' : JsObject} {name : JsString} {v : JsValue} (h : (name, v) ∈ o)
    (hno : ∀ p ∈ o', p.1 ≠ name) : (name, v) ∈ o.spread o' := by
  unfold spread
  induction o' generalizing o with
  | nil => exact h
  | cons p o' ih =>
    exact ih (mem_assign h (hno p List.mem_cons_self)) fun q hq => hno q (List.mem_cons_of_mem p hq)

end JsObject

def null : JsValue := ⟨.null, rfl⟩

def str (s : JsString) : JsValue := ⟨.str s, rfl⟩

def num (n : Int) : JsValue := ⟨.int n, rfl⟩

/-- `[]`. -/
def emptyArray : JsValue := ⟨.arr [], rfl⟩

/-! ## Writing -/

def isHigh (u : UInt16) : Bool := 0xD800 ≤ u && u < 0xDC00

def isLow (u : UInt16) : Bool := 0xDC00 ≤ u && u < 0xE000

/-- A code unit that is not half of a pair. -/
def quoteUnit (u : UInt16) : Bytes :=
  if u < 0x80 then escape u.toUInt8
  else if isHigh u || isLow u then
    [92, 117, hexByte (u / 0x1000).toUInt8, hexByte (u / 0x100 % 0x10).toUInt8,
      hexByte (u / 0x10 % 0x10).toUInt8, hexByte (u % 0x10).toUInt8]
  else codeBytes u.toNat

/-- The rest of a string literal after its opening quote. -/
def quoteUnits : JsString → Bytes
  | [] => [34]
  | [u] => quoteUnit u ++ [34]
  | h :: t :: l =>
    if isHigh h && isLow t then codeBytes (pairPoint h.toNat t.toNat) ++ quoteUnits l
    else quoteUnit h ++ quoteUnits (t :: l)

/-- The bytes of a string: its code points in UTF-8, a lone surrogate by the same pattern. -/
def bytesOf (s : JsString) : Bytes := joinItems (s.map fun u => .unit u.toNat)

/-- The text of a value. -/
def stringify (v : JsValue) : Bytes := write quoteUnits v.val

/-- What a reader of JSON makes of the text. -/
def valueOf (v : JsValue) : Value := value bytesOf v.val

/-! ## Reading back -/

theorem pair_iff {h t : UInt16} : (isHigh h && isLow t) = true ↔
    0xD800 ≤ h.toNat ∧ h.toNat < 0xDC00 ∧ 0xDC00 ≤ t.toNat ∧ t.toNat < 0xE000 := by
  simp only [isHigh, isLow, Bool.and_eq_true, decide_eq_true_eq, UInt16.le_iff_toNat_le,
    UInt16.lt_iff_toNat_lt, and_assoc]
  exact Iff.rfl

theorem parseStr_raw {bs : Bytes} (h : ∀ b ∈ bs, 128 ≤ b) (l : Bytes) :
    parseStr (bs ++ l) = (parseStr l).map fun (s, l) => (bs.map StrItem.byte ++ s, l) := by
  induction bs with
  | nil =>
    rw [List.nil_append]
    cases parseStr l <;> rfl
  | cons b bs ih =>
    have hb := h b List.mem_cons_self
    have h34 : b ≠ 34 := by rintro rfl; exact absurd hb (by decide)
    have h92 : b ≠ 92 := by rintro rfl; exact absurd hb (by decide)
    have h32 : ¬ b < 32 := by
      simp only [UInt8.le_iff_toNat_le, UInt8.lt_iff_toNat_lt] at hb ⊢
      simp at hb ⊢
      omega
    rw [List.cons_append, parseStr.eq_def]
    simp only [h34, h92, h32, if_false, ih fun b' hb' => h b' (List.mem_cons_of_mem b hb')]
    cases parseStr l <;> rfl

theorem joinItems_raw (bs : Bytes) (l : List StrItem) :
    joinItems (bs.map StrItem.byte ++ l) = bs ++ joinItems l := by
  induction bs with
  | nil => rfl
  | cons b bs ih => rw [List.map_cons, List.cons_append, joinItems, ih, List.cons_append]

/-- Code points beyond ASCII have no byte of ASCII. -/
theorem codeBytes_raw {n : Nat} (h : 0x80 ≤ n) (hlt : n < 0x110000) :
    ∀ b ∈ codeBytes n, 128 ≤ b := by
  have hle : ∀ {k : Nat}, 128 ≤ k → k < 256 → (128 : UInt8) ≤ k.toUInt8 := fun hk hk' => by
    rw [UInt8.le_iff_toNat_le]
    simp [Nat.toUInt8, Nat.mod_eq_of_lt hk', hk]
  unfold codeBytes
  rw [if_neg (by omega)]
  split_ifs
  all_goals simp only [List.mem_cons, List.not_mem_nil, or_false]
  · rintro b (rfl | rfl) <;> exact hle (by omega) (by omega)
  · rintro b (rfl | rfl | rfl) <;> exact hle (by omega) (by omega)
  · rintro b (rfl | rfl | rfl | rfl) <;> exact hle (by omega) (by omega)

/-- What a reader makes of one code unit. -/
def unitItems (u : UInt16) : List StrItem :=
  if u < 0x80 then [itemOf u.toUInt8]
  else if isHigh u || isLow u then [.unit u.toNat]
  else (codeBytes u.toNat).map .byte

/-- And of a literal. -/
def itemsOf : JsString → List StrItem
  | [] => []
  | [u] => unitItems u
  | h :: t :: l =>
    if isHigh h && isLow t then (codeBytes (pairPoint h.toNat t.toNat)).map .byte ++ itemsOf l
    else unitItems h ++ itemsOf (t :: l)

theorem hexUnit_digits (u : UInt16) :
    hexUnit (hexByte (u / 0x1000).toUInt8) (hexByte (u / 0x100 % 0x10).toUInt8)
      (hexByte (u / 0x10 % 0x10).toUInt8) (hexByte (u % 0x10).toUInt8) = some u.toNat := by
  have hdigit : ∀ v : UInt16, v.toNat < 16 → hexValue (hexByte v.toUInt8) = some v.toNat := by
    have hall : ∀ n : Fin 16, hexValue (hexByte (UInt16.ofNat n).toUInt8) = some n := by decide
    intro v hv
    have := hall ⟨v.toNat, hv⟩
    simpa using this
  have hu := u.toNat_lt
  rw [hexUnit, hdigit _ (by simp; omega), hdigit _ (by simp; omega), hdigit _ (by simp; omega),
    hdigit _ (by simp; omega)]
  simp
  omega

theorem parseStr_quoteUnit (u : UInt16) (l : Bytes) :
    parseStr (quoteUnit u ++ l) = (parseStr l).map fun (s, l) => (unitItems u ++ s, l) := by
  unfold quoteUnit unitItems
  split_ifs with hascii hhalf
  · exact parseStr_escape u.toUInt8 l
  · simp only [List.cons_append, List.nil_append]
    rw [parseStr.eq_def]
    simp only [show (92 : UInt8) ≠ 34 by decide, if_false, if_true, hexUnit_digits]
    cases parseStr l <;> rfl
  · have hlt := u.toNat_lt
    have hge : 0x80 ≤ u.toNat := by
      simpa [UInt16.lt_iff_toNat_lt] using hascii
    exact parseStr_raw (codeBytes_raw hge (by omega)) l

theorem parseStr_quoteUnits (s : JsString) (rest : Bytes) :
    parseStr (quoteUnits s ++ rest) = some (itemsOf s, rest) := by
  induction s using quoteUnits.induct with
  | case1 => simp [quoteUnits, itemsOf, parseStr.eq_def]
  | case2 u =>
    have hend : parseStr (34 :: rest) = some ([], rest) := by simp [parseStr.eq_def]
    rw [quoteUnits, itemsOf, List.append_assoc, parseStr_quoteUnit, List.singleton_append, hend]
    simp
  | case3 h t l hpair ih =>
    have hbound : 0x80 ≤ pairPoint h.toNat t.toNat ∧ pairPoint h.toNat t.toNat < 0x110000 := by
      have := pair_iff.mp hpair
      unfold pairPoint
      omega
    rw [quoteUnits, itemsOf, if_pos hpair, if_pos hpair, List.append_assoc,
      parseStr_raw (codeBytes_raw hbound.1 hbound.2), ih]
    rfl
  | case4 h t l hpair ih =>
    rw [quoteUnits, itemsOf, if_neg hpair, if_neg hpair, List.append_assoc, parseStr_quoteUnit, ih]
    rfl

/-- A literal starts with a code unit only where its string does. -/
theorem itemsOf_unit {t : UInt16} {l : JsString} {n : Nat} {rest : List StrItem}
    (h : itemsOf (t :: l) = .unit n :: rest) : n = t.toNat := by
  have hbyte : ∀ {k : Nat} {l' : List StrItem},
      (codeBytes k).map StrItem.byte ++ l' ≠ .unit n :: rest := by
    intro k l' heq
    unfold codeBytes at heq
    split_ifs at heq <;> simp at heq
  have hunit : ∀ {l' : List StrItem}, unitItems t ++ l' = .unit n :: rest → n = t.toNat := by
    intro l' heq
    unfold unitItems at heq
    split_ifs at heq with hascii hhalf
    · rw [itemOf] at heq
      split_ifs at heq
      · have hn := StrItem.unit.inj (List.cons.inj heq).1
        rw [← hn, UInt16.toNat_toUInt8, Nat.mod_eq_of_lt]
        have : t.toNat < 128 := UInt16.lt_iff_toNat_lt.mp hascii
        omega
      · exact absurd (List.cons.inj heq).1 (by simp)
    · exact (StrItem.unit.inj (List.cons.inj heq).1).symm
    · exact absurd heq hbyte
  cases l with
  | nil =>
    rw [itemsOf] at h
    rw [← List.append_nil (unitItems t)] at h
    exact hunit h
  | cons t' l =>
    rw [itemsOf] at h
    split_ifs at h
    · exact absurd h hbyte
    · exact hunit h

/-- A code unit in front of a literal that it makes no pair with. -/
theorem joinItems_unit {h : UInt16} {l : JsString} (hno : ∀ t, l.head? = some t →
    ¬ (isHigh h && isLow t) = true) :
    joinItems (.unit h.toNat :: itemsOf l) = codeBytes h.toNat ++ joinItems (itemsOf l) := by
  cases hl : itemsOf l with
  | nil => rfl
  | cons i rest =>
    cases i with
    | byte b => rfl
    | unit n =>
      cases l with
      | nil => exact absurd hl (by simp [itemsOf])
      | cons t l =>
        obtain rfl := itemsOf_unit hl
        rw [joinItems, if_neg (mt pair_iff.mpr (hno t rfl))]

theorem joinItems_unitItems {h : UInt16} {l : JsString} (hno : ∀ t, l.head? = some t →
    ¬ (isHigh h && isLow t) = true) :
    joinItems (unitItems h ++ itemsOf l) = codeBytes h.toNat ++ joinItems (itemsOf l) := by
  unfold unitItems
  split_ifs with hascii hhalf
  · have hlt : h.toNat < 128 := UInt16.lt_iff_toNat_lt.mp hascii
    rw [List.singleton_append, joinItems_cons, codeBytes, if_pos hlt]
    rfl
  · exact joinItems_unit hno
  · exact joinItems_raw _ _

theorem joinItems_itemsOf (s : JsString) : joinItems (itemsOf s) = bytesOf s := by
  induction s using quoteUnits.induct with
  | case1 => rfl
  | case2 u =>
    have hnil : ∀ t, ([] : JsString).head? = some t → ¬ (isHigh u && isLow t) = true :=
      fun _ ht => absurd ht (by simp)
    simpa [itemsOf, bytesOf] using (joinItems_unitItems hnil).trans (joinItems_unit hnil).symm
  | case3 h t l hpair ih =>
    have hunits : bytesOf (h :: t :: l) = codeBytes (pairPoint h.toNat t.toNat) ++ bytesOf l := by
      simp only [bytesOf, List.map_cons]
      rw [joinItems, if_pos (pair_iff.mp hpair)]
    rw [itemsOf, if_pos hpair, joinItems_raw, ih, hunits]
  | case4 h t l hpair ih =>
    have hunits : bytesOf (h :: t :: l) = codeBytes h.toNat ++ bytesOf (t :: l) := by
      simp only [bytesOf, List.map_cons]
      rw [joinItems, if_neg (mt pair_iff.mpr hpair)]
    rw [itemsOf, if_neg hpair, joinItems_unitItems (by simpa using hpair), ih, hunits]

theorem quoting_quoteUnits : Quoting quoteUnits bytesOf :=
  fun s rest => ⟨_, parseStr_quoteUnits s rest, joinItems_itemsOf s⟩

/-- **A reader of JSON gets what `JSON.stringify` has written.** -/
theorem parse_stringify (v : JsValue) : parse (stringify v) = some (valueOf v) :=
  parse_write quoting_quoteUnits v.2

end Js
