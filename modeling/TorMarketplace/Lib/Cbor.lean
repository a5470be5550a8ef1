import Mathlib.Tactic.Ring
import TorMarketplace.Lib.Encoding

/-!
# CBOR: integers, byte strings and maps of them

The encoder writes the head of an item in its shortest form and every length ahead of its content,
as a canonical CBOR writer does. A reader for the same items is the proof that the encoding is
unambiguous: `readItem_encode` reads an item back and leaves whatever follows it, so `encodeMap` is
injective on items in range (`encodeMap_inj`).
-/

namespace Cbor

open Encoding

/-- The items that are not containers. -/
inductive Item where
  | int (n : Int)
  | bytes (b : Bytes)
  deriving Repr, DecidableEq

/-- What a 64-bit head can say. -/
def Item.InRange : Item → Prop
  | .int n => -(2 ^ 64) ≤ n ∧ n < 2 ^ 64
  | .bytes b => b.length < 2 ^ 64

/-- The head of an item: its major type and its argument, in the shortest form. -/
def head (major n : Nat) : Bytes :=
  if n < 24 then [(major * 32 + n).toUInt8]
  else if n < 2 ^ 8 then (major * 32 + 24).toUInt8 :: beBytes 1 n
  else if n < 2 ^ 16 then (major * 32 + 25).toUInt8 :: beBytes 2 n
  else if n < 2 ^ 32 then (major * 32 + 26).toUInt8 :: beBytes 4 n
  else (major * 32 + 27).toUInt8 :: beBytes 8 n

/-- One item. -/
def encode : Item → Bytes
  | .int (.ofNat n) => head 0 n
  | .int (.negSucc n) => head 1 n
  | .bytes b => head 2 b.length ++ b

/-- A map, as the items of its keys and values in turn. -/
def encodeMap (l : List (Item × Item)) : Bytes :=
  head 5 l.length ++ l.flatMap fun kv => encode kv.1 ++ encode kv.2

/-! ## Reading back -/

/-- The argument that the low bits of an initial byte announce. -/
def readArg (info : Nat) (l : Bytes) : Option (Nat × Bytes) :=
  let word (w : Nat) := if w ≤ l.length then some (natOfBe (l.take w), l.drop w) else none
  match info with
  | 24 => word 1
  | 25 => word 2
  | 26 => word 4
  | 27 => word 8
  | n => if n < 24 then some (n, l) else none

def readHead : Bytes → Option (Nat × Nat × Bytes)
  | [] => none
  | b :: l => (readArg (b.toNat % 32) l).map fun (n, l) => (b.toNat / 32, n, l)

def readItem (l : Bytes) : Option (Item × Bytes) :=
  match readHead l with
  | some (0, n, l) => some (.int n, l)
  | some (1, n, l) => some (.int (.negSucc n), l)
  | some (2, n, l) => if n ≤ l.length then some (.bytes (l.take n), l.drop n) else none
  | _ => none

theorem beBytes_length (w n : Nat) : (beBytes w n).length = w := by
  induction w with
  | zero => rfl
  | succ w ih => simp [beBytes, ih]

theorem natOfBe_foldl (b : Bytes) (acc : Nat) :
    b.foldl (fun acc x => 256 * acc + x.toNat) acc = 256 ^ b.length * acc + natOfBe b := by
  unfold natOfBe
  induction b generalizing acc with
  | nil => simp
  | cons x b ih =>
    rw [List.foldl_cons, ih, List.foldl_cons, ih (256 * 0 + x.toNat), List.length_cons, Nat.pow_succ]
    ring

theorem natOfBe_beBytes_mod (w n : Nat) : natOfBe (beBytes w n) = n % 256 ^ w := by
  induction w with
  | zero => simp [beBytes, natOfBe, Nat.mod_one]
  | succ w ih =>
    have hfold := natOfBe_foldl (beBytes w n) (n / 256 ^ w % 256)
    have hbyte : ((n / 256 ^ w % 256).toUInt8).toNat = n / 256 ^ w % 256 := by
      simp [Nat.toUInt8]
    rw [beBytes, natOfBe, List.foldl_cons, hbyte, Nat.mul_zero, Nat.zero_add, hfold, ih,
      beBytes_length, Nat.pow_succ, Nat.mod_mul, Nat.add_comm]

theorem natOfBe_beBytes {w n : Nat} (h : n < 256 ^ w) : natOfBe (beBytes w n) = n := by
  rw [natOfBe_beBytes_mod, Nat.mod_eq_of_lt h]

theorem initial_byte {major info : Nat} (hm : major < 8) (hi : info < 32) :
    ((major * 32 + info).toUInt8).toNat / 32 = major ∧
      ((major * 32 + info).toUInt8).toNat % 32 = info := by
  have : ((major * 32 + info).toUInt8).toNat = major * 32 + info := by
    simp [Nat.toUInt8]
    omega
  omega

/-- A head followed by a word of `w` bytes. -/
theorem readHead_word {major info w n : Nat} {rest : Bytes} (hm : major < 8) (hi : info < 32)
    (hn : n < 256 ^ w)
    (harg : ∀ l : Bytes, readArg info l =
      if w ≤ l.length then some (natOfBe (l.take w), l.drop w) else none) :
    readHead ((major * 32 + info).toUInt8 :: beBytes w n ++ rest) = some (major, n, rest) := by
  obtain ⟨hdiv, hmod⟩ := initial_byte hm hi
  have htake : (beBytes w n ++ rest).take w = beBytes w n := by
    rw [List.take_append_of_le_length (beBytes_length w n).ge,
      List.take_of_length_le (beBytes_length w n).le]
  have hdrop : (beBytes w n ++ rest).drop w = rest := by
    rw [List.drop_append_of_le_length (beBytes_length w n).ge,
      List.drop_of_length_le (beBytes_length w n).le, List.nil_append]
  have hlen : w ≤ (beBytes w n ++ rest).length := by simp [beBytes_length]
  rw [List.cons_append, readHead, hdiv, hmod, harg, if_pos hlen, htake, hdrop, natOfBe_beBytes hn]
  rfl

/-- **A head reads back**, whatever follows it. -/
theorem readHead_head {major n : Nat} (rest : Bytes) (hm : major < 8) (hn : n < 2 ^ 64) :
    readHead (head major n ++ rest) = some (major, n, rest) := by
  unfold head
  split
  · rename_i h
    obtain ⟨hdiv, hmod⟩ := initial_byte hm (by omega : n < 32)
    have harg : readArg n rest = some (n, rest) := by
      unfold readArg
      split <;> first | omega | simp [h]
    rw [List.singleton_append, readHead, hdiv, hmod, harg]
    rfl
  · split
    · exact readHead_word hm (by decide) (by omega) fun _ => rfl
    · split
      · exact readHead_word hm (by decide) (by omega) fun _ => rfl
      · split
        · exact readHead_word hm (by decide) (by omega) fun _ => rfl
        · exact readHead_word hm (by decide) (by omega) fun _ => rfl

/-- **An item reads back**, whatever follows it. -/
theorem readItem_encode {x : Item} (rest : Bytes) (hx : x.InRange) :
    readItem (encode x ++ rest) = some (x, rest) := by
  cases x with
  | int n =>
    cases n with
    | ofNat n =>
      have hn : n < 2 ^ 64 := by simp only [Item.InRange, Int.ofNat_eq_natCast] at hx; omega
      rw [encode, readItem, readHead_head rest (by decide) hn]
      rfl
    | negSucc n =>
      have hn : n < 2 ^ 64 := by simp only [Item.InRange] at hx; omega
      rw [encode, readItem, readHead_head rest (by decide) hn]
      rfl
  | bytes b =>
    rw [encode, List.append_assoc, readItem, readHead_head _ (by decide) hx]
    simp

theorem encode_append_inj {x y : Item} {r r' : Bytes} (hx : x.InRange) (hy : y.InRange)
    (h : encode x ++ r = encode y ++ r') : x = y ∧ r = r' := by
  have hread := readItem_encode r hx
  rw [h, readItem_encode r' hy] at hread
  exact ⟨congrArg Prod.fst (Option.some.inj hread).symm, congrArg Prod.snd (Option.some.inj hread).symm⟩

/-- The content of maps of one size is injective. -/
theorem flatMap_inj {l l' : List (Item × Item)} (hlen : l.length = l'.length)
    (hl : ∀ kv ∈ l, kv.1.InRange ∧ kv.2.InRange) (hl' : ∀ kv ∈ l', kv.1.InRange ∧ kv.2.InRange)
    (h : (l.flatMap fun kv => encode kv.1 ++ encode kv.2) =
      l'.flatMap fun kv => encode kv.1 ++ encode kv.2) : l = l' := by
  induction l generalizing l' with
  | nil => exact (List.length_eq_zero_iff.mp hlen.symm).symm
  | cons kv l ih =>
    cases l' with
    | nil => exact absurd hlen (by simp)
    | cons kv' l' =>
      obtain ⟨hk, hv⟩ := hl kv List.mem_cons_self
      obtain ⟨hk', hv'⟩ := hl' kv' List.mem_cons_self
      simp only [List.flatMap_cons, List.append_assoc] at h
      obtain ⟨hkey, h⟩ := encode_append_inj hk hk' h
      obtain ⟨hval, h⟩ := encode_append_inj hv hv' h
      rw [ih (by simpa using hlen) (fun x hx => hl x (List.mem_cons_of_mem _ hx))
        (fun x hx => hl' x (List.mem_cons_of_mem _ hx)) h, Prod.ext hkey hval]

/-- **Maps of one size have different encodings.** -/
theorem encodeMap_inj {l l' : List (Item × Item)} (hlen : l.length = l'.length)
    (hl : ∀ kv ∈ l, kv.1.InRange ∧ kv.2.InRange) (hl' : ∀ kv ∈ l', kv.1.InRange ∧ kv.2.InRange)
    (h : encodeMap l = encodeMap l') : l = l' := by
  unfold encodeMap at h
  rw [hlen] at h
  exact flatMap_inj hlen hl hl' (List.append_cancel_left h)

end Cbor
