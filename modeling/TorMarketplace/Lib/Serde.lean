import Mathlib.Data.List.Nodup
import TorMarketplace.Lib.Json

/-!
# Derived readers of JSON documents

What `#[derive(Serialize, Deserialize)]` makes of a struct: it is written as an object with every
field, and read from an object (names in any order, unknown names ignored, a repeated name an error,
a missing name an error unless the field is optional) or from an array with exactly its fields in
order. `Source.given_map` and the round trips of the field types are what a struct's own round trip
is assembled from.
-/

namespace Serde

open Encoding Json

variable {α : Type}

/-- Where the fields of a struct are read from. -/
inductive Source where
  | map (ms : List (Bytes × Value))
  | seq (l : List Value)

/-- The source of a struct of `n` fields. The names of an object are texts. -/
def source (n : Nat) : Value → Option Source
  | .obj ms => if ms.all fun kv => (ofUtf8 kv.1).isSome then some (.map ms) else none
  | .arr l => if l.length = n then some (.seq l) else none
  | _ => none

/-- What is given for field `i`, called `name`: an error, nothing, or a document. -/
def Source.given (s : Source) (i : Nat) (name : String) : Option (Option Value) :=
  match s with
  | .map ms =>
    match ms.filter fun kv => kv.1 = utf8 name with
    | [] => some none
    | [kv] => some (some kv.2)
    | _ => none
  | .seq l =>
    match l[i]? with
    | some v => some (some v)
    | none => none

/-- A field that must be given. -/
def Source.field (s : Source) (i : Nat) (name : String) (read : Value → Option α) : Option α :=
  match s.given i name with
  | some (some v) => read v
  | _ => none

/-- `Option<T>`. -/
def nullable (read : Value → Option α) : Value → Option (Option α)
  | .null => some none
  | v => (read v).map some

/-- An `Option<T>` field: left out means `None`. -/
def Source.optField (s : Source) (i : Nat) (name : String) (read : Value → Option α) :
    Option (Option α) :=
  match s.given i name with
  | some (some v) => nullable read v
  | some none => some none
  | none => none

def readI64 : Value → Option Int64
  | .int n => if -2 ^ 63 ≤ n ∧ n < 2 ^ 63 then some (Int64.ofInt n) else none
  | _ => none

def readU64 : Value → Option UInt64
  | .int n => if 0 ≤ n ∧ n < 2 ^ 64 then some (UInt64.ofNat n.toNat) else none
  | _ => none

def readI32 : Value → Option Int32
  | .int n => if -2 ^ 31 ≤ n ∧ n < 2 ^ 31 then some (Int32.ofInt n) else none
  | _ => none

def readU32 : Value → Option UInt32
  | .int n => if 0 ≤ n ∧ n < 2 ^ 32 then some (UInt32.ofNat n.toNat) else none
  | _ => none

def readU8 : Value → Option UInt8
  | .int n => if 0 ≤ n ∧ n < 256 then some (UInt8.ofNat n.toNat) else none
  | _ => none

def readString : Value → Option String
  | .str s => ofUtf8 s
  | _ => none

/-- `Vec<T>`: an array, nothing else. -/
def readVec (read : Value → Option α) : Value → Option (List α)
  | .arr l => l.mapM read
  | _ => none

def ofI64 (n : Int64) : Value := .int n.toInt

def ofU8 (n : UInt8) : Value := .int n.toNat

def ofString (s : String) : Value := .str (utf8 s)

def ofVec (write : α → Value) (l : List α) : Value := .arr (l.map write)

def ofOption (write : α → Value) : Option α → Value
  | some a => write a
  | none => .null

/-! ## Documents without a type

`serde_json::Value`. Where a name is repeated, the last member counts. -/

/-- `v.get(name)`. -/
def member (v : Value) (name : String) : Option Value :=
  match v with
  | .obj ms => (ms.filter fun kv => kv.1 = utf8 name).getLast?.map Prod.snd
  | _ => none

/-- `v[name]`: null if there is none. -/
def index (v : Value) (name : String) : Value := (member v name).getD .null

/-- `v.as_array()`. -/
def asArray : Value → Option (List Value)
  | .arr l => some l
  | _ => none

/-! ## Round trips -/

/-- Whatever `write` writes is plain and is read back by `read`. -/
structure RoundTrip (write : α → Value) (read : Value → Option α) : Prop where
  plain : ∀ a, plain (write a)
  read : ∀ a, read (write a) = some a
  notNull : ∀ a, write a ≠ .null

theorem roundTrip_i64 : RoundTrip ofI64 readI64 where
  plain _ := rfl
  read n := by
    rw [ofI64, readI64, if_pos ⟨n.le_toInt, n.toInt_lt⟩, Int64.ofInt_toInt]
  notNull _ := by simp [ofI64]

theorem readU64_toNat (n : UInt64) : readU64 (.int n.toNat) = some n := by
  have hlt := n.toNat_lt
  rw [readU64, if_pos ⟨by omega, by omega⟩, Int.toNat_natCast, UInt64.ofNat_toNat]

theorem roundTrip_u8 : RoundTrip ofU8 readU8 where
  plain _ := rfl
  read n := by
    have := n.toNat_lt
    simp only [ofU8, readU8]
    rw [if_pos (by omega)]
    simp
  notNull _ := by simp [ofU8]

theorem roundTrip_string : RoundTrip ofString readString where
  plain _ := rfl
  read s := by simp [ofString, readString]
  notNull _ := by simp [ofString]

theorem plainElems_map {write : α → Value} (h : ∀ a, Json.plain (write a)) (l : List α) :
    plainElems (l.map write) := by
  induction l with
  | nil => rfl
  | cons a l ih => rw [List.map_cons, plainElems, h a, ih]; rfl

theorem mapM_map {write : α → Value} {read : Value → Option α}
    (h : ∀ a, read (write a) = some a) (l : List α) : (l.map write).mapM read = some l := by
  induction l with
  | nil => rfl
  | cons a l ih => simp [h, ih]

theorem RoundTrip.vec {write : α → Value} {read : Value → Option α} (h : RoundTrip write read) :
    RoundTrip (ofVec write) (readVec read) where
  plain l := by rw [ofVec, Json.plain, plainElems_map h.plain l]
  read l := mapM_map h.read l
  notNull _ := by simp [ofVec]

theorem plain_ofOption {write : α → Value} (h : ∀ a, plain (write a)) (o : Option α) :
    plain (ofOption write o) := by
  cases o with
  | none => rfl
  | some a => exact h a

theorem RoundTrip.nullable {write : α → Value} {read : Value → Option α} (h : RoundTrip write read)
    (o : Option α) : nullable read (ofOption write o) = some o := by
  cases o with
  | none => rfl
  | some a =>
    have hread := h.read a
    have hnull := h.notNull a
    rw [ofOption]
    cases hw : write a with
    | null => exact absurd hw hnull
    | _ => rw [Serde.nullable, ← hw, hread] <;> simp

theorem filter_name {ms : List (Bytes × Value)} {k : Bytes} {v : Value}
    (hnd : (ms.map Prod.fst).Nodup) (h : (k, v) ∈ ms) :
    (ms.filter fun kv => kv.1 = k) = [(k, v)] := by
  induction ms with
  | nil => exact absurd h List.not_mem_nil
  | cons kv ms ih =>
    rw [List.map_cons, List.nodup_cons] at hnd
    rcases List.mem_cons.mp h with rfl | h
    · have hnone : (ms.filter fun kv => kv.1 = k) = [] :=
        List.filter_eq_nil_iff.mpr fun x hx hk =>
          hnd.1 (List.mem_map.mpr ⟨x, hx, of_decide_eq_true hk⟩)
      simp [hnone]
    · have hne : kv.1 ≠ k := fun hk => hnd.1 (List.mem_map.mpr ⟨(k, v), h, hk.symm⟩)
      rw [List.filter_cons_of_neg (by simpa using hne), ih hnd.2 h]

/-- A member of an object without repeated names is given under its name. -/
theorem Source.given_map {ms : List (Bytes × Value)} {i : Nat} {name : String} {v : Value}
    (hnd : (ms.map Prod.fst).Nodup) (h : ms[i]? = some (utf8 name, v)) :
    (Source.map ms).given i name = some (some v) := by
  simp [Source.given, filter_name hnd (List.mem_of_getElem? h)]

/-- One step of a decoder. -/
theorem some_bind {β : Type} {x : Option α} {a : α} {f : α → Option β} {r : Option β}
    (hx : x = some a) (hf : f a = r) : x >>= f = r := by
  rw [hx]
  exact hf

theorem Source.field_map {write : α → Value} {read : Value → Option α} (hrt : RoundTrip write read)
    {ms : List (Bytes × Value)} {a : α} (hnd : (ms.map Prod.fst).Nodup) (i : Nat) (name : String)
    (h : ms[i]? = some (utf8 name, write a)) :
    (Source.map ms).field i name read = some a := by
  simp [Source.field, Source.given_map hnd h, hrt.read]

theorem Source.optField_map {write : α → Value} {read : Value → Option α}
    (hrt : RoundTrip write read) {ms : List (Bytes × Value)} {o : Option α}
    (hnd : (ms.map Prod.fst).Nodup) (i : Nat) (name : String)
    (h : ms[i]? = some (utf8 name, ofOption write o)) :
    (Source.map ms).optField i name read = some o := by
  simp [Source.optField, Source.given_map hnd h, hrt.nullable]

/-- The members that a struct is written as: names and documents. -/
def object (fields : List (String × Value)) : Value :=
  .obj (fields.map fun f => (utf8 f.1, f.2))

theorem plain_object {fields : List (String × Value)} (h : ∀ f ∈ fields, plain f.2) :
    plain (object fields) := by
  rw [object, plain]
  induction fields with
  | nil => rfl
  | cons f fields ih =>
    rw [List.map_cons, plainMembers, h f List.mem_cons_self,
      ih fun f' hf => h f' (List.mem_cons_of_mem _ hf)]
    rfl

theorem source_object (n : Nat) (fields : List (String × Value)) :
    source n (object fields) = some (.map (fields.map fun f => (utf8 f.1, f.2))) := by
  simp [source, object]

theorem nodup_object {fields : List (String × Value)} (h : (fields.map Prod.fst).Nodup) :
    ((fields.map fun f => (utf8 f.1, f.2)).map Prod.fst).Nodup := by
  rw [List.map_map]
  have : (Prod.fst ∘ fun f : String × Value => (utf8 f.1, f.2)) = utf8 ∘ Prod.fst := rfl
  rw [this, ← List.map_map]
  exact List.Nodup.map (fun _ _ => utf8_inj) h

/-- A field of a written object, under its name. -/
theorem member_object {fields : List (String × Value)} (hnd : (fields.map Prod.fst).Nodup)
    {name : String} {v : Value} (h : (name, v) ∈ fields) : member (object fields) name = some v := by
  have hmem : (utf8 name, v) ∈ fields.map fun f => (utf8 f.1, f.2) := List.mem_map.mpr ⟨_, h, rfl⟩
  rw [object, member, filter_name (nodup_object hnd) hmem]
  rfl

/-- A name that is no field. -/
theorem member_object_none {fields : List (String × Value)} {name : String}
    (h : name ∉ fields.map Prod.fst) : member (object fields) name = none := by
  have hnone : ((fields.map fun f => (utf8 f.1, f.2)).filter fun kv => kv.1 = utf8 name) = [] := by
    refine List.filter_eq_nil_iff.mpr fun kv hkv heq => ?_
    obtain ⟨f, hf, rfl⟩ := List.mem_map.mp hkv
    exact h (List.mem_map.mpr ⟨f, hf, utf8_inj (of_decide_eq_true heq)⟩)
  rw [object, member, hnone]
  rfl

end Serde
