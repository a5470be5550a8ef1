import TorMarketplace.Lib.Serde

/-!
# Documented shapes

What the documentation of an interface says of a document: a number, a text, a list of documents of
one shape, an object whose members it lists by name, some of them required. A `Shape` is the set of
the documents that conform. An object has only the members that are listed, each once.
-/

namespace Json

open Encoding Serde

/-- The documents that conform. -/
abbrev Shape := Value → Prop

/-- One member that is documented. -/
structure Member where
  name : String
  shape : Shape
  required : Bool := true

def optional (name : String) (shape : Shape) : Member := ⟨name, shape, false⟩

namespace Shape

/-- A number, with or without fraction. -/
def number : Shape := fun v => (∃ n, v = .int n) ∨ ∃ text, v = .float text

def text : Shape := fun v => ∃ s : String, v = ofString s

def flag : Shape := fun v => ∃ b, v = .bool b

def listOf (shape : Shape) : Shape := fun v => ∃ l, v = .arr l ∧ ∀ x ∈ l, shape x

def objectOf (members : List Member) : Shape := fun v => ∃ ms, v = .obj ms ∧
  (ms.map Prod.fst).Nodup ∧
  (∀ kv ∈ ms, ∃ m ∈ members, kv.1 = utf8 m.name ∧ m.shape kv.2) ∧
  ∀ m ∈ members, m.required = true → ∃ kv ∈ ms, kv.1 = utf8 m.name

end Shape

variable {members : List Member} {v : Value}

/-- A name that is not documented is no member. -/
theorem filter_undocumented {ms : List (Bytes × Value)} {name : String}
    (hknown : ∀ kv ∈ ms, ∃ m ∈ members, kv.1 = utf8 m.name ∧ m.shape kv.2)
    (hname : name ∉ members.map Member.name) : ms.filter (fun kv => kv.1 = utf8 name) = [] := by
  rw [List.filter_eq_nil_iff]
  intro kv hkv heq
  obtain ⟨m, hm, hutf8, _⟩ := hknown kv hkv
  have hsame := utf8_inj ((of_decide_eq_true heq).symm.trans hutf8)
  exact hname (List.mem_map.mpr ⟨m, hm, hsame.symm⟩)

/-- A struct with a field that is not documented and not optional is not read from an object. -/
theorem field_undocumented {α : Type} {n i : Nat} {name : String} {read : Value → Option α} {s : Source}
    (hv : Shape.objectOf members v) (hname : name ∉ members.map Member.name)
    (hs : source n v = some s) : s.field i name read = none := by
  obtain ⟨ms, rfl, _, hknown, _⟩ := hv
  change (if _ then some (Source.map ms) else none) = some s at hs
  split at hs
  · obtain rfl := Option.some.inj hs
    unfold Source.field Source.given
    simp only [filter_undocumented hknown hname]
  · exact absurd hs (by simp)

/-- An object is no array. -/
theorem readVec_object {α : Type} {read : Value → Option α} (hv : Shape.objectOf members v) :
    readVec read v = none := by
  obtain ⟨ms, rfl, _⟩ := hv
  rfl

end Json
