import NatServer.Json.Number
import NatServer.Lib.StrMap
/-!
# JSON values

The values of the vendored `json.hpp`, with a double as its literal. A C++
object is a `std::map`, so a value has its members in key order with no key
twice; `Json` carries that as a field, and a `Json` object is the same thing as
a `StrMap Json`.
-/

namespace Json

/-- The value types of `basic_json`. -/
inductive Value where
  | null
  | boolean (b : Bool)
  | integer (n : Integer)
  | float (f : FloatLit)
  | string (s : String)
  | array (items : List Value)
  | object (members : List (String × Value))

/-- Every object inside has its members in map order. -/
inductive Value.Canonical : Value → Prop
  | null : Canonical .null
  | boolean (b) : Canonical (.boolean b)
  | integer (n) : Canonical (.integer n)
  | float (f) : Canonical (.float f)
  | string (s) : Canonical (.string s)
  | array (l) : (∀ v ∈ l, Canonical v) → Canonical (.array l)
  | object (l) : KeySorted l → (∀ p ∈ l, Canonical p.2) → Canonical (.object l)

end Json

/-- A JSON value. -/
structure Json where
  val : Json.Value
  canonical : val.Canonical

namespace Json

/-! ## The values by kind -/

def null : Json := ⟨.null, .null⟩
def boolean (b : Bool) : Json := ⟨.boolean b, .boolean b⟩
def integer (n : Integer) : Json := ⟨.integer n, .integer n⟩
def float (f : FloatLit) : Json := ⟨.float f, .float f⟩
def string (s : String) : Json := ⟨.string s, .string s⟩

def array (l : List Json) : Json :=
  ⟨.array (l.map (·.val)), .array _ fun v hv => by
    obtain ⟨j, -, rfl⟩ := List.mem_map.1 hv
    exact j.canonical⟩

def object (m : StrMap Json) : Json :=
  ⟨.object (m.toList.map fun p => (p.1, p.2.val)),
    .object _ ((KeySorted.toList m).map _ fun _ => rfl) fun p hp => by
      obtain ⟨q, -, rfl⟩ := List.mem_map.1 hp
      exact q.2.canonical⟩

/-- What a value is, with the parts as values again. -/
inductive View where
  | null
  | boolean (b : Bool)
  | integer (n : Integer)
  | float (f : FloatLit)
  | string (s : String)
  | array (l : List Json)
  | object (m : StrMap Json)

theorem Value.Canonical.of_array {l : List Value} (h : (Value.array l).Canonical) : ∀ v ∈ l, v.Canonical := by
  cases h; assumption

theorem Value.Canonical.of_object {l : List (String × Value)} (h : (Value.object l).Canonical) :
    KeySorted l ∧ ∀ p ∈ l, p.2.Canonical := by
  cases h; exact ⟨‹_›, ‹_›⟩

def view : Json → View
  | ⟨.null, _⟩ => .null
  | ⟨.boolean b, _⟩ => .boolean b
  | ⟨.integer n, _⟩ => .integer n
  | ⟨.float f, _⟩ => .float f
  | ⟨.string s, _⟩ => .string s
  | ⟨.array l, h⟩ => .array (l.pmap Json.mk h.of_array)
  | ⟨.object l, h⟩ =>
    .object (Std.ExtTreeMap.ofList (l.pmap (fun p hp => (p.1, ⟨p.2, hp⟩)) h.of_object.2) compare)

/-- The value a view is of. -/
def View.toJson : View → Json
  | .null => Json.null
  | .boolean b => Json.boolean b
  | .integer n => Json.integer n
  | .float f => Json.float f
  | .string s => Json.string s
  | .array l => Json.array l
  | .object m => Json.object m

@[simp] theorem view_null : null.view = .null := rfl
@[simp] theorem view_boolean (b : Bool) : (boolean b).view = .boolean b := rfl
@[simp] theorem view_integer (n : Integer) : (integer n).view = .integer n := rfl
@[simp] theorem view_float (f : FloatLit) : (float f).view = .float f := rfl
@[simp] theorem view_string (s : String) : (string s).view = .string s := rfl

theorem pmap_val (l : List Json) (h : ∀ v ∈ l.map (·.val), v.Canonical) : (l.map (·.val)).pmap Json.mk h = l := by
  induction l with
  | nil => rfl
  | cons j l ih => simp only [List.map_cons, List.pmap_cons]; rw [ih]

theorem pmap_member (l : List (String × Json)) (h : ∀ p ∈ l.map (fun p => (p.1, p.2.val)), p.2.Canonical) :
    (l.map fun p => (p.1, p.2.val)).pmap (fun p hp => (p.1, (⟨p.2, hp⟩ : Json))) h = l := by
  induction l with
  | nil => rfl
  | cons p l ih => simp only [List.map_cons, List.pmap_cons]; rw [ih]

@[simp] theorem view_array (l : List Json) : (array l).view = .array l :=
  congrArg View.array (pmap_val l _)

@[simp] theorem view_object (m : StrMap Json) : (object m).view = .object m := by
  simp only [view, object]
  rw [pmap_member]
  congr 1
  apply Std.ExtTreeMap.ext_toList
  rw [KeySorted.toList_ofList (KeySorted.toList m)]

theorem object_inj {m m' : StrMap Json} (h : object m = object m') : m = m' := by
  have hview := congrArg view h
  rw [view_object, view_object] at hview
  exact View.object.inj hview

theorem keySorted_pmap {l : List (String × Value)} (h : (Value.object l).Canonical) :
    KeySorted (l.pmap (fun p hp => (p.1, (⟨p.2, hp⟩ : Json))) h.of_object.2) :=
  (List.pairwise_pmap _).2 (h.of_object.1.imp fun hab _ _ => hab)

@[simp] theorem toJson_view (j : Json) : j.view.toJson = j := by
  obtain ⟨v, h⟩ := j
  cases v with
  | array l => simp [view, View.toJson, array, List.map_pmap]
  | object l =>
    simp only [view, View.toJson, object, KeySorted.toList_ofList (keySorted_pmap h), List.map_pmap]
    simp
  | _ => rfl

theorem eq_of_view {j : Json} {v : View} (h : j.view = v) : j = v.toJson := by
  rw [← h, toJson_view]

end Json
