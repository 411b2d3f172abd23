import NatServer.Json.RoundTrip
/-!
# Reading and changing JSON values

The `basic_json` operations a program uses on parsed values. A non-const
`operator[]` turns a missing member into `null`; what throws is `none`.
-/

namespace Json

/-- `j[key]`. -/
def sub (key : String) (j : Json) : Option Json :=
  match j.view with
  | .object m => some (m[key]?.getD null)
  | .null => some null
  | _ => none

/-- `j[0]`. -/
def sub0 (j : Json) : Option Json :=
  match j.view with
  | .array l => some (l.headD null)
  | .null => some null
  | _ => none

/-- `j[key] = v`. -/
def set (j : Json) (key : String) (v : Json) : Option Json :=
  match j.view with
  | .object m => some (object (m.insert key v))
  | .null => some (object ((∅ : StrMap Json).insert key v))
  | _ => none

/-- `j[0] = v`. -/
def set0 (j v : Json) : Option Json :=
  match j.view with
  | .array (_ :: l) => some (array (v :: l))
  | .array [] => some (array [v])
  | .null => some (array [v])
  | _ => none

/-- `get<std::string>()`. -/
def getString (j : Json) : Option String :=
  match j.view with
  | .string s => some s
  | _ => none

/-- `get<unsigned short>()`. -/
def getUShort (j : Json) : Option UInt16 :=
  match j.view with
  | .integer n => some n.toUInt16
  | .float f => some f.toUInt16
  | .boolean b => some (if b then 1 else 0)
  | _ => none

def isNull (j : Json) : Bool :=
  match j.view with
  | .null => true
  | _ => false

/-- An unsigned short as a value. -/
def ushort (n : UInt16) : Json := integer (.ofUInt16 n)

/-- `{{key, value}, ...}`: the first of equal keys is kept (`emplace`). -/
def obj (l : List (String × Json)) : Json := object (l.foldl (fun m p => m.insertIfNew p.1 p.2) ∅)

/-! ## What each read of a built value gives -/

@[simp] theorem getString_string (s : String) : (string s).getString = some s := rfl

@[simp] theorem getString_null : null.getString = none := rfl

@[simp] theorem getUShort_ushort (n : UInt16) : (ushort n).getUShort = some n := by
  simp [getUShort, ushort]

@[simp] theorem isNull_null : null.isNull = true := rfl

@[simp] theorem sub_null (key : String) : null.sub key = some null := rfl

@[simp] theorem sub_object (key : String) (m : StrMap Json) : (object m).sub key = some (m[key]?.getD null) := by
  simp [sub]

theorem getElem?_foldl_insertIfNew (l : List (String × Json)) (m : StrMap Json) (k : String) :
    (l.foldl (fun m p => m.insertIfNew p.1 p.2) m)[k]? = m[k]?.or (l.lookup k) := by
  induction l generalizing m with
  | nil => simp
  | cons p l ih =>
    rw [List.foldl_cons, ih, StrMap.getElem?_insertIfNew, List.lookup_cons]
    by_cases hk : k = p.1
    · subst hk
      by_cases hm : p.1 ∈ m
      · simp [hm]
      · simp [hm]
    · rw [if_neg (fun h => hk h.1), beq_false_of_ne hk]

@[simp] theorem sub_obj (l : List (String × Json)) (key : String) :
    (obj l).sub key = some ((l.lookup key).getD null) := by
  rw [obj, sub_object, getElem?_foldl_insertIfNew]
  simp

@[simp] theorem sub0_array_cons (j : Json) (l : List Json) : (array (j :: l)).sub0 = some j := by
  simp [sub0]

theorem getString_eq_some {j : Json} {s : String} : j.getString = some s ↔ j = string s := by
  constructor
  · intro h
    unfold getString at h
    split at h
    · next e => cases h; exact eq_of_view e
    · cases h
  · rintro rfl; rfl

theorem isNull_iff {j : Json} : j.isNull = true ↔ j = null := by
  constructor
  · intro h
    unfold isNull at h
    split at h
    · next e => exact eq_of_view e
    · cases h
  · rintro rfl; rfl

/-- A member that is not null is a member of an object. -/
theorem sub_eq_some {j x : Json} {key : String} (h : j.sub key = some x) (hx : x ≠ null) :
    ∃ m, j = object m ∧ m[key]? = some x := by
  unfold sub at h
  split at h
  · next m e =>
    refine ⟨m, eq_of_view e, ?_⟩
    cases hm : m[key]? with
    | none => rw [hm] at h; cases h; exact absurd rfl hx
    | some y => rw [hm] at h; exact h
  · cases h; exact absurd rfl hx
  · cases h

theorem sub0_eq_some {j x : Json} (h : j.sub0 = some x) (hx : x ≠ null) : ∃ l, j = array (x :: l) := by
  unfold sub0 at h
  split at h
  · next l e =>
    cases l with
    | nil => cases h; exact absurd rfl hx
    | cons y l => cases h; exact ⟨l, eq_of_view e⟩
  · cases h; exact absurd rfl hx
  · cases h

/-- What has one member can be read by any key. -/
theorem sub_of_sub {j x : Json} {key : String} (h : j.sub key = some x) (key' : String) : ∃ y, j.sub key' = some y := by
  unfold sub at h ⊢
  split at h
  · exact ⟨_, rfl⟩
  · exact ⟨_, rfl⟩
  · cases h

/-! ## What a change leaves -/

/-- A changed member is read back, the others are as they were. -/
theorem sub_set {j j' v : Json} {key : String} (h : j.set key v = some j') (key' : String) :
    j'.sub key' = if key' = key then some v else j.sub key' := by
  unfold set at h
  split at h
  · next m e =>
    cases h
    rw [eq_of_view e, View.toJson]
    by_cases hk : key' = key
    · simp [hk]
    · simp [hk, StrMap.getElem?_insert_of_ne _ _ hk]
  · next e =>
    cases h
    rw [eq_of_view e, View.toJson]
    by_cases hk : key' = key
    · simp [hk]
    · simp [hk, StrMap.getElem?_insert_of_ne _ _ hk]
  · cases h

theorem sub0_set0 {j j' v : Json} (h : j.set0 v = some j') : j'.sub0 = some v := by
  unfold set0 at h
  split at h <;> cases h <;> simp

/-- What can be read by key can be changed by key. -/
theorem set_of_sub {j x : Json} {key : String} (h : j.sub key = some x) (key' : String) (v : Json) :
    ∃ j', j.set key' v = some j' := by
  unfold sub at h
  unfold set
  split at h
  · exact ⟨_, rfl⟩
  · exact ⟨_, rfl⟩
  · cases h

theorem set0_of_sub0 {j x : Json} (h : j.sub0 = some x) (v : Json) : ∃ j', j.set0 v = some j' := by
  unfold sub0 at h
  unfold set0
  split at h
  · next l e => cases l <;> exact ⟨_, by rw [e]⟩
  · next e => exact ⟨_, by rw [e]⟩
  · cases h

/-- Writing what is there changes nothing. -/
theorem set_self {j v : Json} {key : String} (h : j.sub key = some v) (hv : v ≠ null) : j.set key v = some j := by
  obtain ⟨m, rfl, hm⟩ := sub_eq_some h hv
  simp [set, StrMap.insert_of_getElem? hm]

theorem set0_self {j v : Json} (h : j.sub0 = some v) (hv : v ≠ null) : j.set0 v = some j := by
  obtain ⟨l, rfl⟩ := sub0_eq_some h hv
  simp [set0]

/-- Writing the same member twice. -/
theorem set_set {j j' v : Json} {key : String} (h : j.set key v = some j') : j'.set key v = some j' := by
  unfold set at h
  split at h <;> cases h <;> simp [set, StrMap.insert_insert]

end Json
