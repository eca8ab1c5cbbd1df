import MultiCluster.Number.Binary64

/-! JSON values. An object is a list of fields; the operations here keep its keys in ascending
order, each at most once, which is the order in which it is written. -/
namespace MultiCluster

inductive Json where
  | null
  | bool (b : Bool)
  | int (n : Int)
  | float (x : Binary64)
  | str (s : String)
  | arr (items : List Json)
  | obj (fields : List (String × Json))
  deriving Repr, Inhabited

abbrev Fields := List (String × Json)

namespace Json

mutual
def same : Json → Json → Bool
  | .null, .null => true
  | .bool a, .bool b => a == b
  | .int a, .int b => a == b
  | .float a, .float b => a == b
  | .str a, .str b => a == b
  | .arr a, .arr b => sameItems a b
  | .obj a, .obj b => sameFields a b
  | _, _ => false
def sameItems : List Json → List Json → Bool
  | [], [] => true
  | a :: as, b :: bs => same a b && sameItems as bs
  | _, _ => false
def sameFields : List (String × Json) → List (String × Json) → Bool
  | [], [] => true
  | (j, a) :: as, (k, b) :: bs => j == k && same a b && sameFields as bs
  | _, _ => false
end

mutual
theorem eq_of_same : ∀ {a b : Json}, same a b = true → a = b
  | .null, b, h => by cases b <;> simp_all [same]
  | .bool _, b, h => by cases b <;> simp_all [same]
  | .int _, b, h => by cases b <;> simp_all [same]
  | .float _, b, h => by cases b <;> simp_all [same]
  | .str _, b, h => by cases b <;> simp_all [same]
  | .arr x, b, h => by
    cases b with
    | arr y => exact congrArg Json.arr (eq_of_sameItems (by simpa [same] using h))
    | _ => simp [same] at h
  | .obj x, b, h => by
    cases b with
    | obj y => exact congrArg Json.obj (eq_of_sameFields (by simpa [same] using h))
    | _ => simp [same] at h
theorem eq_of_sameItems : ∀ {a b : List Json}, sameItems a b = true → a = b
  | [], b, h => by cases b <;> simp_all [sameItems]
  | x :: xs, b, h => by
    cases b with
    | nil => simp [sameItems] at h
    | cons y ys =>
      simp only [sameItems, Bool.and_eq_true] at h
      rw [eq_of_same h.1, eq_of_sameItems h.2]
theorem eq_of_sameFields : ∀ {a b : List (String × Json)}, sameFields a b = true → a = b
  | [], b, h => by cases b <;> simp_all [sameFields]
  | (j, x) :: xs, b, h => by
    cases b with
    | nil => simp [sameFields] at h
    | cons y ys =>
      obtain ⟨k, y⟩ := y
      simp only [sameFields, Bool.and_eq_true, beq_iff_eq] at h
      rw [h.1.1, eq_of_same h.1.2, eq_of_sameFields h.2]
end

mutual
theorem same_refl : ∀ a : Json, same a a = true
  | .null => rfl
  | .bool _ => by simp [same]
  | .int _ => by simp [same]
  | .float _ => by simp [same]
  | .str _ => by simp [same]
  | .arr x => by simpa [same] using sameItems_refl x
  | .obj x => by simpa [same] using sameFields_refl x
theorem sameItems_refl : ∀ a : List Json, sameItems a a = true
  | [] => rfl
  | x :: xs => by simp [sameItems, same_refl x, sameItems_refl xs]
theorem sameFields_refl : ∀ a : List (String × Json), sameFields a a = true
  | [] => rfl
  | (_, x) :: xs => by simp [sameFields, same_refl x, sameFields_refl xs]
end

instance : DecidableEq Json := fun a b =>
  if h : same a b = true then isTrue (eq_of_same h)
  else isFalse fun e => h (e ▸ same_refl a)

end Json

namespace Fields

def find? (key : String) : Fields → Option Json
  | [] => none
  | (k, v) :: rest => if k == key then some v else find? key rest

/-- Put a value under a key, in order, replacing the one that is there. -/
def insert (key : String) (value : Json) : Fields → Fields
  | [] => [(key, value)]
  | (k, v) :: rest =>
    if k == key then (key, value) :: rest
    else if key < k then (key, value) :: (k, v) :: rest
    else (k, v) :: insert key value rest

def erase (key : String) (fields : Fields) : Fields := fields.filter fun f => f.1 != key

def update (key : String) (f : Json → Json) : Fields → Fields
  | [] => []
  | (k, v) :: rest => if k == key then (k, f v) :: rest else (k, v) :: update key f rest

/-- In order, the last of repeated keys winning. -/
def ofList (fields : Fields) : Fields := fields.foldl (fun acc f => insert f.1 f.2 acc) []

end Fields

namespace Json

/-- An object with the given fields, in any order. -/
def object (fields : Fields) : Json := .obj (Fields.ofList fields)

def text (s : Option String) : Json := (s.map Json.str).getD .null

def strings (items : List String) : Json := .arr (items.map Json.str)

def get? (key : String) : Json → Option Json
  | .obj fields => Fields.find? key fields
  | _ => none

def at? : List String → Json → Option Json
  | [], v => some v
  | k :: rest, v => (v.get? k).bind (at? rest)

def str? : Json → Option String
  | .str s => some s
  | _ => none

def arr? : Json → Option (List Json)
  | .arr items => some items
  | _ => none

def obj? : Json → Option Fields
  | .obj fields => some fields
  | _ => none

def textAt? (path : List String) (v : Json) : Option String := (v.at? path).bind str?

def itemsAt (path : List String) (v : Json) : List Json := ((v.at? path).bind arr?).getD []

def fieldsAt (path : List String) (v : Json) : Fields := ((v.at? path).bind obj?).getD []

/-- Change the fields of the object at the end of a path, if there is one. -/
def updateAt (f : Fields → Fields) : List String → Json → Json
  | [], .obj fields => .obj (f fields)
  | k :: rest, .obj fields => .obj (Fields.update k (updateAt f rest) fields)
  | _, v => v

def set (v : Json) (key : String) (value : Json) : Json :=
  match v with
  | .obj fields => .obj (Fields.insert key value fields)
  | v => v

end Json
end MultiCluster
