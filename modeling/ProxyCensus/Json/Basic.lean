/-!
# JSON values

A document as it was read: objects keep the order in which their keys first came, integers have any
size, and other numbers are doubles.
-/

namespace ProxyCensus

/-- A JSON value. -/
inductive Json where
  | null
  | bool (b : Bool)
  | int (n : Int)
  | float (x : Float)
  | str (s : String)
  | arr (items : List Json)
  | obj (fields : List (String × Json))
  deriving Inhabited

namespace Json

/-- Replaces the value of a key in its place, or adds the key at the end. -/
def setField (fields : List (String × Json)) (key : String) (value : Json) :
    List (String × Json) :=
  if fields.any (·.1 == key) then fields.map fun f => if f.1 == key then (key, value) else f
  else fields ++ [(key, value)]

/-- The fields of an object in the order of their first appearance; of equal keys the last value
counts. -/
def ofFields (fields : List (String × Json)) : Json :=
  .obj (fields.foldl (fun known f => setField known f.1 f.2) [])

def lookup? (fields : List (String × Json)) (key : String) : Option Json :=
  (fields.find? (·.1 == key)).map (·.2)

/-- The value of a field of an object; nothing for a missing field and for any other value. -/
def get? (j : Json) (key : String) : Option Json :=
  match j with
  | .obj fields => lookup? fields key
  | _ => none

def getD (j : Json) (key : String) : Json :=
  (j.get? key).getD .null

/-- Whether a value counts as present where an absent one may be left out: neither null, false,
zero nor empty. -/
def isSet : Json → Bool
  | .null => false
  | .bool b => b
  | .int n => n != 0
  | .float x => !(x == 0.0)
  | .str s => !s.isEmpty
  | .arr items => !items.isEmpty
  | .obj fields => !fields.isEmpty

theorem setField_of_not_mem {fields : List (String × Json)} {key : String} {value : Json}
    (h : key ∉ fields.map (·.1)) : setField fields key value = fields ++ [(key, value)] := by
  have : fields.any (·.1 == key) = false := by
    simp only [List.any_eq_false, beq_iff_eq]
    intro f hf e
    exact h (e ▸ List.mem_map_of_mem hf)
  simp [setField, this]

end Json

end ProxyCensus
