import Mathlib.Data.List.Basic

/-!
# JSON values

Tool inputs, tool outputs and history items cross the system as untyped JSON.
The reducer copies them; the history reader takes them apart by key.

## Main definitions

* `Json` — a JSON value.
* `Json.get`, `Json.asStr`, `Json.asBool`, `Json.asArray`, `Json.asObject`,
  `Json.isNull` — the readers.
-/

namespace Pantoken

/-- An IEEE double, by its bits: the code copies doubles and never computes with
the ones modelled here. -/
structure F64 where
  bits : UInt64
  deriving DecidableEq, Inhabited

/-- A JSON value.  An object lists its members. -/
inductive Json where
  | null
  | bool (b : Bool)
  | int (n : Int)
  | float (x : F64)
  | str (s : String)
  | array (xs : List Json)
  | object (members : List (String × Json))
  deriving Inhabited

namespace Json

/-- `as_object` -/
def asObject : Json → Option (List (String × Json))
  | .object m => some m
  | _ => none

/-- `as_array` -/
def asArray : Json → Option (List Json)
  | .array xs => some xs
  | _ => none

/-- `as_str` -/
def asStr : Json → Option String
  | .str s => some s
  | _ => none

/-- `as_bool` -/
def asBool : Json → Option Bool
  | .bool b => some b
  | _ => none

/-- `is_null` -/
def isNull : Json → Bool
  | .null => true
  | _ => false

/-- `Map::get` -/
def getMember (m : List (String × Json)) (key : String) : Option Json := m.lookup key

/-- `Value::get`: a member of an object; nothing of any other value. -/
def get (v : Json) (key : String) : Option Json := v.asObject.bind (getMember · key)

@[simp] theorem asObject_object (m : List (String × Json)) : (object m).asObject = some m := rfl

@[simp] theorem asArray_array (xs : List Json) : (array xs).asArray = some xs := rfl

@[simp] theorem asStr_str (s : String) : (str s).asStr = some s := rfl

@[simp] theorem asBool_bool (b : Bool) : (bool b).asBool = some b := rfl

@[simp] theorem get_object (m : List (String × Json)) (key : String) :
    (object m).get key = m.lookup key := rfl

end Json

end Pantoken
