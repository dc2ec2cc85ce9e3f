import AliceBridge.Lib.Utf8

/-! # JSON values

`serde_json::Value` with the accessors `get`, `pointer` and `as_*`. An object is
the list of its fields; a lookup takes the first field of the name, so a list
with one field a name is the map. -/
namespace AliceBridge.Lib.Json
open AliceBridge.Lib.Utf8

/-- `serde_json::Number`; a float is kept as its bits. -/
inductive Number where
  | posInt (n : Nat)
  | negInt (n : Int)
  | float (bits : Nat)
deriving DecidableEq, Repr

inductive Value where
  | null
  | bool (b : Bool)
  | number (n : Number)
  | string (s : Text)
  | array (items : List Value)
  | object (fields : List (Text × Value))

namespace Value

def ofNat (n : Nat) : Value := .number (.posInt n)

def get (value : Value) (key : Text) : Option Value :=
  match value with
  | .object fields => (fields.find? fun field => field.1 = key).map Prod.snd
  | _ => none

/-- `Value::pointer` on the tokens between the slashes, none of which is a number:
a token names a field of an object and nothing in an array. -/
def pointer (value : Value) (tokens : List Text) : Option Value :=
  tokens.foldlM get value

def asStr : Value → Option Text
  | .string s => some s
  | _ => none

def asBool : Value → Option Bool
  | .bool b => some b
  | _ => none

def asU64 : Value → Option Nat
  | .number (.posInt n) => some n
  | _ => none

/-- The largest `i64`. -/
def i64Max : Nat := 2 ^ 63 - 1

def asI64 : Value → Option Int
  | .number (.posInt n) => if n ≤ i64Max then some n else none
  | .number (.negInt n) => some n
  | _ => none

@[simp] theorem get_object_nil (key : Text) : (object []).get key = none := rfl

theorem get_object_cons (name key : Text) (value : Value) (fields : List (Text × Value)) :
    (object ((name, value) :: fields)).get key =
      if name = key then some value else (object fields).get key := by
  simp only [get, List.find?_cons]
  by_cases h : name = key <;> simp [h]

@[simp] theorem pointer_nil (value : Value) : value.pointer [] = some value := rfl

@[simp] theorem pointer_cons (value : Value) (token : Text) (tokens : List Text) :
    value.pointer (token :: tokens) = (value.get token).bind fun v => v.pointer tokens := rfl

theorem asStr_eq_some {value : Value} {s : Text} : value.asStr = some s ↔ value = .string s := by
  cases value <;> simp [asStr]

/-- A field that is present and a string. -/
theorem bind_asStr_eq_some {value : Option Value} {s : Text} :
    value.bind asStr = some s ↔ value = some (.string s) := by
  rw [Option.bind_eq_some_iff]
  constructor
  · rintro ⟨v, hv, hs⟩
    rw [hv, asStr_eq_some.mp hs]
  · intro hv
    exact ⟨_, hv, rfl⟩

@[simp] theorem asStr_string (s : Text) : (string s).asStr = some s := rfl

@[simp] theorem asU64_ofNat (n : Nat) : (ofNat n).asU64 = some n := rfl

end Value

end AliceBridge.Lib.Json
