import SsnIpc.Lib.ByteMem

/-!
# JSON values

The values of `nlohmann::json` that the framework passes around. Strings and keys are bytes, as a
`std::string` is: nothing makes them valid UTF-8.

Reading and writing is left open. A `JsonCodec` may refuse any text, and it writes out a value
exactly when all strings in it are valid UTF-8, which is what `dump()` with default arguments does;
it throws otherwise.
-/

namespace Ssn

open ByteMem

/-- A value of `nlohmann::json`. -/
inductive Json
  | null
  | bool (b : Bool)
  | number (text : String)
  | string (s : Bytes)
  | array (items : List Json)
  | object (fields : List (Bytes × Json))

/-- The bytes of a string literal. -/
def literal (s : String) : Bytes := s.toByteArray.data.toList

def isUtf8 (s : Bytes) : Bool := ByteArray.validateUTF8 ⟨s.toArray⟩

theorem isUtf8_iff {s : Bytes} : isUtf8 s = true ↔ ByteArray.IsValidUTF8 ⟨s.toArray⟩ :=
  ByteArray.validateUTF8_eq_true_iff

@[simp] theorem isUtf8_literal (s : String) : isUtf8 (literal s) = true := by
  rw [isUtf8_iff, literal, Array.toArray_toList]
  exact s.isValidUTF8

@[simp] theorem literal_eq_nil {s : String} : literal s = [] ↔ s = "" := by
  rw [literal, ← List.length_eq_zero_iff, Array.length_toList]
  exact String.utf8ByteSize_eq_zero_iff

namespace Json

/-- `contains` and `operator[]`: the field of an object. -/
def field (key : Bytes) : Json → Option Json
  | .object fields => (fields.find? fun f => f.1 = key).map Prod.snd
  | _ => none

mutual

/-- All strings and keys in the value are UTF-8. -/
def utf8 : Json → Bool
  | .string s => isUtf8 s
  | .array items => utf8Items items
  | .object fields => utf8Fields fields
  | .null | .bool _ | .number _ => true

def utf8Items : List Json → Bool
  | [] => true
  | j :: items => j.utf8 && utf8Items items

def utf8Fields : List (Bytes × Json) → Bool
  | [] => true
  | (key, j) :: fields => isUtf8 key && j.utf8 && utf8Fields fields

end

end Json

/-- Reading and writing of JSON. -/
structure JsonCodec where
  /-- `json::parse`; `none` if it throws. -/
  parse : Bytes → Option Json
  /-- `dump()`; `none` if it throws. -/
  dump : Json → Option Bytes
  isSome_dump : ∀ j, (dump j).isSome = j.utf8

end Ssn
