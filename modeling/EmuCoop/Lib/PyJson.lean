import Mathlib.Data.Rat.Defs
import EmuCoop.Lib.Framing

/-!
# JSON values in Python

What `json.loads` makes of a text, as far as programs can tell the difference: integers and floats
are two kinds of numbers, `NaN` and the infinities are accepted, and a string may hold lone
surrogates.  Here are the values, and what Python's own operations do with them.  Most programs take
the library itself as a parameter.
-/

namespace EmuCoop.Lib

/-- A Python string, by its code points. -/
abbrev PyText := List ℕ

/-- The Python string of a Lean string. -/
def text (s : String) : PyText := s.toList.map Char.toNat

/-- A value that `json.loads` returns. -/
inductive PyJson where
  | null
  | bool (b : Bool)
  | int (n : ℤ)
  /-- A finite float. -/
  | float (q : ℚ)
  /-- `NaN`, `Infinity` or `-Infinity`. -/
  | nonFinite
  | str (t : PyText)
  | list (items : List PyJson)
  | obj (fields : List (PyText × PyJson))

/-- What `json.loads` does with a byte string. -/
inductive Loads where
  | value (json : PyJson)
  /-- It raises `json.JSONDecodeError`. -/
  | jsonDecodeError
  /-- It raises another exception: `UnicodeDecodeError` for bytes that are not text. -/
  | otherError

/-- It returns a value with a property. -/
def Loads.any (p : PyJson → Bool) : Loads → Bool
  | .value json => p json
  | .jsonDecodeError | .otherError => false

theorem Loads.any_eq_true {p : PyJson → Bool} {loads : Loads} :
    loads.any p = true ↔ ∃ json, loads = .value json ∧ p json = true := by
  cases loads <;> simp [any]

namespace PyJson

def isNull : PyJson → Bool
  | .null => true
  | _ => false

/-- `d.get(key)` on the fields of a dict; `none` when the key is missing. -/
def get (fields : List (PyText × PyJson)) (key : String) : Option PyJson :=
  (fields.find? fun p => p.1 = text key).map Prod.snd

/-- `value == n`: a bool equals 0 or 1, and a float may equal an integer. -/
def equalsInt (n : ℤ) : PyJson → Bool
  | .bool b => (if b then 1 else 0) = n
  | .int m => m = n
  | .float q => q = n
  | _ => false

/-- `value == s`. -/
def equalsText (s : String) : PyJson → Bool
  | .str t => t = text s
  | _ => false

/-- `int(value)`; `none` when it raises.  What it makes of a string is a parameter. -/
def toInt (intOfText : PyText → Option ℤ) : PyJson → Option ℤ
  | .bool b => some (if b then 1 else 0)
  | .int n => some n
  | .float q => some (q.num.tdiv q.den)
  | .str t => intOfText t
  | .null | .nonFinite | .list _ | .obj _ => none

/-- `bool(value)`. -/
def truthy : PyJson → Bool
  | .null => false
  | .bool b => b
  | .int n => n ≠ 0
  | .float q => q ≠ 0
  | .nonFinite => true
  | .str t => !t.isEmpty
  | .list items => !items.isEmpty
  | .obj fields => !fields.isEmpty

def fields? : PyJson → Option (List (PyText × PyJson))
  | .obj fields => some fields
  | _ => none

end PyJson

end EmuCoop.Lib
