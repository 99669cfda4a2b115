import Mathlib.Algebra.Ring.Int.Defs
import Mathlib.Algebra.Ring.Nat
import Mathlib.Data.List.Basic

/-!
# JSON values

The engine stores every workflow value, and the frozen workflow document itself, as
`serde_json::Value`. This module is that type with the readers the engine uses, and the number
representation behind it.

## Numbers

A `serde_json` number is a non-negative `u64`, a negative `i64` or a finite `f64`, and the three
stay distinct. A double is kept as the dyadic rational it denotes; the sign of a zero is not
kept.

## Objects

Fields are a list in the order in which they were inserted: the workspace builds `serde_json` over
`indexmap`, whose maps keep that order and compare without regard to it. `Value.same` is that
comparison; equality of `Value` is finer, and is used where no two objects are compared. Reading a
key that occurs twice finds the first occurrence; no value the engine builds repeats a key.

## Text

Printing and parsing JSON text is the `serde_json` crate's work and not part of this development.
`JsonText` names the two functions, so that every result below holds for any choice of them.
-/

namespace OraDesktop

/-- The dyadics that are doubles: a 53-bit significand, and an exponent in range. -/
def F64.Fits : Dyadic → Prop
  | .zero => True
  | .ofOdd n k _ => n.natAbs < 2 ^ 53 ∧ k ≤ 1074 ∧ (n.natAbs.log2 : Int) - k < 1024

/-- A finite double. JSON has no others: `serde_json` makes a number of no infinity and of no
NaN. -/
structure F64 where
  value : Dyadic
  fits : F64.Fits value
  deriving DecidableEq

inductive Number where
  | posInt (n : UInt64)
  | negInt (i : Int64)
  | float (x : F64)
  deriving DecidableEq

inductive Value where
  | null
  | bool (b : Bool)
  | num (n : Number)
  | str (s : String)
  | arr (items : List Value)
  | obj (fields : List (String × Value))

namespace Value

/-! ### Decidable equality

The derive handler does not reach through the two nested lists, so the three functions are
written out. -/

mutual

def decEq : (a b : Value) → Decidable (a = b)
  | null, null => isTrue rfl
  | bool a, bool b => decidable_of_iff (a = b) (by simp)
  | num a, num b => decidable_of_iff (a = b) (by simp)
  | str a, str b => decidable_of_iff (a = b) (by simp)
  | arr a, arr b => match decEqItems a b with
    | isTrue h => isTrue (by rw [h])
    | isFalse h => isFalse (by simpa using h)
  | obj a, obj b => match decEqFields a b with
    | isTrue h => isTrue (by rw [h])
    | isFalse h => isFalse (by simpa using h)
  | null, bool _ | null, num _ | null, str _ | null, arr _ | null, obj _
  | bool _, null | bool _, num _ | bool _, str _ | bool _, arr _ | bool _, obj _
  | num _, null | num _, bool _ | num _, str _ | num _, arr _ | num _, obj _
  | str _, null | str _, bool _ | str _, num _ | str _, arr _ | str _, obj _
  | arr _, null | arr _, bool _ | arr _, num _ | arr _, str _ | arr _, obj _
  | obj _, null | obj _, bool _ | obj _, num _ | obj _, str _ | obj _, arr _ => isFalse (by simp)

def decEqItems : (a b : List Value) → Decidable (a = b)
  | [], [] => isTrue rfl
  | [], _ :: _ => isFalse (by simp)
  | _ :: _, [] => isFalse (by simp)
  | a :: as, b :: bs => match decEq a b, decEqItems as bs with
    | isTrue h, isTrue h' => isTrue (by rw [h, h'])
    | isFalse h, _ => isFalse (by simp [h])
    | _, isFalse h => isFalse (by simp [h])

def decEqFields : (a b : List (String × Value)) → Decidable (a = b)
  | [], [] => isTrue rfl
  | [], _ :: _ => isFalse (by simp)
  | _ :: _, [] => isFalse (by simp)
  | (k, a) :: as, (l, b) :: bs =>
    match decEq a b, decEqFields as bs, (inferInstance : Decidable (k = l)) with
    | isTrue h, isTrue h', isTrue hk => isTrue (by rw [h, h', hk])
    | isFalse h, _, _ => isFalse (by simp [h])
    | _, isFalse h, _ => isFalse (by simp [h])
    | _, _, isFalse h => isFalse (by simp [h])

end

instance : DecidableEq Value := decEq

instance : Inhabited Value := ⟨null⟩

mutual

/-- `Value::eq`: objects are equal if they have the same fields in any order. -/
def same : Value → Value → Bool
  | arr a, arr b => sameItems a b
  | obj a, obj b => a.length == b.length && sameFields a b
  | a, b => decide (a = b)

def sameItems : List Value → List Value → Bool
  | [], [] => true
  | a :: as, b :: bs => a.same b && sameItems as bs
  | _, _ => false

/-- Every field has its counterpart among the others. -/
def sameFields : List (String × Value) → List (String × Value) → Bool
  | [], _ => true
  | (key, a) :: rest, fields => (fields.lookup key).any (a.same ·) && sameFields rest fields

end

/-! ### Readers -/

def asStr : Value → Option String
  | str s => some s
  | _ => none

def asArray : Value → Option (List Value)
  | arr items => some items
  | _ => none

def asObject : Value → Option (List (String × Value))
  | obj fields => some fields
  | _ => none

/-- `Value::get` with a key: `none` on anything but an object that has the key. -/
def get (v : Value) (key : String) : Option Value :=
  v.asObject.bind fun fields => fields.lookup key

/-- `serde_json::Map::insert`: a key that is there keeps its place, a new one comes last. -/
def insertField (key : String) (value : Value) : List (String × Value) → List (String × Value)
  | [] => [(key, value)]
  | (other, old) :: rest =>
    if key = other then (key, value) :: rest else (other, old) :: insertField key value rest

/-- `value[key]`: indexing reads a missing key as `null`. -/
def index (v : Value) (key : String) : Value := (v.get key).getD null

/-- Whether the value is an integer that fits `i64` or `u64` (`as_i64` or `as_u64` answers). -/
def isInteger : Value → Bool
  | num (.posInt _) | num (.negInt _) => true
  | _ => false

def asU64 : Value → Option UInt64
  | num (.posInt n) => some n
  | _ => none

/-- The JSON number of a `u32`, `usize` or non-negative count below `2 ^ 64`. -/
def ofNat (n : Nat) : Value := num (.posInt (UInt64.ofNat n))

/-- The JSON number of an `i64`. -/
def ofInt (i : Int) : Value :=
  num (if 0 ≤ i then .posInt (UInt64.ofNat i.toNat) else .negInt (Int64.ofInt i))

end Value

/-! ### Numbers read as doubles -/

/-- A natural number rounded to the nearest multiple of a power of two that leaves a 53-bit
significand, ties to even. -/
def roundToF64 (n : Nat) : Dyadic :=
  if n < 2 ^ 53 then .ofIntWithPrec n 0
  else
    let k := n.log2 - 52
    let q := n / 2 ^ k
    let r := n % 2 ^ k
    let up := 2 ^ (k - 1) < r ∨ r = 2 ^ (k - 1) ∧ q % 2 = 1
    .ofIntWithPrec (if up then (q + 1 : Nat) else q) (-k)

/-- `Number::as_f64`: integers round to the nearest double. -/
def Number.asF64 : Number → Dyadic
  | posInt n => roundToF64 n.toNat
  | negInt i => -roundToF64 i.toInt.natAbs
  | float x => x.value

def Value.asF64 : Value → Option Dyadic
  | .num n => some n.asF64
  | _ => none

/-- JSON text, as the `serde_json` crate prints and parses it. -/
class JsonText where
  /-- `serde_json::to_string`. -/
  toText : Value → String
  /-- `serde_json::from_str`. -/
  fromText : String → Option Value

end OraDesktop
