import Mathlib

/-! Values that reach the gateway from JSON documents and HTTP headers. Finite
floats are rationals, rounded nowhere but in the scores of the router, and a text is a sequence
of Unicode scalar values, so lone surrogates are left out. -/
namespace Noxis

/-- A Python float: exact where finite, with the three special values. -/
inductive PyFloat where
  | finite (q : ℚ)
  | inf
  | negInf
  | nan
  deriving DecidableEq

/-- The hashable values of a JSON document, which can be dictionary keys. -/
inductive Scalar where
  | none
  | bool (b : Bool)
  | int (n : ℤ)
  | float (x : PyFloat)
  | str (s : String)
  deriving DecidableEq

/-- What `json.loads` returns. An object keeps its members in order. -/
inductive Json where
  | scalar (v : Scalar)
  | arr (items : List Json)
  | obj (members : List (String × Json))

instance : Coe String Scalar := ⟨Scalar.str⟩
instance : Inhabited Json := ⟨.scalar .none⟩

namespace Scalar

/-- Python compares `True`, `1` and `1.0` equal; every other value only with its own kind. -/
def key : Scalar → Scalar
  | .bool b => .float (.finite (if b then 1 else 0))
  | .int n => .float (.finite n)
  | v => v

/-- `a == b`, under which NaN differs from itself. -/
def pyEq (a b : Scalar) : Bool := decide (a.key = b.key) && decide (a ≠ .float .nan)

@[simp] theorem pyEq_str (a b : String) : pyEq (.str a) (.str b) = decide (a = b) := by
  simp [pyEq, key]

/-- `bool(v)`. -/
def truthy : Scalar → Bool
  | .none => false
  | .bool b => b
  | .int n => decide (n ≠ 0)
  | .float (.finite q) => decide (q ≠ 0)
  | .float _ => true
  | .str s => decide (s ≠ "")

end Scalar

namespace Json

abbrev null : Json := .scalar .none
abbrev str (s : String) : Json := .scalar (.str s)

/-- `d.get(name)` on an object, with `none` where the member is absent. -/
def member? (members : List (String × Json)) (name : String) : Option Json :=
  (members.find? (fun m => m.1 = name)).map Prod.snd

/-- `d.get(name, default)`. A member that is present and null is returned as null. -/
def get (members : List (String × Json)) (name : String) (default : Json) : Json :=
  (member? members name).getD default

/-- `bool(v)`. -/
def truthy : Json → Bool
  | .scalar v => v.truthy
  | .arr items => !items.isEmpty
  | .obj members => !members.isEmpty

end Json

/-- A computation returns if each of its steps does. -/
theorem bind_eq_ok {ε α β : Type} {x : Except ε α} {f : α → Except ε β} {b : β} :
    x >>= f = .ok b ↔ ∃ a, x = .ok a ∧ f a = .ok b := by
  cases x with
  | error e => simp [bind, Except.bind]
  | ok a => simp [bind, Except.bind]

end Noxis
